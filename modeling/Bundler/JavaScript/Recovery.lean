import Bundler.Error
import Bundler.JavaScript.Recovery.Search

/-! Where a source that is no program goes wrong: at the first fault of the cheapest way
to make a program of it. -/
namespace Bundler.JavaScript

def Recovery.Fault.message (source : List Char) (fault : Fault) : String :=
  match fault.added with
  | some token => "missing \x60" ++ token ++ "\x60"
  | none => "unexpected \x60" ++ String.ofList ((Text.slice source fault.span).take 40) ++ "\x60"

/-- The error of a source that is no program. -/
def syntaxError (source : List Char) : SyntaxError :=
  let fault := Recovery.Search.firstFault source
  let (line, column) := Text.position source fault.span.start
  ⟨line, column, fault.message source⟩

end Bundler.JavaScript
