import Bundler.Error
import Bundler.Options
import Bundler.Regex.Parser

/-! Loader rules: which loaders apply to a file, by a regular expression on its path. -/
namespace Bundler

structure LoaderRule where
  /-- The text of the expression. -/
  pattern : String
  test : Regex
  uses : Uses
deriving Inhabited

namespace LoaderRule

/-- The flags that a literal may carry. -/
def literalFlags : List Char := ['d', 'g', 'i', 'm', 's', 'u', 'v', 'y']

/-- The expression of a pattern. A pattern between slashes is a literal when only flags
follow it; of these `i`, `m` and `s` change what matches and move into the expression. -/
def expressionText (pattern : List Char) : List Char :=
  match pattern with
  | '/' :: body =>
    let flags := (body.reverse.takeWhile (· != '/')).reverse
    if body.contains '/' && flags.all literalFlags.contains then
      let source := body.take (body.length - flags.length - 1)
      match flags.filter ['i', 'm', 's'].contains with
      | [] => source
      | kept => "(?".toList ++ kept ++ ')' :: source
    else pattern
  | _ => pattern

/-- Compiles a rule. -/
def compile (pattern : String) (uses : Uses) : Except BuildError LoaderRule :=
  let text := expressionText pattern.toList
  match Regex.parse text with
  | .ok r => .ok ⟨String.ofList text, r, uses⟩
  | .error e =>
    .error (.config ("invalid loader test '" ++ pattern ++ "': " ++ e.message text))

def ofOptions (o : RuleOptions) : Except BuildError LoaderRule := compile o.test o.uses

def applies (r : LoaderRule) (file : Path) : Bool := r.test.isMatch file.text

end LoaderRule
end Bundler
