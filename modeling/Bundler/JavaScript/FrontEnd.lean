import Bundler.JavaScript.CommonForm
import Bundler.JavaScript.Recovery

/-! What a build asks about a source: its common form, and its calls. -/
namespace Bundler.JavaScript

/-- The program a source holds. -/
def program (source : List Char) : Except SyntaxError Program :=
  match Program.parse source with
  | .ok p => .ok p
  | .error _ => .error (syntaxError source)

/-- The common form of a source. -/
def commonForm (source : List Char) : Except SyntaxError (List Char) :=
  (program source).map (CommonForm.text source)

/-- The calls of a source. -/
def callSites (source : List Char) : Except SyntaxError (List CallSite) :=
  (program source).map (Program.callSites source)

end Bundler.JavaScript
