import Bundler.Edit
import Bundler.JavaScript.FrontEnd

/-! What a build needs to know about a source language. -/
namespace Bundler

/-- A text and every call in it. -/
structure ParsedSource where
  source : List Char
  calls : List JavaScript.CallSite

/-- The text with some edits made. -/
def ParsedSource.edited (parsed : ParsedSource) (edits : List Edit) : List Char :=
  Edit.apply parsed.source edits

/-- The common form of a source, where modules are loaded by calls, the calls of a source in
that form, and how it is written again with other calls. -/
structure FrontEnd where
  normalize : List Char → Except SyntaxError (List Char)
  parse : List Char → Except SyntaxError (List JavaScript.CallSite)
  /-- The text whose calls `parse` gives and which is edited. -/
  parsedText : List Char → List Char := fun source => source
  regenerate : ParsedSource → List Edit → List Char := ParsedSource.edited

namespace FrontEnd

/-- The text that is edited, and its calls. -/
def parsed (fe : FrontEnd) (source : List Char) : Except SyntaxError ParsedSource :=
  (fe.parse source).map fun calls => ⟨fe.parsedText source, calls⟩

def javaScript : FrontEnd where
  normalize := JavaScript.commonForm
  parse := JavaScript.callSites

end FrontEnd
end Bundler
