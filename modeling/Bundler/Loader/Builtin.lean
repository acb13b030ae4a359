import Bundler.Json.Parser
import Bundler.Json.Printer
import Bundler.Loader.Pipeline

/-! The built-in loaders. -/
namespace Bundler.Loader

/-- A module that exports a value. -/
def exporting (value : List Char) : List Char := "module.exports = ".toList ++ value ++ [';']

/-- Exports the content as a string. -/
def raw : Loader := fun _ content => .ok (exporting (Json.literal content))

/-- Exports the content, which has to be JSON, as a value. -/
def json : Loader := fun _ content =>
  match Json.parse content with
  | .ok v => .ok (exporting v.text)
  | .error e => .error e.message

/-- Strips blanks at the start, at the end or at both. -/
def trim : Loader := fun cx content =>
  let front := content.dropWhile Text.isWhite
  let back (cs : List Char) := (cs.reverse.dropWhile Text.isWhite).reverse
  match (cx.options.member? "mode").bind Json.string? with
  | none | some "both" => .ok (back front)
  | some "start" => .ok front
  | some "end" => .ok (back content)
  | some other => .error ("unknown trim mode '" ++ other ++ "'")

def builtin : Loaders :=
  (({} : Loaders).insert "raw" raw |>.insert "json" json).insert "trim" trim

end Bundler.Loader
