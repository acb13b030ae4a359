import Bundler.Config
import Bundler.Json.Printer
import Bundler.Loader.Pipeline
import Bundler.Text.Quoted

/-! Values described for the people who debug a build: a name with its parts, texts in
quotes. -/
namespace Bundler

namespace Description

def text (s : String) : String := String.ofList (Text.quoted s.toList)

def path (p : Path) : String := String.ofList (Text.quotedStrictly p.text.toList)

def list (items : List String) : String := "[" ++ ", ".intercalate items ++ "]"

/-- A case of a type with what it holds. -/
def variant (name part : String) : String := name ++ "(" ++ part ++ ")"

/-- Fields with their names. -/
def record (name : String) (fields : List (String × String)) : String :=
  name ++ " \x7b " ++ ", ".intercalate (fields.map fun (n, v) => n ++ ": " ++ v) ++ " \x7d"

mutual

def json : Json → String
  | .null => "Null"
  | .bool b => variant "Bool" (toString b)
  | .integer n => variant "Number" (toString n)
  | .decimal x => variant "Number" (String.ofList (Json.decimalText x))
  | .string s => variant "String" (text s)
  | .array vs => "Array " ++ list (jsonItems vs)
  | .object ms => "Object \x7b" ++ ", ".intercalate (jsonMembers ms) ++ "\x7d"

def jsonItems : List Json → List String
  | [] => []
  | v :: vs => json v :: jsonItems vs

def jsonMembers : List (String × Json) → List String
  | [] => []
  | (n, v) :: ms => (text n ++ ": " ++ json v) :: jsonMembers ms

end

/-- The names of a registry. -/
def registry (name field : String) (r : Registry α) : String :=
  record name [(field, list (r.names.map text))]

end Description

open Description

def Loaders.description (ls : Loaders) : String := registry "TransformRegistry" "transforms" ls

def Plugins.description (ps : Plugins) : String := registry "PluginRegistry" "factories" ps

/-- The plugins of a phase. -/
def Hooks.description (h : Hooks) (phase : Phase) : String := list ((h.plugins phase).map text)

def LoaderEntry.description : LoaderEntry → String
  | name s => variant "Name" (text s)
  | withOptions s o => record "WithOptions" [("loader", text s), ("options", json o)]

def Uses.description : Uses → String
  | single e => variant "Single" e.description
  | chain es => variant "Chain" (list (es.map LoaderEntry.description))

def LoaderRule.description (r : LoaderRule) : String :=
  record "LoaderRule" [("test", variant "Regex" (text r.pattern)), ("uses", r.uses.description)]

def BuildConfig.description (c : BuildConfig) : String :=
  record "BuildConfig" [
    ("root", path c.root),
    ("entry", text c.entry),
    ("output_path", path c.outputPath),
    ("output_file_name", text c.outputFile),
    ("rules", list (c.rules.map LoaderRule.description)),
    ("plugins", list (c.plugins.map fun p => text p.name))]

end Bundler
