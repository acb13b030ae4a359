import Bundler.Json.Value
import Bundler.Path

/-! Build options as users write them: every field may be missing, and a loader or a
plugin is a name, with or without options of its own. -/
namespace Bundler

/-- A loader in a rule. -/
inductive LoaderEntry where
  | name (loader : String)
  | withOptions (loader : String) (options : Json)
deriving Inhabited

namespace LoaderEntry

def loader : LoaderEntry → String
  | name s | withOptions s _ => s

def options : LoaderEntry → Json
  | name _ => .null
  | withOptions _ o => o

end LoaderEntry

/-- The loaders of a rule. -/
inductive Uses where
  /-- Several loaders, of which the last one runs first. -/
  | chain (entries : List LoaderEntry)
  | single (entry : LoaderEntry)
deriving Inhabited

/-- The loaders in the order they run. -/
def Uses.order : Uses → List LoaderEntry
  | single e => [e]
  | chain es => es.reverse

/-- A rule before its pattern is compiled. -/
structure RuleOptions where
  test : String
  uses : Uses
deriving Inhabited

inductive PluginSpec where
  | name (plugin : String)
  | configured (plugin : String) (options : Json)
deriving Inhabited

namespace PluginSpec

def plugin : PluginSpec → String
  | name s | configured s _ => s

def options : PluginSpec → Json
  | name _ => .null
  | configured _ o => o

end PluginSpec

structure OutputOptions where
  path : Option Path := none
  fileName : Option String := none
deriving Inhabited

structure BuildOptions where
  root : Option Path := none
  entry : Option String := none
  output : OutputOptions := {}
  rules : List RuleOptions := []
  plugins : List PluginSpec := []
deriving Inhabited

/-! ### Reading -/

namespace Options

/-- The fields of a record by name: the members of an object, or the items of a list in
the order of the names. A list with more items is refused unless `long`. -/
def fields? (long : Bool) (names : List String) : Json → Option (List (Option Json))
  | .object ms => some (names.map fun n => ms.lookup n)
  | .array vs =>
    if names.length < vs.length && !long then none
    else some (names.zipIdx.map fun (_, i) => vs[i]?)
  | _ => none

/-- A text that may be missing or null. -/
def text? : Option Json → Option (Option String)
  | none | some .null => some none
  | some (.string s) => some (some s)
  | some _ => none

/-- A name, or an object with a name under `key` and options. -/
def named? (key : String) : Json → Option (String × Option Json)
  | .string s => some (s, none)
  | .object ms =>
    match ms.lookup key with
    | some (.string s) => some (s, some ((ms.lookup "options").getD .null))
    | _ => none
  | _ => none

def loaderUse? (j : Json) : Option LoaderEntry :=
  match named? "loader" j with
  | some (s, some o) => some (.withOptions s o)
  | some (s, none) => some (.name s)
  | none => none

def pluginSpec? (j : Json) : Option PluginSpec :=
  match named? "name" j with
  | some (s, some o) => some (.configured s o)
  | some (s, none) => some (.name s)
  | none => none

def uses? : Json → Option Uses
  | .array vs => (vs.mapM loaderUse?).map Uses.chain
  | j => (loaderUse? j).map Uses.single

def rule? (long : Bool) (j : Json) : Option RuleOptions := do
  match ← fields? long ["test", "use"] j with
  | [some (.string test), some uses] => return ⟨test, ← uses? uses⟩
  | _ => none

def list? (f : Json → Option α) : Json → Option (List α)
  | .array vs => vs.mapM f
  | _ => none

/-- A field that takes its default when it is missing. -/
def field? (default_ : α) (f : Json → Option α) : Option Json → Option α
  | none => some default_
  | some j => f j

def output? (long : Bool) (j : Json) : Option OutputOptions := do
  match ← fields? long ["path", "fileName"] j with
  | [path, fileName] => return ⟨(← text? path).map Path.mk, ← text? fileName⟩
  | _ => none

def rules? (long : Bool) (j : Json) : Option (List RuleOptions) := do
  match ← fields? long ["rules"] j with
  | [rules] => field? [] (list? (rule? long)) rules
  | _ => none

end Options

namespace BuildOptions
open Options

/-- Reads options. -/
def ofJson? (long : Bool) (j : Json) : Option BuildOptions := do
  match ← fields? long ["root", "entry", "output", "module", "plugins"] j with
  | [root, entry, output, module_, plugins] =>
    return {
      root := (← text? root).map Path.mk
      entry := ← text? entry
      output := ← field? {} (output? long) output
      rules := ← field? [] (rules? long) module_
      plugins := ← field? [] (list? pluginSpec?) plugins }
  | _ => none

end BuildOptions

/-! ### Writing -/

namespace LoaderEntry

def toJson : LoaderEntry → Json
  | name s => .string s
  | withOptions s o => .object [("loader", .string s), ("options", o)]

end LoaderEntry

def Uses.toJson : Uses → Json
  | chain es => .array (es.map LoaderEntry.toJson)
  | single e => e.toJson

def RuleOptions.toJson (r : RuleOptions) : Json :=
  .object [("test", .string r.test), ("use", r.uses.toJson)]

def PluginSpec.toJson : PluginSpec → Json
  | name s => .string s
  | configured s o => .object [("name", .string s), ("options", o)]

def BuildOptions.toJson (o : BuildOptions) : Json :=
  let text := Json.ofOption Json.string
  .object [
    ("root", text (o.root.map Path.text)),
    ("entry", text o.entry),
    ("output", .object [("path", text (o.output.path.map Path.text)),
      ("fileName", text o.output.fileName)]),
    ("module", .object [("rules", .array (o.rules.map RuleOptions.toJson))]),
    ("plugins", .array (o.plugins.map PluginSpec.toJson))]

end Bundler
