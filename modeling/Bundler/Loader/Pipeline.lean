import Bundler.Loader.Rule
import Bundler.Registry

/-! Loaders, which transform the content of a file before it is read as a module. The
loaders of all rules that apply run one after the other, each on the result of the one
before. -/
namespace Bundler

/-- What a loader sees beside the content. -/
structure LoaderContext where
  key : Key
  resource : Path
  options : Json

/-- A transformation of content, which may fail with a reason. -/
abbrev Loader := LoaderContext → List Char → Except String (List Char)

/-- Loaders by name. -/
abbrev Loaders := Registry Loader

/-- Runs the loader of one entry. -/
def LoaderEntry.run (ls : Loaders) (key : Key) (resource : Path) (content : List Char)
    (entry : LoaderEntry) : Except BuildError (List Char) :=
  match ls.find? entry.loader with
  | none => .error (.unknownLoader entry.loader key {})
  | some loader =>
    match loader ⟨key, resource, entry.options⟩ content with
    | .ok content => .ok content
    | .error reason => .error (.loaderFailed entry.loader key {} reason)

/-- The content of a file after the loaders of one rule. -/
def LoaderRule.apply (ls : Loaders) (key : Key) (resource : Path) (content : List Char)
    (r : LoaderRule) : Except BuildError (List Char) :=
  r.uses.order.foldlM (LoaderEntry.run ls key resource) content

/-- The content of a file after all its loaders. -/
def LoaderRule.applyAll (rules : List LoaderRule) (ls : Loaders) (key : Key) (resource : Path)
    (content : List Char) : Except BuildError (List Char) :=
  (rules.filter (·.applies resource)).foldlM (LoaderRule.apply ls key resource) content

end Bundler
