import Bundler.Graph.Basic
import Bundler.Loader.Pipeline
import Bundler.ModuleFile

/-! The walk that finds all modules of a program. It takes the modules in depth-first
order: a module is added before its dependencies, and these in the order they are
written. A key that is there already is passed over, so the walk ends on cycles too. -/
namespace Bundler

/-- What turns files into modules. -/
structure Workspace where
  root : Path
  files : FileTree
  rules : List LoaderRule
  loaders : Loaders
  frontEnd : FrontEnd

/-- A module to visit and who asked for it. -/
structure Request where
  key : Key
  specifier : Specifier
  importer : Option Key
deriving DecidableEq, Inhabited

namespace Workspace

/-- The content of a module's file after its loaders. -/
def load (w : Workspace) (key : Key) : Except BuildError SourceFile := do
  let path ← Key.file w.files w.root key
  let file ← SourceFile.read w.files path
  let content ← LoaderRule.applyAll w.rules w.loaders key path file.content
  return { file with content }

/-- The module of a key. -/
def moduleOf (w : Workspace) (key : Key) : Except BuildError ModuleRecord := do
  let file ← w.load key
  let rewritten ← rewrite w.frontEnd w.root key file.content
  return ⟨key, file.path, rewritten.source, file.hash, rewritten.dependencies⟩

/-- The module of a request; an error says where the request comes from. -/
def visit (w : Workspace) (r : Request) : Except BuildError ModuleRecord :=
  (w.moduleOf r.key).mapError (·.withOrigin r.specifier r.importer)

/-- The request for the entry, which is a file and never a package. -/
def entryRequest (root : Path) (entry : Specifier) : Request :=
  let specifier := if Specifier.isBare entry then "./" ++ entry else entry
  ⟨Specifier.resolve root specifier root, entry, none⟩

end Workspace

def ModuleRecord.requests (m : ModuleRecord) : List Request :=
  m.dependencies.map fun d => ⟨d.key, d.specifier, some m.key⟩

/-- How far a walk came. -/
structure Walk where
  graph : ModuleGraph
  pending : List Request
  /-- The request that ended the walk. -/
  failure : Option (Request × BuildError) := none
deriving Inhabited

namespace Walk

/-- Passes over the requests for modules that are there. -/
def settle (s : Walk) : Walk :=
  { s with pending := s.pending.dropWhile fun r => s.graph.contains r.key }

/-- Visits the first request for a module that is not there. -/
def step (w : Workspace) (s : Walk) : Walk :=
  match s.settle with
  | ⟨graph, r :: rs, none⟩ =>
    match w.visit r with
    | .ok m => ⟨graph.insert m, m.requests ++ rs, none⟩
    | .error e => ⟨graph, r :: rs, some (r, e)⟩
  | s => s

def steps (w : Workspace) : Nat → Walk → Walk
  | 0, s => s
  | n + 1, s => steps w n (step w s)

/-- The walk from an entry. A file belongs to at most three keys that can be visited, so
their number bounds the steps. -/
def run (w : Workspace) (entry : Specifier) : Walk :=
  let r := Workspace.entryRequest w.root entry
  steps w (3 * w.files.entries.length + 1) ⟨{ entry := some r.key }, [r], none⟩

/-- The graph, or why there is none. Requests without end ask for ever longer paths, until
one is too long for a file; a request that is left names no file either. -/
def result (s : Walk) : Except BuildError ModuleGraph :=
  match s.failure, s.settle.pending with
  | some (_, e), _ => .error e
  | none, [] => .ok s.graph
  | none, r :: _ => .error (.resolution r.key r.specifier r.importer)

/-- The graph with every dependency present, or why there is none. -/
def verified (s : Walk) : Except BuildError ModuleGraph := do
  let g ← s.result
  g.verify
  return g

end Walk
end Bundler
