import Bundler.Error
import Bundler.Rewrite

/-! The module graph: modules by key, in the order they were found. -/
namespace Bundler

/-- A module after loading and rewriting. -/
structure ModuleRecord where
  key : Key
  /-- The file it was read from. -/
  path : Path
  source : List Char
  /-- The digest of the file. -/
  hash : String
  dependencies : List Dependency
deriving DecidableEq, Inhabited

structure ModuleGraph where
  entry : Option Key := none
  modules : List ModuleRecord := []
deriving DecidableEq, Inhabited

namespace ModuleGraph

def keys (g : ModuleGraph) : List Key := g.modules.map (·.key)

def get? (g : ModuleGraph) (key : Key) : Option ModuleRecord :=
  g.modules.find? (·.key == key)

def contains (g : ModuleGraph) (key : Key) : Bool := g.keys.contains key

/-- Adds a module at the end, unless its key is there already. -/
def insert (g : ModuleGraph) (m : ModuleRecord) : ModuleGraph :=
  if g.contains m.key then g else { g with modules := g.modules ++ [m] }

def size (g : ModuleGraph) : Nat := g.modules.length

/-- The digest of each module. -/
def assets (g : ModuleGraph) : List (Key × String) := g.modules.map fun m => (m.key, m.hash)

/-- All dependencies counted, repeated ones too. -/
def dependencyCount (g : ModuleGraph) : Nat := g.modules.foldr (·.dependencies.length + ·) 0

/-- The dependencies with the module that has them. -/
def edges (g : ModuleGraph) : List (Key × Dependency) :=
  g.modules.flatMap fun m => m.dependencies.map fun d => (m.key, d)

/-- Checks that every dependency is in the graph. -/
def verify (g : ModuleGraph) : Except BuildError Unit :=
  match g.edges.find? fun (_, d) => !g.contains d.key with
  | some (importer, d) => .error (.unresolvedModule d.key d.specifier importer)
  | none => .ok ()

end ModuleGraph
end Bundler
