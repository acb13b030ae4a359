import Bundler.Compiler
import Bundler.Graph.Cycles

/-! What a build and a module graph look like to their reader. Paths are shown from the
project root where they lie below it. -/
namespace Bundler

/-- A path seen from the root, or as it is when it lies elsewhere. -/
def Path.shownFrom (p root : Path) : String := ((p.below? root).getD p).text

/-- A finished build. -/
structure BuildReport where
  entry : String
  artifact : String
  modules : Nat
  dependencies : Nat
  /-- The size of the script in bytes. -/
  size : Nat
  cycles : List (List Key)
  milliseconds : Nat
deriving DecidableEq, Inhabited

def BuildReport.ofOutput (o : BuildOutput) (root : Path) (milliseconds : Nat) : BuildReport where
  entry := o.graph.entry.getD ""
  artifact := o.artifactPath.shownFrom root
  modules := o.graph.size
  dependencies := o.graph.dependencyCount
  size := o.size
  cycles := o.graph.cycles
  milliseconds := milliseconds

/-- A module in the listing of a graph. -/
structure ModuleEntry where
  key : Key
  path : String
  hash : String
  dependencies : List Key
deriving DecidableEq, Inhabited

structure GraphReport where
  entry : Option Key
  modules : List ModuleEntry
  cycles : List (List Key)
deriving DecidableEq, Inhabited

def ModuleEntry.ofRecord (root : Path) (m : ModuleRecord) : ModuleEntry :=
  ⟨m.key, m.path.shownFrom root, m.hash, m.dependencies.map (·.key)⟩

def GraphReport.ofGraph (g : ModuleGraph) (root : Path) : GraphReport :=
  ⟨g.entry, g.modules.map (.ofRecord root), g.cycles⟩

/-! ### As JSON -/

namespace Json

def strings (ss : List String) : Json := .array (ss.map .string)

def cycles (cs : List (List Key)) : Json := .array (cs.map strings)

end Json

def BuildReport.toJson (r : BuildReport) : Json :=
  .object [("entry", .string r.entry), ("artifact", .string r.artifact),
    ("modules", .ofNat r.modules), ("dependencies", .ofNat r.dependencies),
    ("size", .ofNat r.size), ("cycles", .cycles r.cycles),
    ("duration_ms", .ofNat r.milliseconds)]

def ModuleEntry.toJson (m : ModuleEntry) : Json :=
  .object [("key", .string m.key), ("path", .string m.path), ("hash", .string m.hash),
    ("dependencies", .strings m.dependencies)]

def GraphReport.toJson (r : GraphReport) : Json :=
  .object [("entry", .ofOption .string r.entry),
    ("modules", .array (r.modules.map ModuleEntry.toJson)), ("cycles", .cycles r.cycles)]

end Bundler
