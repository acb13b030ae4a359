import Bundler.Graph.Basic

/-! Modules that load each other. Two modules share a cycle when each reaches the other
by a chain of dependencies; a module that loads itself is a cycle of one. `cycles` finds them by
a search from each module, and `cyclesBy` with any function for the components of a graph. -/
namespace Bundler.ModuleGraph

/-- What a module loads, as far as it is in the graph. -/
def targets (g : ModuleGraph) (key : Key) : List Key :=
  match g.get? key with
  | some m => (m.dependencies.map (·.key)).filter g.contains
  | none => []

/-- Adds what `pending` reaches to what was found. Every round settles a pending key, and
each key puts its targets there once. -/
def spread (g : ModuleGraph) : Nat → List Key → List Key → List Key
  | 0, found, _ => found
  | _, found, [] => found
  | n + 1, found, k :: ks =>
    if found.contains k then spread g n found ks
    else spread g n (k :: found) (g.targets k ++ ks)

/-- The keys at the end of a chain of one or more dependencies. -/
def reachable (g : ModuleGraph) (key : Key) : List Key :=
  spread g (2 * g.dependencyCount + 1) [] (g.targets key)

/-- The cycles, each in the order of the graph, by their first module. -/
def cycles (g : ModuleGraph) : List (List Key) :=
  let table := g.keys.map fun k => (k, g.reachable k)
  let reaches (a b : Key) : Bool := ((table.lookup a).getD []).contains b
  g.keys.filterMap fun k =>
    let group := g.keys.filter fun j => reaches k j && reaches j k
    if group.head? == some k then some group else none

/-- The pairs of places that a dependency joins, each once. Modules that are not there have no
place. -/
def placeEdges (g : ModuleGraph) : List (Nat × Nat) :=
  (g.edges.filterMap fun (key, d) => do
    return (← g.keys.idxOf? key, ← g.keys.idxOf? d.key)).eraseDups

/-- The modules that stand at these places. -/
def keysAt (g : ModuleGraph) (places : List Nat) : List Key := places.filterMap (g.keys[·]?)

/-- A component that has two places, or an edge from its one place to itself. -/
def isCyclic (edges : List (Nat × Nat)) (places : List Nat) : Bool :=
  1 < places.length || places.head?.any fun i => edges.contains (i, i)

/-- The cycles by way of the components of the graph on the places of the modules, which
`components` finds from their number and their edges. The places of each are sorted, and then
the components by their first places. -/
def cyclesBy (components : Nat → List (Nat × Nat) → List (List Nat)) (g : ModuleGraph) :
    List (List Key) :=
  let cyclic := (components g.size g.placeEdges).filter (isCyclic g.placeEdges)
  let sorted := (cyclic.map (·.mergeSort)).mergeSort fun c d => c.headD 0 ≤ d.headD 0
  sorted.map g.keysAt

end Bundler.ModuleGraph
