import Bundler.Proofs.Graph.Walk

/-! What a walk finds: the modules that the entry reaches, in depth-first preorder, each of
them a function of its key, with every dependency among them. -/
namespace Bundler

namespace ModuleGraph

/-- The module of one key depends on the other key. -/
def Loads (g : ModuleGraph) (a b : Key) : Prop :=
  ∃ m ∈ g.modules, m.key = a ∧ ∃ d ∈ m.dependencies, d.key = b

/-- The keys that the module of a key depends on, as they are listed there. -/
def dependencyKeys (g : ModuleGraph) (key : Key) : List Key :=
  match g.get? key with
  | some m => m.dependencies.map (·.key)
  | none => []

theorem get?_of_mem {g : ModuleGraph} {m : ModuleRecord} (hn : g.keys.Nodup)
    (hm : m ∈ g.modules) : g.get? m.key = some m := by
  rw [get?, List.find?_eq_some_iff_append]
  obtain ⟨xs, ys, h⟩ := List.append_of_mem hm
  refine ⟨by simp, xs, ys, h, ?_⟩
  intro x hx
  rw [keys, h, List.map_append, List.nodup_append] at hn
  have := hn.2.2 x.key (List.mem_map_of_mem hx) m.key (by simp)
  simpa using this

theorem dependencyKeys_of_mem {g : ModuleGraph} {m : ModuleRecord} (hn : g.keys.Nodup)
    (hm : m ∈ g.modules) : g.dependencyKeys m.key = m.dependencies.map (·.key) := by
  rw [dependencyKeys, get?_of_mem hn hm]

theorem mem_dependencyKeys {g : ModuleGraph} (hn : g.keys.Nodup) {a b : Key} :
    b ∈ g.dependencyKeys a ↔ g.Loads a b := by
  constructor
  · intro h
    rw [dependencyKeys] at h
    split at h
    · rename_i m hm
      obtain ⟨d, hd, rfl⟩ := List.mem_map.mp h
      have hkey : m.key = a := by simpa using List.find?_some hm
      exact ⟨m, List.mem_of_find?_eq_some hm, hkey, d, hd, rfl⟩
    · simp at h
  · rintro ⟨m, hm, rfl, d, hd, rfl⟩
    rw [dependencyKeys_of_mem hn hm]
    exact List.mem_map_of_mem hd

theorem verify_eq_ok {g : ModuleGraph}
    (h : ∀ m ∈ g.modules, ∀ d ∈ m.dependencies, d.key ∈ g.keys) : g.verify = .ok () := by
  rw [verify]
  split
  · rename_i k d hfind
    obtain ⟨m, hm, hd⟩ := List.mem_flatMap.mp (List.mem_of_find?_eq_some hfind)
    obtain ⟨d', hd', heq⟩ := List.mem_map.mp hd
    cases heq
    have hmissing := List.find?_some hfind
    simp [contains_iff.mpr (h m hm d hd')] at hmissing
  · rfl

end ModuleGraph

namespace Walk

variable {w : Workspace} {entry : Specifier} {g : ModuleGraph}

/-- The modules of a finished walk, by the search that found them. -/
theorem run_visits (h : (run w entry).result = .ok g) :
    g.entry = some (Workspace.entryRequest w.root entry).key ∧
      (∀ m ∈ g.modules, w.moduleOf m.key = .ok m) ∧
      Visits w.loads [] [(Workspace.entryRequest w.root entry).key] g.keys := by
  obtain ⟨ms, rfl, hms, hvis⟩ := steps_visits _ rfl h
  exact ⟨rfl, by simpa using hms, by simpa [ModuleGraph.keys] using hvis⟩

theorem run_moduleOf (h : (run w entry).result = .ok g) :
    ∀ m ∈ g.modules, w.moduleOf m.key = .ok m := (run_visits h).2.1

theorem run_keys_nodup (h : (run w entry).result = .ok g) : g.keys.Nodup := by
  simpa using (run_visits h).2.2.nodup List.nodup_nil

theorem run_loads (h : (run w entry).result = .ok g) :
    ∀ k ∈ g.keys, w.loads k = g.dependencyKeys k := by
  intro k hk
  obtain ⟨m, hm, rfl⟩ := List.mem_map.mp hk
  rw [Workspace.loads_eq (run_moduleOf h m hm),
    ModuleGraph.dependencyKeys_of_mem (run_keys_nodup h) hm]

/-- The search that found the modules follows their own dependency lists. -/
theorem run_preorder (h : (run w entry).result = .ok g) :
    Visits g.dependencyKeys [] [(Workspace.entryRequest w.root entry).key] g.keys :=
  (run_visits h).2.2.congr (run_loads h)

/-- No dependency of a finished walk is missing. -/
theorem run_closed (h : (run w entry).result = .ok g) :
    ∀ m ∈ g.modules, ∀ d ∈ m.dependencies, d.key ∈ g.keys := by
  intro m hm d hd
  have := (run_preorder h).closed m.key (List.mem_map_of_mem hm) d.key (by
    rw [ModuleGraph.dependencyKeys_of_mem (run_keys_nodup h) hm]
    exact List.mem_map_of_mem hd)
  simpa using this

theorem run_verify (h : (run w entry).result = .ok g) : g.verify = .ok () :=
  ModuleGraph.verify_eq_ok (run_closed h)

/-- The check of a finished walk succeeds. -/
theorem run_verified : (run w entry).verified = .ok g ↔ (run w entry).result = .ok g := by
  rw [verified]
  cases hresult : (run w entry).result with
  | error e => simp [bind, Except.bind]
  | ok g' => simp [bind, Except.bind, run_verify hresult, pure, Except.pure]

/-- A finished walk has the modules that the entry reaches by the dependencies of the
modules themselves, each once, in depth-first preorder of these dependencies. What a module
holds is made from the file of its key, whatever asked for it and whatever the entry is.
No dependency is missing. -/
theorem run_discovers (h : (run w entry).result = .ok g) :
    (g.entry = some (Workspace.entryRequest w.root entry).key ∧ g.keys.Nodup ∧
      (∀ k, k ∈ g.keys ↔
        Relation.ReflTransGen g.Loads (Workspace.entryRequest w.root entry).key k) ∧
      Visits g.dependencyKeys [] [(Workspace.entryRequest w.root entry).key] g.keys) ∧
    ((∀ m ∈ g.modules, ∃ bytes content loaded, Key.file w.files w.root m.key = .ok m.path ∧
        w.files.read m.path = .ok bytes ∧ m.hash = Digest.contentHash bytes ∧
        Text.Utf8.decode bytes = .ok content ∧
        LoaderRule.applyAll w.rules w.loaders m.key m.path content = .ok loaded ∧
        rewrite w.frontEnd w.root m.key loaded = .ok ⟨m.source, m.dependencies⟩) ∧
      ∀ entry' g', (run w entry').result = .ok g' →
        ∀ m ∈ g.modules, ∀ m' ∈ g'.modules, m.key = m'.key → m = m') ∧
    g.verify = .ok () := by
  refine ⟨⟨(run_visits h).1, run_keys_nodup h, ?_, run_preorder h⟩, ⟨?_, ?_⟩, run_verify h⟩
  · intro k
    rw [(run_preorder h).mem_iff_reachable]
    have : (fun a b => b ∈ g.dependencyKeys a) = g.Loads := by
      funext a b
      exact propext (ModuleGraph.mem_dependencyKeys (run_keys_nodup h))
    rw [this]
  · intro m hm
    exact (Workspace.moduleOf_eq_ok (run_moduleOf h m hm)).2
  · intro entry' g' h' m hm m' hm' hkey
    have := run_moduleOf h m hm
    rw [hkey, run_moduleOf h' m' hm'] at this
    exact (Except.ok.inj this).symm

/-- Two modules that load each other and a third that loads itself; the entry loads it twice. -/
def cyclic : Workspace where
  root := ⟨"/p"⟩
  files := ⟨[(["p"], .directory),
    (["p", "main.js"], .file "require('./b');require('./a');require('./b')".toUTF8),
    (["p", "a.js"], .file "require('./main')".toUTF8),
    (["p", "b.js"], .file "require('./b');require('./a')".toUTF8)]⟩
  rules := []
  loaders := {}
  frontEnd := .javaScript

def cyclicGraph : ModuleGraph := (run cyclic "main").graph

theorem run_discovers_cyclic :
    (run cyclic "main").result = .ok cyclicGraph ∧
      cyclicGraph.keys = ["./main.js", "./b.js", "./a.js"] ∧
      Visits cyclicGraph.dependencyKeys [] ["./main.js"] cyclicGraph.keys ∧
      cyclicGraph.verify = .ok () := by
  have h : (run cyclic "main").result = .ok cyclicGraph :=
    result_eq_ok.mpr ⟨by decide +kernel, by decide +kernel, rfl⟩
  have hd := run_discovers h
  rw [show (Workspace.entryRequest cyclic.root "main").key = "./main.js" by decide +kernel] at hd
  exact ⟨h, by decide +kernel, hd.1.2.2.2, hd.2.2⟩

end Walk
end Bundler
