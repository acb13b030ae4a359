import Bundler.Graph.Walk
import Bundler.Proofs.Graph.Preorder

/-! The walk as a depth-first search. A step passes over what is there and adds the module
of one request; a finished walk has added its modules in depth-first preorder, each of
them the module of its key. -/
namespace Bundler

/-! ### The module of a key -/

namespace Workspace

variable {w : Workspace} {key : Key} {m : ModuleRecord}

/-- What goes into a module: the file of its key, the bytes and the text of that file, the
text after the loaders, and what rewriting makes of it. -/
theorem moduleOf_eq_ok (h : w.moduleOf key = .ok m) :
    m.key = key ∧ ∃ bytes content loaded, Key.file w.files w.root key = .ok m.path ∧
      w.files.read m.path = .ok bytes ∧ m.hash = Digest.contentHash bytes ∧
      Text.Utf8.decode bytes = .ok content ∧
      LoaderRule.applyAll w.rules w.loaders key m.path content = .ok loaded ∧
      rewrite w.frontEnd w.root key loaded = .ok ⟨m.source, m.dependencies⟩ := by
  simp only [moduleOf, load, SourceFile.read, bind, Except.bind, pure, Except.pure] at h
  split at h
  · cases h
  rename_i file hl
  split at hl
  · cases hl
  rename_i path hp
  split at hl
  · cases hl
  rename_i read hr
  split at hr
  · cases hr
  rename_i bytes hb
  split at hr
  · cases hr
  rename_i content hc
  cases hr
  split at hl
  · cases hl
  rename_i loaded ha
  cases hl
  split at h
  · cases h
  rename_i rewritten hw
  cases h
  exact ⟨rfl, bytes, content, loaded, hp, hb, rfl, hc, ha, hw⟩

theorem moduleOf_of_file {p : Path} {bytes : ByteArray} {content loaded : List Char} {r : Rewritten}
    (hfile : Key.file w.files w.root key = .ok p) (hread : w.files.read p = .ok bytes)
    (hdecode : Text.Utf8.decode bytes = .ok content)
    (hload : LoaderRule.applyAll w.rules w.loaders key p content = .ok loaded)
    (hrewrite : rewrite w.frontEnd w.root key loaded = .ok r) :
    w.moduleOf key = .ok ⟨key, p, r.source, Digest.contentHash bytes, r.dependencies⟩ := by
  simp [moduleOf, load, SourceFile.read, bind, Except.bind, pure, Except.pure, hfile, hread, hdecode,
    hload, hrewrite]

/-- The keys that the module of a key loads. -/
def loads (w : Workspace) (key : Key) : List Key :=
  match w.moduleOf key with
  | .ok m => m.dependencies.map (·.key)
  | .error _ => []

theorem loads_eq (h : w.moduleOf key = .ok m) : w.loads key = m.dependencies.map (·.key) := by
  rw [loads, h]

theorem visit_eq_ok {r : Request} : w.visit r = .ok m ↔ w.moduleOf r.key = .ok m := by
  rw [visit]
  cases w.moduleOf r.key <;> simp [Except.mapError]

end Workspace

theorem ModuleRecord.requests_keys (m : ModuleRecord) :
    m.requests.map (·.key) = m.dependencies.map (·.key) := by
  simp [requests]

namespace ModuleGraph

theorem contains_iff {g : ModuleGraph} {key : Key} : g.contains key = true ↔ key ∈ g.keys := by
  simp [contains]

theorem insert_of_not_mem {g : ModuleGraph} {m : ModuleRecord} (h : m.key ∉ g.keys) :
    g.insert m = { g with modules := g.modules ++ [m] } := by
  have : g.contains m.key = false := by rw [← Bool.not_eq_true, contains_iff]; exact h
  simp [insert, this]

end ModuleGraph

/-! ### One step -/

namespace Walk

variable {w : Workspace} {s : Walk}

theorem settle_head {r : Request} {rs : List Request} (h : s.settle.pending = r :: rs) :
    r.key ∉ s.graph.keys := by
  simp only [settle] at h
  have hne : s.pending.dropWhile (fun r => s.graph.contains r.key) ≠ [] := by simp [h]
  have hd := List.head_dropWhile_not _ hne
  simp only [h, List.head_cons] at hd
  rw [← ModuleGraph.contains_iff, hd]
  exact Bool.false_ne_true

/-- Passing over requests changes nothing for a search. -/
theorem visits_of_settle {deps : Key → List Key} {found : List Key}
    (h : Visits deps s.graph.keys (s.settle.pending.map (·.key)) found) :
    Visits deps s.graph.keys (s.pending.map (·.key)) found := by
  obtain ⟨graph, pending, failure⟩ := s
  simp only [settle] at h ⊢
  induction pending with
  | nil => exact h
  | cons r rs ih =>
    by_cases hr : graph.contains r.key = true
    · rw [List.dropWhile_cons_of_pos (by exact hr)] at h
      exact .pass (ModuleGraph.contains_iff.mp hr) (ih h)
    · rwa [List.dropWhile_cons_of_neg (by exact hr)] at h

/-- What a step can do: find nothing left to visit, add the module of the first request
that is not there, or fail on that request. -/
theorem step_cases (w : Workspace) (hf : s.failure = none) :
    (s.settle.pending = [] ∧ s.step w = s.settle) ∨
    (∃ r rs m, s.settle.pending = r :: rs ∧ w.moduleOf r.key = .ok m ∧
      s.step w = ⟨s.graph.insert m, m.requests ++ rs, none⟩) ∨
    (∃ r rs e, s.settle.pending = r :: rs ∧ w.visit r = .error e ∧
      s.step w = ⟨s.graph, r :: rs, some (r, e)⟩) := by
  have hs : s.settle = ⟨s.graph, s.settle.pending, none⟩ := by rw [← hf]; rfl
  rcases hp : s.settle.pending with _ | ⟨r, rs⟩
  · left
    refine ⟨rfl, ?_⟩
    rw [step, hs, hp]
  · right
    rcases hv : w.visit r with e | m
    · right
      refine ⟨r, rs, e, rfl, hv, ?_⟩
      rw [step, hs, hp]
      simp only [hv]
    · left
      refine ⟨r, rs, m, rfl, Workspace.visit_eq_ok.mp hv, ?_⟩
      rw [step, hs, hp]
      simp only [hv]

theorem step_of_moduleOf {r : Request} {rs : List Request} {m : ModuleRecord}
    (hf : s.failure = none) (hp : s.settle.pending = r :: rs) (hm : w.moduleOf r.key = .ok m) :
    s.step w = ⟨s.graph.insert m, m.requests ++ rs, none⟩ := by
  rcases step_cases w hf with ⟨hp', -⟩ | ⟨r', rs', m', hp', hm', hs⟩ | ⟨r', rs', e, hp', hv, -⟩
  · rw [hp] at hp'
    cases hp'
  · rw [hp] at hp'
    cases hp'
    rw [hm] at hm'
    cases hm'
    exact hs
  · rw [hp] at hp'
    cases hp'
    rw [Workspace.visit_eq_ok.mpr hm] at hv
    cases hv

theorem step_failed {f : Request × BuildError} (hf : s.failure = some f) :
    (s.step w).failure = some f := by
  have hs : s.settle = ⟨s.graph, s.settle.pending, some f⟩ := by rw [← hf]; rfl
  rw [step, hs]
  cases s.settle.pending <;> rfl

theorem steps_failed {f : Request × BuildError} (n : ℕ) (hf : s.failure = some f) :
    (steps w n s).failure = some f := by
  induction n generalizing s with
  | zero => exact hf
  | succ n ih => exact ih (step_failed hf)

/-! ### A whole run -/

/-- A walk has a graph when nothing failed and nothing is left to visit. -/
theorem result_eq_ok {g : ModuleGraph} :
    s.result = .ok g ↔ s.failure = none ∧ s.settle.pending = [] ∧ s.graph = g := by
  rw [result]
  split <;> simp_all

/-- A run that has a graph adds to the one it starts with the modules that a depth-first
search for its requests meets. -/
theorem steps_visits (n : ℕ) {g : ModuleGraph} (hf : s.failure = none)
    (h : (steps w n s).result = .ok g) :
    ∃ ms, g = { s.graph with modules := s.graph.modules ++ ms } ∧
      (∀ m ∈ ms, w.moduleOf m.key = .ok m) ∧
      Visits w.loads s.graph.keys (s.pending.map (·.key)) (ms.map (·.key)) := by
  induction n generalizing s with
  | zero =>
    obtain ⟨-, hp, rfl⟩ := result_eq_ok.mp h
    refine ⟨[], by simp [steps], by simp, visits_of_settle ?_⟩
    simp only [steps] at hp
    rw [hp]
    exact .nil _
  | succ n ih =>
    rw [steps] at h
    rcases step_cases w hf with ⟨hp, hs⟩ | ⟨r, rs, m, hp, hm, hs⟩ | ⟨r, rs, e, hp, hv, hs⟩
    · rw [hs] at h
      obtain ⟨ms, hg, hms, hvis⟩ := ih (s := s.settle) hf h
      exact ⟨ms, hg, hms, visits_of_settle hvis⟩
    · have hkey : m.key = r.key := (Workspace.moduleOf_eq_ok hm).1
      have hnew : r.key ∉ s.graph.keys := settle_head hp
      have hins := ModuleGraph.insert_of_not_mem (g := s.graph) (m := m) (by rwa [hkey])
      rw [hs, hins] at h
      obtain ⟨ms, rfl, hms, hvis⟩ := ih rfl h
      refine ⟨m :: ms, by simp, ?_, visits_of_settle ?_⟩
      · intro m' hm'
        rcases List.mem_cons.mp hm' with rfl | hm'
        · rwa [hkey]
        · exact hms m' hm'
      · rw [hp, List.map_cons, List.map_cons, hkey]
        simp only [ModuleGraph.keys, List.map_append, List.map_cons, List.map_nil, hkey,
          ModuleRecord.requests_keys, ← Workspace.loads_eq hm] at hvis
        obtain ⟨below, after, hsplit, hb, ha⟩ := hvis.split
        rw [hsplit]
        exact .enter hnew hb (by simpa [ModuleGraph.keys] using ha)
    · have := steps_failed (w := w) n (s := s.step w) (f := (r, e)) (by rw [hs])
      rw [result_eq_ok] at h
      rw [this] at h
      exact absurd h.1 (by simp)

end Walk
end Bundler
