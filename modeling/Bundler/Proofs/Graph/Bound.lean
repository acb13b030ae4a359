import Bundler.Proofs.Graph.Walk
import Bundler.Proofs.Key.Completion
import Bundler.Proofs.Path.Reading
import Bundler.Proofs.Rewrite
import Mathlib.Data.Finset.Card
import Mathlib.Data.Fintype.Card
import Mathlib.Data.Fintype.Prod

/-! The length of a walk. A file is the module of at most three resolved keys: of its own key,
of that without `.js` and of that without `/index.js`. So a walk visits at most three times as
many keys as there are files, and it ends within its bound. -/
namespace Bundler

open Component

namespace Key

variable {t : FileTree} {root p q : Path} {key k a b : Key}

theorem mem_completions (h : k ∈ completions key) :
    k = key ∨ k = key ++ ".js" ∨ k = key ++ "/index.js" := by
  rw [completions] at h
  split_ifs at h <;> simp at h <;> tauto

/-- Only the key `..js` means a file of that key: `.` is a directory. -/
theorem eq_of_mem_completions_js (h : "..js" ∈ completions key) : key = "..js" := by
  rcases mem_completions h with heq | heq | heq
  · exact heq.symm
  · obtain rfl : "." = key := (String.append_left_inj ".js").mp heq
    exact absurd h (by decide +kernel)
  · have := congrArg (fun k => k.toList.reverse.take 9) heq
    simp at this

theorem eq_of_mem_completions_dotted (h : "./..js" ∈ completions key) : key = "./..js" := by
  rcases mem_completions h with heq | heq | heq
  · exact heq.symm
  · obtain rfl : "./." = key := (String.append_left_inj ".js").mp heq
    exact absurd h (by decide +kernel)
  · have := congrArg (fun k => k.toList.reverse.take 9) heq
    simp at this

/-- How a key means its file: as it is, with `.js` added, or with `/index.js` added. The key
`..js` counts as `.` with `.js` added, which sets it apart from `./..js`. -/
def kind (t : FileTree) (root : Path) (key : Key) : Fin 3 :=
  if key = "..js" ∨ completion t root key = key ++ ".js" then 1
  else if completion t root key = key then 0 else 2

theorem dotted_eq_dotted (h : dotted a = dotted b) :
    a = b ∨ (a = "..js" ∧ b = "./..js") ∨ (a = "./..js" ∧ b = "..js") := by
  rw [dotted, dotted] at h
  split_ifs at h with ha hb hb
  · exact .inl (ha.trans hb.symm)
  · exact .inr (.inl ⟨ha, h.symm⟩)
  · exact .inr (.inr ⟨h, hb⟩)
  · exact .inl h

theorem kind_cases (h : completion t root key ∈ completions key) (hne : key ≠ "..js") :
    (kind t root key = 0 ∧ completion t root key = key) ∨
    (kind t root key = 1 ∧ completion t root key = key ++ ".js") ∨
    (kind t root key = 2 ∧ completion t root key = key ++ "/index.js") := by
  rw [kind]
  split_ifs with hjs hself
  · exact .inr (.inl ⟨rfl, hjs.resolve_left hne⟩)
  · exact .inl ⟨rfl, hself⟩
  · have hindex := ((mem_completions h).resolve_left hself).resolve_left fun h => hjs (.inr h)
    exact .inr (.inr ⟨rfl, hindex⟩)

/-- The keys `..js` and `./..js` mean one file in different ways. -/
theorem kind_ne_kind (ha : completion t root a ∈ completions a)
    (hb : completion t root b ∈ completions b) (hca : completion t root a = "..js")
    (hcb : completion t root b = "./..js") : kind t root a ≠ kind t root b := by
  rw [hca] at ha
  rw [hcb] at hb
  obtain rfl := eq_of_mem_completions_js ha
  obtain rfl := eq_of_mem_completions_dotted hb
  rw [kind, kind, hcb, if_pos (.inl rfl), if_neg (by decide), if_pos rfl]
  decide

/-- The file `..js` is the file of no other key. -/
theorem eq_of_completion_eq (ha : completion t root "..js" ∈ completions "..js")
    (hb : completion t root b ∈ completions b)
    (h : completion t root "..js" = completion t root b) : "..js" = b := by
  have hjs : completion t root "..js" = "..js" := by
    simpa [show completions "..js" = ["..js"] by decide +kernel] using ha
  rw [← h, hjs] at hb
  exact (eq_of_mem_completions_js hb).symm

/-- Of each kind a file is the file of one key. -/
theorem eq_of_kind_eq (ha : completion t root a ∈ completions a)
    (hb : completion t root b ∈ completions b) (hfile : ofFile t root a = ofFile t root b)
    (hkind : kind t root a = kind t root b) : a = b := by
  rcases dotted_eq_dotted hfile with h | ⟨hca, hcb⟩ | ⟨hca, hcb⟩
  · rcases eq_or_ne a "..js" with rfl | hajs
    · exact eq_of_completion_eq ha hb h
    rcases eq_or_ne b "..js" with rfl | hbjs
    · exact (eq_of_completion_eq hb ha h.symm).symm
    rcases kind_cases ha hajs with ⟨hka, hca⟩ | ⟨hka, hca⟩ | ⟨hka, hca⟩ <;>
      rcases kind_cases hb hbjs with ⟨hkb, hcb⟩ | ⟨hkb, hcb⟩ | ⟨hkb, hcb⟩ <;>
      rw [hka, hkb] at hkind <;> first | exact absurd hkind (by decide) | rw [hca, hcb] at h
    · exact h
    · exact (String.append_left_inj _).mp h
    · exact (String.append_left_inj _).mp h
  · exact absurd hkind (kind_ne_kind ha hb hca hcb)
  · exact absurd hkind (kind_ne_kind hb ha hcb hca).symm

theorem ofLocation_exactPath (hr : root.isAbsolute = true) (k : Key) :
    Path.ofLocation (exactPath root k).location = exactPath root k := by
  rw [exactPath, Path.normalize_of_isAbsolute (Path.join_isAbsolute hr),
    Path.location_ofLocation (Path.isProper_location _)]

/-- Where a key finds its file, and in which way. -/
def place (t : FileTree) (root : Path) (key : Key) : Location × Fin 3 :=
  ((exactPath root (completion t root key)).location, kind t root key)

theorem place_injective (hr : root.isAbsolute = true) (ha : IsResolved root a)
    (hb : IsResolved root b) (hp : file t root a = .ok p) (hq : file t root b = .ok q)
    (h : place t root a = place t root b) : a = b := by
  obtain ⟨hna, haa⟩ := isAbsolute_of_isResolved hr ha
  obtain ⟨hnb, hab⟩ := isAbsolute_of_isResolved hr hb
  obtain ⟨hca, hpa⟩ := file_eq_ok hr haa hna hp
  obtain ⟨hcb, hqb⟩ := file_eq_ok hr hab hnb hq
  rw [place, place, Prod.mk.injEq] at h
  obtain ⟨hlocation, hkind⟩ := h
  have hpath := congrArg Path.ofLocation hlocation
  rw [ofLocation_exactPath hr, ofLocation_exactPath hr, ← hpa, ← hqb] at hpath
  exact eq_of_kind_eq hca hcb ((file_eq_iff hr ha hb hp hq).mp hpath) hkind

theorem place_mem (hr : root.isAbsolute = true) (hk : IsResolved root key)
    (h : file t root key = .ok p) : (place t root key).1 ∈ t.entries.map Prod.fst := by
  obtain ⟨hne, habsolute⟩ := isAbsolute_of_isResolved hr hk
  have hfile : t.isFile p = true := by
    rw [file] at h
    split at h
    · cases h
      exact List.find?_some ‹_›
    · cases h
  obtain ⟨-, hp⟩ := file_eq_ok hr habsolute hne h
  obtain ⟨b, hread⟩ := FileTree.isFile_iff.mp hfile
  rw [place, ← hp]
  exact List.mem_map_of_mem (FileTree.read_eq_ok hread)

/-- A tree has files for at most three times as many keys as it has entries. -/
theorem length_le_of_files {keys : List Key} (hr : root.isAbsolute = true) (hn : keys.Nodup)
    (hresolved : ∀ k ∈ keys, IsResolved root k) (hfile : ∀ k ∈ keys, ∃ p, file t root k = .ok p) :
    keys.length ≤ 3 * t.entries.length := by
  have hmaps : ∀ k ∈ keys.toFinset, place t root k ∈
      (t.entries.map Prod.fst).toFinset ×ˢ (Finset.univ : Finset (Fin 3)) := by
    intro k hk
    obtain ⟨p, hp⟩ := hfile k (List.mem_toFinset.mp hk)
    rw [Finset.mem_product, List.mem_toFinset]
    exact ⟨place_mem hr (hresolved k (List.mem_toFinset.mp hk)) hp, Finset.mem_univ _⟩
  have hinjective : Set.InjOn (place t root) keys.toFinset := by
    intro a ha b hb h
    rw [List.coe_toFinset] at ha hb
    obtain ⟨p, hp⟩ := hfile a ha
    obtain ⟨q, hq⟩ := hfile b hb
    exact place_injective hr (hresolved a ha) (hresolved b hb) hp hq h
  calc keys.length = keys.toFinset.card := (List.toFinset_card_of_nodup hn).symm
    _ ≤ ((t.entries.map Prod.fst).toFinset ×ˢ (Finset.univ : Finset (Fin 3))).card :=
      Finset.card_le_card_of_injOn _ hmaps hinjective
    _ = (t.entries.map Prod.fst).toFinset.card * 3 := by
      rw [Finset.card_product, Finset.card_univ, Fintype.card_fin]
    _ ≤ (t.entries.map Prod.fst).length * 3 := Nat.mul_le_mul_right _ (List.toFinset_card_le _)
    _ = 3 * t.entries.length := by rw [List.length_map, Nat.mul_comm]

end Key

namespace Walk

variable {w : Workspace} {s : Walk} {entry : Specifier}

/-! ### Finished walks -/

/-- Nothing is left to do. -/
def Finished (s : Walk) : Prop := s.failure ≠ none ∨ s.settle.pending = []

theorem settle_settle (s : Walk) : s.settle.settle = s.settle := by
  have hpending :
      (s.settle.pending.dropWhile fun r => s.graph.contains r.key) = s.settle.pending := by
    cases hp : s.settle.pending with
    | nil => rfl
    | cons r rs =>
      refine List.dropWhile_cons_of_neg ?_
      rw [ModuleGraph.contains_iff]
      exact settle_head hp
  exact congrArg (fun pending => (⟨s.graph, pending, s.failure⟩ : Walk)) hpending

theorem result_settle (s : Walk) : s.settle.result = s.result := by
  rw [result, settle_settle]
  rfl

theorem Finished.settle (h : s.Finished) : s.settle.Finished := by
  rw [Finished, settle_settle]
  exact h

theorem Finished.step_eq (h : s.Finished) : s.step w = s.settle := by
  have hs : s.settle = ⟨s.graph, s.settle.pending, s.failure⟩ := rfl
  rw [step, hs]
  cases hp : s.settle.pending with
  | nil => rfl
  | cons r rs =>
    cases hf : s.failure with
    | none => exact (h.resolve_left (by simp [hf]) ▸ hp).symm ▸ rfl
    | some f => rfl

/-- A finished walk stays as it is. -/
theorem Finished.steps_eq (h : s.Finished) (n : ℕ) :
    (steps w n s).graph = s.graph ∧ (steps w n s).result = s.result := by
  induction n generalizing s with
  | zero => exact ⟨rfl, rfl⟩
  | succ n ih =>
    rw [steps, h.step_eq]
    obtain ⟨hgraph, hresult⟩ := ih h.settle
    exact ⟨hgraph, hresult.trans (result_settle s)⟩

theorem Finished.steps (h : s.Finished) (n : ℕ) : (steps w n s).Finished := by
  induction n generalizing s with
  | zero => exact h
  | succ n ih =>
    rw [Walk.steps, h.step_eq]
    exact ih h.settle

theorem steps_add (m n : ℕ) (s : Walk) : steps w (m + n) s = steps w n (steps w m s) := by
  induction m generalizing s with
  | zero => rw [Nat.zero_add, steps]
  | succ m ih => rw [Nat.succ_add, steps, steps, ih]

/-- Each step adds a module, unless the walk is finished with it. -/
theorem steps_progress (n : ℕ) (hf : s.failure = none) :
    (steps w n s).Finished ∨ (steps w n s).graph.size = s.graph.size + n := by
  induction n generalizing s with
  | zero => exact .inr rfl
  | succ n ih =>
    rw [Walk.steps]
    rcases step_cases w hf with ⟨hp, hs⟩ | ⟨r, rs, m, hp, hm, hs⟩ | ⟨r, rs, e, hp, hv, hs⟩
    · have hfinished : s.Finished := .inr hp
      exact .inl (hfinished.step_eq (w := w) ▸ hfinished.settle.steps n)
    · have hkey : m.key = r.key := (Workspace.moduleOf_eq_ok hm).1
      have hnew : m.key ∉ s.graph.keys := hkey ▸ settle_head hp
      rw [hs, ModuleGraph.insert_of_not_mem hnew]
      refine (ih rfl).imp id fun h => h.trans ?_
      simp only [ModuleGraph.size, List.length_append, List.length_singleton]
      omega
    · exact .inl (Finished.steps (.inl (by simp [hs])) n)

/-! ### The bound -/

/-- The walk before its first step. -/
def start (w : Workspace) (entry : Specifier) : Walk :=
  let r := Workspace.entryRequest w.root entry
  ⟨{ entry := some r.key }, [r], none⟩

/-- What every stage of a walk keeps: no key is there twice, each has its module, and all come
from specifiers. -/
structure Sound (w : Workspace) (s : Walk) : Prop where
  nodup : s.graph.keys.Nodup
  moduleOf : ∀ m ∈ s.graph.modules, w.moduleOf m.key = .ok m
  keys : ∀ k ∈ s.graph.keys, Key.IsResolved w.root k
  pending : ∀ r ∈ s.pending, Key.IsResolved w.root r.key

theorem sound_start (w : Workspace) (entry : Specifier) : (start w entry).Sound w where
  nodup := List.nodup_nil
  moduleOf := by simp [start]
  keys := by simp [start, ModuleGraph.keys]
  pending := by
    intro r hr
    rw [start, List.mem_singleton] at hr
    exact ⟨w.root, _, by rw [hr]; rfl⟩

theorem Sound.settle (h : s.Sound w) : s.settle.Sound w where
  nodup := h.nodup
  moduleOf := h.moduleOf
  keys := h.keys
  pending := fun r hr => h.pending r ((List.dropWhile_suffix _).subset hr)

theorem Sound.step (h : s.Sound w) (hf : s.failure = none) : (s.step w).Sound w := by
  rcases step_cases w hf with ⟨hp, hs⟩ | ⟨r, rs, m, hp, hm, hs⟩ | ⟨r, rs, e, hp, hv, hs⟩
  · rw [hs]
    exact h.settle
  · have hpending := h.settle.pending
    rw [hp] at hpending
    have hkey : m.key = r.key := (Workspace.moduleOf_eq_ok hm).1
    have hnew : m.key ∉ s.graph.keys := hkey ▸ settle_head hp
    rw [hs, ModuleGraph.insert_of_not_mem hnew]
    refine ⟨?_, ?_, ?_, ?_⟩
    · rw [ModuleGraph.keys, List.map_append, List.map_singleton]
      exact List.nodup_append.mpr ⟨h.nodup, List.nodup_singleton _, fun a ha b hb heq => by
        rw [List.mem_singleton.mp hb] at heq
        exact hnew (heq ▸ ha)⟩
    · intro m' hm'
      rcases List.mem_append.mp hm' with hm' | hm'
      · exact h.moduleOf m' hm'
      · rw [List.mem_singleton.mp hm', hkey]
        exact hm
    · intro k hk
      rw [ModuleGraph.keys, List.map_append, List.map_singleton, List.mem_append,
        List.mem_singleton] at hk
      rcases hk with hk | rfl
      · exact h.keys k hk
      · exact hkey ▸ hpending r List.mem_cons_self
    · intro q hq
      rcases List.mem_append.mp hq with hq | hq
      · obtain ⟨d, hd, rfl⟩ := List.mem_map.mp hq
        obtain ⟨-, _, _, _, -, -, -, -, -, hrewrite⟩ := Workspace.moduleOf_eq_ok hm
        exact ⟨_, _, rewrite_dependencies hrewrite d hd⟩
      · exact hpending q (List.mem_cons_of_mem _ hq)
  · have hpending := h.settle.pending
    rw [hp] at hpending
    rw [hs]
    exact ⟨h.nodup, h.moduleOf, h.keys, hpending⟩

theorem Sound.steps (n : ℕ) (h : s.Sound w) : (steps w n s).Sound w := by
  induction n generalizing s with
  | zero => exact h
  | succ n ih =>
    rw [Walk.steps]
    cases hf : s.failure with
    | none => exact ih (h.step hf)
    | some f =>
      have hfinished : s.Finished := .inl (by simp [hf])
      exact ih (hfinished.step_eq (w := w) ▸ h.settle)

theorem Sound.file (h : s.Sound w) :
    ∀ k ∈ s.graph.keys, ∃ p, Key.file w.files w.root k = .ok p := by
  intro k hk
  obtain ⟨m, hm, rfl⟩ := List.mem_map.mp hk
  obtain ⟨-, _, _, _, hp, -⟩ := Workspace.moduleOf_eq_ok (h.moduleOf m hm)
  exact ⟨_, hp⟩

theorem Sound.size_le (h : s.Sound w) (hr : w.root.isAbsolute = true) :
    s.graph.size ≤ 3 * w.files.entries.length := by
  have hlength := Key.length_le_of_files hr h.nodup h.keys h.file
  rwa [ModuleGraph.keys, List.length_map] at hlength

/-- A walk is finished within its bound. -/
theorem run_finished (hr : w.root.isAbsolute = true) (entry : Specifier) :
    (run w entry).Finished := by
  have hprogress := steps_progress (w := w) (s := start w entry)
    (3 * w.files.entries.length + 1) rfl
  refine hprogress.resolve_right fun hsize => ?_
  have hle := ((sound_start w entry).steps (3 * w.files.entries.length + 1)).size_le hr
  have hzero : (start w entry).graph.size = 0 := rfl
  omega

/-- No longer walk finds anything else. -/
theorem steps_eq_run (hr : w.root.isAbsolute = true) (entry : Specifier) {n : ℕ}
    (hn : 3 * w.files.entries.length + 1 ≤ n) :
    (steps w n (start w entry)).graph = (run w entry).graph ∧
      (steps w n (start w entry)).result = (run w entry).result := by
  obtain ⟨k, rfl⟩ := Nat.exists_eq_add_of_le hn
  rw [steps_add]
  exact (run_finished hr entry).steps_eq k

end Walk
end Bundler
