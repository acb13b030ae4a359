import Bundler.Proofs.Graph.Bound
import Mathlib.Data.Set.Card

/-! The end of a walk. A key can only be visited when it resolves from a specifier and means a
file, and a tree has finitely many such keys below a root. Each visit takes one of them away,
whatever the loaders make of the sources, so every walk ends with a graph or an error. -/
namespace Bundler

namespace Key

variable {t : FileTree} {root : Path}

/-- The keys that a specifier resolves to and that mean a file. They depend on the tree and the
root alone. -/
def existing (t : FileTree) (root : Path) : Set Key :=
  {key | IsResolved root key ∧ ∃ p, file t root key = .ok p}

/-- For every entry of the tree there are at most three of them. -/
theorem length_le_of_existing {keys : List Key} (hr : root.isAbsolute = true) (hn : keys.Nodup)
    (h : ∀ k ∈ keys, k ∈ existing t root) : keys.length ≤ 3 * t.entries.length :=
  length_le_of_files hr hn (fun k hk => (h k hk).1) fun k hk => (h k hk).2

theorem finite_existing (hr : root.isAbsolute = true) (t : FileTree) : (existing t root).Finite := by
  by_contra hinfinite
  obtain ⟨keys, hsub, hcard⟩ :=
    Set.Infinite.exists_subset_card_eq hinfinite (3 * t.entries.length + 1)
  have hle := length_le_of_existing (t := t) hr keys.nodup_toList fun k hk =>
    hsub (Finset.mem_toList.mp hk)
  rw [Finset.length_toList, hcard] at hle
  omega

theorem ncard_existing_le (hr : root.isAbsolute = true) (t : FileTree) :
    (existing t root).ncard ≤ 3 * t.entries.length := by
  have hfinite := finite_existing hr t
  rw [Set.ncard_eq_toFinset_card _ hfinite, ← Finset.length_toList]
  refine length_le_of_existing hr (Finset.nodup_toList _) fun k hk => ?_
  exact hfinite.mem_toFinset.mp (Finset.mem_toList.mp hk)

end Key

namespace Walk

variable {w : Workspace} {s : Walk}

/-! ### What is left to visit -/

theorem Sound.existing (h : s.Sound w) : ∀ k ∈ s.graph.keys, k ∈ Key.existing w.files w.root :=
  fun k hk => ⟨h.keys k hk, h.file k hk⟩

/-- The keys that mean a file and are not in the graph. -/
noncomputable def remaining (w : Workspace) (s : Walk) : ℕ :=
  (Key.existing w.files w.root \ {k | k ∈ s.graph.keys}).ncard

/-- A step that does not end the walk takes a key away. -/
theorem Sound.step_remaining (hr : w.root.isAbsolute = true) (h : s.Sound w) :
    s.Finished ∨ (s.step w).Finished ∨ remaining w (s.step w) < remaining w s := by
  cases hf : s.failure with
  | some f => exact .inl (.inl (by simp [hf]))
  | none =>
    have hnext := (h.step hf).existing
    rcases step_cases w hf with ⟨hp, -⟩ | ⟨r, rs, m, hp, hm, hs⟩ | ⟨r, rs, e, -, -, hs⟩
    · exact .inl (.inr hp)
    · right; right
      have hkey : m.key = r.key := (Workspace.moduleOf_eq_ok hm).1
      have hnew : m.key ∉ s.graph.keys := hkey ▸ settle_head hp
      have hkeys : (s.step w).graph.keys = s.graph.keys ++ [m.key] := by
        rw [hs, ModuleGraph.insert_of_not_mem hnew]
        simp [ModuleGraph.keys]
      have hmem : m.key ∈ Key.existing w.files w.root := hnext _ (by simp [hkeys])
      refine Set.ncard_lt_ncard ⟨?_, fun hsub => ?_⟩ ((Key.finite_existing hr _).subset Set.sdiff_subset)
      · exact Set.sdiff_subset_sdiff_right fun k hk => hkeys ▸ List.mem_append_left _ hk
      · exact (hsub ⟨hmem, hnew⟩).2 (by simp [hkeys])
    · exact .inr (.inl (.inl (by simp [hs])))

/-- A walk ends when no key is left, at the latest. -/
theorem Sound.exists_finished (hr : w.root.isAbsolute = true) (h : s.Sound w) :
    ∃ n ≤ remaining w s + 1, (Walk.steps w n s).Finished := by
  induction hk : remaining w s using Nat.strong_induction_on generalizing s with
  | _ k ih =>
    rcases h.step_remaining hr with hfinished | hfinished | hlt
    · exact ⟨0, Nat.zero_le _, hfinished⟩
    · exact ⟨1, Nat.le_add_left .., hfinished⟩
    · have hnext : (s.step w).Sound w := h.steps 1
      obtain ⟨n, hn, hfinished⟩ := ih _ (hk ▸ hlt) hnext rfl
      exact ⟨n + 1, by omega, hfinished⟩

/-! ### How a walk ends -/

/-- The failure of a walk is that of a visit. -/
def FailsByVisit (w : Workspace) (s : Walk) : Prop :=
  ∀ r e, s.failure = some (r, e) → w.visit r = .error e

theorem FailsByVisit.step (h : s.FailsByVisit w) : (s.step w).FailsByVisit w := by
  intro r e hfail
  cases hf : s.failure with
  | some f =>
    rw [step_failed hf] at hfail
    exact h r e (hf.trans hfail)
  | none =>
    rcases step_cases w hf with ⟨-, hs⟩ | ⟨_, _, _, -, -, hs⟩ | ⟨r', rs, e', -, hv, hs⟩
    · rw [hs] at hfail
      exact h r e hfail
    · rw [hs] at hfail
      cases hfail
    · rw [hs] at hfail
      cases hfail
      exact hv

theorem FailsByVisit.steps (h : s.FailsByVisit w) (n : ℕ) : (Walk.steps w n s).FailsByVisit w := by
  induction n generalizing s with
  | zero => exact h
  | succ n ih => exact ih h.step

/-- A walk that is finished has its graph or the error of a visit. -/
theorem Finished.result_cases (h : s.Finished) (hv : s.FailsByVisit w) :
    s.result = .ok s.graph ∨
      ∃ r e, s.failure = some (r, e) ∧ w.visit r = .error e ∧ s.result = .error e := by
  cases hf : s.failure with
  | none => exact .inl (result_eq_ok.mpr ⟨hf, h.resolve_left (by simp [hf]), rfl⟩)
  | some f =>
    obtain ⟨r, e⟩ := f
    exact .inr ⟨r, e, rfl, hv r e hf, by simp [result, hf]⟩

/-- The stages of a walk add keys of a finite set alone, which the tree and the root determine.
One stage more than there are such keys, the walk has ended: it has a graph or the error of a
visit, and stays so. -/
theorem run_terminates (hr : w.root.isAbsolute = true) (entry : Specifier) :
    ((Key.existing w.files w.root).Finite ∧
      (Key.existing w.files w.root).ncard ≤ 3 * w.files.entries.length ∧
      ∀ n, ∀ k ∈ (steps w n (start w entry)).graph.keys, k ∈ Key.existing w.files w.root) ∧
    (∃ n ≤ (Key.existing w.files w.root).ncard + 1, ∀ m ≥ n,
      (steps w m (start w entry)).Finished ∧
        (steps w m (start w entry)).result = (run w entry).result) ∧
    ((∃ g, (run w entry).result = .ok g) ∨
      ∃ r e, (run w entry).failure = some (r, e) ∧ w.visit r = .error e ∧
        (run w entry).result = .error e) := by
  have hsound := sound_start w entry
  have hle := Key.ncard_existing_le hr w.files
  obtain ⟨n, hn, hfinished⟩ := hsound.exists_finished hr
  have hremaining : remaining w (start w entry) = (Key.existing w.files w.root).ncard := by
    simp [remaining, start, ModuleGraph.keys]
  rw [hremaining] at hn
  have hstages (m : ℕ) (hm : m ≥ n) : (steps w m (start w entry)).Finished ∧
      (steps w m (start w entry)).result = (steps w n (start w entry)).result := by
    obtain ⟨k, rfl⟩ := Nat.exists_eq_add_of_le hm
    rw [steps_add]
    exact ⟨hfinished.steps k, (hfinished.steps_eq k).2⟩
  have hrun : (run w entry).result = (steps w n (start w entry)).result :=
    (hstages (3 * w.files.entries.length + 1) (by omega)).2
  refine ⟨⟨Key.finite_existing hr w.files, hle, fun m => (hsound.steps m).existing⟩,
    ⟨n, hn, fun m hm => hrun ▸ hstages m hm⟩, ?_⟩
  have hvisit : (start w entry).FailsByVisit w := by
    intro r e hfail
    cases hfail
  rcases (run_finished hr entry).result_cases (hvisit.steps _) with hgraph | herror
  · exact .inl ⟨_, hgraph⟩
  · exact .inr herror

/-- A loader that makes every module load one with a longer name, as often as it is asked. -/
def lengthening : Workspace where
  root := ⟨"/p"⟩
  files := ⟨[(["p"], .directory), (["p", "a.js"], .file "".toUTF8),
    (["p", "aa.js"], .file "".toUTF8)]⟩
  rules := [⟨"", .empty, .single (.name "lengthen")⟩]
  loaders := ⟨[("lengthen", fun ctx content =>
    .ok (content ++ "require('./a".toList ++ ctx.key.toList.drop 2 ++ "')".toList))]⟩
  frontEnd := .javaScript

/-- It ends at the first name that no file has. -/
theorem run_terminates_lengthening :
    lengthening.root.isAbsolute = true ∧ ∃ n, ∀ m ≥ n,
      (steps lengthening m (start lengthening "a.js")).Finished ∧
      (steps lengthening m (start lengthening "a.js")).result =
        .error (.resolution "./aaa.js" "./aaa.js" (some "./aa.js")) := by
  have hr : lengthening.root.isAbsolute = true := by decide
  obtain ⟨-, ⟨n, -, hstages⟩, -⟩ := run_terminates hr "a.js"
  have hrun : (run lengthening "a.js").result =
      .error (.resolution "./aaa.js" "./aaa.js" (some "./aa.js")) := by decide +kernel
  exact ⟨hr, n, fun m hm => hrun ▸ hstages m hm⟩

end Walk
end Bundler
