import Bundler.Graph.Cycles
import Bundler.Proofs.Graph.Discovery
import Mathlib.Algebra.Order.BigOperators.Group.List
import Mathlib.Algebra.Order.Group.Nat
import Mathlib.Data.Option.Basic

/-! The cycles of a graph are its components: the classes of "each reaches the other by one
or more dependencies" among the modules that are there. `spread` is the depth-first search
of `Visits` with enough rounds for every dependency, so `reachable` is the transitive
closure, and `cycles` picks each class of a symmetric and transitive relation once, at its
first module. -/
namespace Bundler

/-! ### Classes of a relation, by their first members -/

section Classes

variable {α : Type*} {r : α → α → Bool} {l : List α}

/-- Related members have the same class. -/
theorem filter_eq_of_related (hs : ∀ a b, r a b = true → r b a = true)
    (ht : ∀ a b c, r a b = true → r b c = true → r a c = true) {a b : α}
    (h : r a b = true) : l.filter (r a) = l.filter (r b) := by
  apply List.filter_congr
  intro c _
  rw [Bool.eq_iff_iff]
  exact ⟨fun hc => ht b a c (hs a b h) hc, fun hc => ht a b c h hc⟩

variable [DecidableEq α]

/-- What the members that are the first of their class are related to. -/
def classes (r : α → α → Bool) (l : List α) : List (List α) :=
  (l.filter fun k => l.find? (r k) == some k).map fun k => l.filter (r k)

theorem classes_eq_filterMap (r : α → α → Bool) (l : List α) : classes r l =
    l.filterMap fun k => if l.find? (r k) == some k then some (l.filter (r k)) else none := by
  rw [classes, ← List.filterMap_eq_map, List.filterMap_filter]
  rfl

/-- The classes are what the members that are related to themselves are related to. -/
theorem mem_classes (hs : ∀ a b, r a b = true → r b a = true)
    (ht : ∀ a b c, r a b = true → r b c = true → r a c = true) {c : List α} :
    c ∈ classes r l ↔ ∃ k ∈ l, r k k = true ∧ c = l.filter (r k) := by
  simp only [classes, List.mem_map, List.mem_filter, beq_iff_eq]
  constructor
  · rintro ⟨k, ⟨hk, hfirst⟩, rfl⟩
    exact ⟨k, hk, List.find?_some hfirst, rfl⟩
  · rintro ⟨k, hk, hself, rfl⟩
    -- the class stands at the member that is found first
    obtain ⟨first, hfirst⟩ := Option.isSome_iff_exists.mp (List.find?_isSome.mpr ⟨k, hk, hself⟩)
    have hrel := List.find?_some hfirst
    have hsame := filter_eq_of_related (l := l) hs ht hrel
    refine ⟨first, ⟨List.mem_of_find?_eq_some hfirst, ?_⟩, hsame.symm⟩
    rw [← List.head?_filter, ← hsame, List.head?_filter, hfirst]

/-- The classes stand in the order of their first members. -/
theorem head_classes_sublist : ((classes r l).map List.head?).Sublist (l.map some) := by
  have : (classes r l).map List.head? =
      (l.filter fun k => l.find? (r k) == some k).map some := by
    rw [classes, List.map_map]
    apply List.map_congr_left
    intro k hk
    rw [Function.comp_apply, List.head?_filter]
    simpa using (List.mem_filter.mp hk).2
  rw [this]
  exact List.filter_sublist.map some

/-- No member stands in two places of the classes. -/
theorem nodup_flatten_classes (hs : ∀ a b, r a b = true → r b a = true)
    (ht : ∀ a b c, r a b = true → r b c = true → r a c = true) (hl : l.Nodup) :
    (classes r l).flatten.Nodup := by
  have hheads : ((classes r l).map List.head?).Nodup :=
    head_classes_sublist.nodup (hl.map (Option.some_injective α))
  rw [List.nodup_flatten]
  constructor
  · intro c hc
    obtain ⟨k, -, -, rfl⟩ := (mem_classes hs ht).mp hc
    exact hl.filter _
  · apply (List.pairwise_map.mp hheads).imp_of_mem
    intro c c' hc hc' hne x hx hx'
    obtain ⟨k, -, -, rfl⟩ := (mem_classes hs ht).mp hc
    obtain ⟨k', -, -, rfl⟩ := (mem_classes hs ht).mp hc'
    apply hne
    rw [filter_eq_of_related hs ht (List.mem_filter.mp hx).2,
      filter_eq_of_related hs ht (List.mem_filter.mp hx').2]

end Classes

namespace ModuleGraph

variable {g : ModuleGraph} {a b : Key}

/-! ### What is reached -/

/-- The dependencies among the modules that are there. -/
def Depends (g : ModuleGraph) (a b : Key) : Prop := g.Loads a b ∧ b ∈ g.keys

/-- Reached by one or more dependencies. -/
def Reaches (g : ModuleGraph) : Key → Key → Prop := Relation.TransGen g.Depends

theorem Depends.mem (h : g.Depends a b) : a ∈ g.keys ∧ b ∈ g.keys := by
  obtain ⟨⟨m, hm, rfl, -⟩, hb⟩ := h
  exact ⟨List.mem_map_of_mem hm, hb⟩

theorem Reaches.mem (h : g.Reaches a b) : a ∈ g.keys ∧ b ∈ g.keys := by
  induction h with
  | single h => exact h.mem
  | tail _ h ih => exact ⟨ih.1, h.mem.2⟩

theorem targets_eq (g : ModuleGraph) (key : Key) :
    g.targets key = (g.dependencyKeys key).filter g.contains := by
  rw [targets, dependencyKeys]
  cases g.get? key <;> rfl

theorem mem_targets (hn : g.keys.Nodup) : b ∈ g.targets a ↔ g.Depends a b := by
  rw [targets_eq, List.mem_filter, mem_dependencyKeys hn, contains_iff, Depends]

/-- The number of the dependencies of the modules that were not found. -/
def unspent (g : ModuleGraph) (found : List Key) : Nat :=
  ((g.modules.filter fun m => m.key ∉ found).map (·.dependencies.length)).sum

theorem unspent_nil (g : ModuleGraph) : g.unspent [] = g.dependencyCount := by
  have (ms : List ModuleRecord) : (ms.map (·.dependencies.length)).sum =
      ms.foldr (·.dependencies.length + ·) 0 := by
    induction ms with
    | nil => rfl
    | cons m ms ih => simp [ih]
  simp [unspent, dependencyCount, this]

/-- A key that is found spends its targets. -/
theorem unspent_cons {found : List Key} (h : a ∉ found) :
    (g.targets a).length + g.unspent (a :: found) ≤ g.unspent found := by
  have hsub : (g.modules.filter fun m => m.key ∉ a :: found).Sublist
      (g.modules.filter fun m => m.key ∉ found) := by
    apply List.monotone_filter_right
    intro m hm
    simp only [decide_eq_true_eq, List.mem_cons, not_or] at hm ⊢
    exact hm.2
  rw [targets]
  split
  · rename_i m hget
    have hkey : m.key = a := by simpa using List.find?_some hget
    have hmem : m ∈ g.modules.filter fun m => m.key ∉ found :=
      List.mem_filter.mpr ⟨List.mem_of_find?_eq_some hget, by simpa [hkey] using h⟩
    have hnot : m ∉ g.modules.filter fun m => m.key ∉ a :: found := by simp [hkey]
    obtain ⟨ms, hperm, hms⟩ := List.cons_subperm_of_not_mem_of_mem hnot hmem hsub.subperm
    have hsum := (hms.map (·.dependencies.length)).sum_le_sum (by simp)
    rw [(hperm.map _).sum_eq] at hsum
    have hlen := List.length_filter_le g.contains (m.dependencies.map (·.key))
    simp only [List.map_cons, List.sum_cons, List.length_map] at hsum hlen
    simp only [unspent]
    omega
  · simpa [unspent] using (hsub.map (·.dependencies.length)).sum_le_sum (by simp)

/-- With a round for each pending key and each dependency that may still come up, what is
found is found by a depth-first search. -/
theorem spread_visits (g : ModuleGraph) {n : Nat} (found pending : List Key)
    (h : pending.length + g.unspent found ≤ n) :
    ∃ vs, Visits g.targets found.reverse pending vs ∧
      g.spread n found pending = vs.reverse ++ found := by
  fun_induction spread g n found pending with
  | case1 found pending =>
    obtain rfl : pending = [] := List.eq_nil_of_length_eq_zero (by omega)
    exact ⟨[], .nil _, rfl⟩
  | case2 n found => exact ⟨[], .nil _, rfl⟩
  | case3 n found k ks hk ih =>
    simp only [List.length_cons] at h
    obtain ⟨vs, hvs, heq⟩ := ih (by omega)
    exact ⟨vs, .pass (by simpa using hk) hvs, heq⟩
  | case4 n found k ks hk ih =>
    have hk : k ∉ found := by simpa using hk
    have := unspent_cons (g := g) hk
    simp only [List.length_cons, List.length_append] at h ih
    obtain ⟨vs, hvs, heq⟩ := ih (by omega)
    rw [List.reverse_cons] at hvs
    obtain ⟨below, after, rfl, hbelow, hafter⟩ := hvs.split
    refine ⟨k :: below ++ after, .enter (by simpa using hk) hbelow ?_, ?_⟩
    · simpa using hafter
    · simpa using heq

/-- A search from the targets of a key finds what the key reaches by one or more steps. -/
theorem mem_reachable_iff_transGen :
    b ∈ g.reachable a ↔ Relation.TransGen (fun a b => b ∈ g.targets a) a b := by
  have hspent : (g.targets a).length + g.unspent [a] ≤ g.dependencyCount := by
    rw [← unspent_nil]
    exact unspent_cons List.not_mem_nil
  obtain ⟨vs, hvs, heq⟩ := spread_visits g (n := 2 * g.dependencyCount + 1) [] (g.targets a)
    (by rw [unspent_nil]; omega)
  rw [reachable, heq, List.append_nil, List.mem_reverse]
  constructor
  · intro hb
    obtain ⟨k, hk, hkb⟩ := hvs.reachable b hb
    exact .head' hk hkb
  · intro hb
    induction hb with
    | single h => simpa using hvs.request_mem _ h
    | tail _ h ih => simpa using hvs.closed _ ih _ h

theorem mem_reachable (hn : g.keys.Nodup) : b ∈ g.reachable a ↔ g.Reaches a b := by
  have : (fun a b => b ∈ g.targets a) = g.Depends := by
    funext a b
    exact propext (mem_targets hn)
  rw [mem_reachable_iff_transGen, this, Reaches]

/-! ### The groups -/

/-- Each of the two keys is found from the other. -/
def linked (g : ModuleGraph) (a b : Key) : Bool :=
  (g.reachable a).contains b && (g.reachable b).contains a

theorem linked_iff (hn : g.keys.Nodup) : g.linked a b = true ↔ g.Reaches a b ∧ g.Reaches b a := by
  simp [linked, mem_reachable hn]

theorem linked_symm (a b : Key) (h : g.linked a b = true) : g.linked b a = true := by
  simpa [linked, and_comm] using h

theorem linked_trans (hn : g.keys.Nodup) (a b c : Key) (hab : g.linked a b = true)
    (hbc : g.linked b c = true) : g.linked a c = true := by
  rw [linked_iff hn] at hab hbc ⊢
  exact ⟨hab.1.trans hbc.1, hbc.2.trans hab.2⟩

/-- The table of what each key reaches is read for the keys of the graph only. -/
theorem cycles_eq (g : ModuleGraph) : g.cycles = classes g.linked g.keys := by
  have htable (k : Key) (hk : k ∈ g.keys) :
      ((g.keys.map fun k => (k, g.reachable k)).lookup k).getD [] = g.reachable k := by
    rw [List.lookup_graph _ hk, Option.getD_some]
  have hgroup (k : Key) (hk : k ∈ g.keys) : (g.keys.filter fun j =>
      (((g.keys.map fun k => (k, g.reachable k)).lookup k).getD []).contains j &&
        (((g.keys.map fun k => (k, g.reachable k)).lookup j).getD []).contains k) =
      g.keys.filter (g.linked k) := by
    apply List.filter_congr
    intro j hj
    rw [htable k hk, htable j hj, linked]
  rw [cycles, classes_eq_filterMap]
  apply List.filterMap_congr
  intro k hk
  simp only [hgroup k hk, List.head?_filter]

theorem mem_cycles (hn : g.keys.Nodup) {c : List Key} :
    c ∈ g.cycles ↔ ∃ k, g.Reaches k k ∧ c = g.keys.filter (g.linked k) := by
  rw [cycles_eq, mem_classes linked_symm (linked_trans hn)]
  constructor
  · rintro ⟨k, -, hk, rfl⟩
    exact ⟨k, ((linked_iff hn).mp hk).1, rfl⟩
  · rintro ⟨k, hk, rfl⟩
    exact ⟨k, hk.mem.1, (linked_iff hn).mpr ⟨hk, hk⟩, rfl⟩

/-- The members of the group of a key. -/
theorem mem_group (hn : g.keys.Nodup) {k j : Key} :
    j ∈ g.keys.filter (g.linked k) ↔ g.Reaches k j ∧ g.Reaches j k := by
  rw [List.mem_filter, linked_iff hn]
  exact ⟨fun h => h.2, fun h => ⟨h.2.mem.1, h⟩⟩

/-- A strongly connected component, its keys in the order of the graph: together with one key
it has the keys that reach this key and are reached by it, if only by no step at all. -/
structure IsComponent (g : ModuleGraph) (c : List Key) : Prop where
  nonempty : c ≠ []
  sublist : c.Sublist g.keys
  mem_iff : ∀ a ∈ c, ∀ b, b ∈ c ↔
    Relation.ReflTransGen g.Depends a b ∧ Relation.ReflTransGen g.Depends b a

theorem group_isComponent (hn : g.keys.Nodup) {k : Key} (hk : g.Reaches k k) :
    g.IsComponent (g.keys.filter (g.linked k)) where
  nonempty := List.ne_nil_of_mem ((mem_group hn).mpr ⟨hk, hk⟩)
  sublist := List.filter_sublist
  mem_iff := by
    intro a ha b
    rw [mem_group hn] at ha ⊢
    constructor
    · rintro ⟨hkb, hbk⟩
      exact ⟨(ha.2.trans hkb).to_reflTransGen, (hbk.trans ha.1).to_reflTransGen⟩
    · rintro ⟨hab, hba⟩
      exact ⟨ha.1.trans_left hab, ha.2.trans_right hba⟩

/-- A component is all that one of its keys is linked with, if this key is on a cycle. -/
theorem IsComponent.eq_group (hn : g.keys.Nodup) {c : List Key} (h : g.IsComponent c)
    {k : Key} (hk : k ∈ c) (hcycle : g.Reaches k k) : c = g.keys.filter (g.linked k) := by
  have hmem : ∀ j, j ∈ c ↔ j ∈ g.keys.filter (g.linked k) := by
    intro j
    have hself := (mem_group hn).mpr ⟨hcycle, hcycle⟩
    rw [h.mem_iff k hk, (group_isComponent hn hcycle).mem_iff k hself]
  have hsub := h.sublist.filter (g.linked k)
  rw [List.filter_eq_self.mpr fun j hj => (List.mem_filter.mp ((hmem j).mp hj)).2] at hsub
  apply hsub.eq_of_length_le
  exact (List.subperm_of_subset (hn.filter _) fun j hj => (hmem j).mpr hj).length_le

/-- A component has a cycle if it has two members or one that loads itself. -/
theorem IsComponent.cyclic_iff (hn : g.keys.Nodup) {c : List Key} (h : g.IsComponent c) :
    (2 ≤ c.length ∨ ∃ k ∈ c, g.Depends k k) ↔ ∃ k ∈ c, g.Reaches k k := by
  constructor
  · rintro (hlen | ⟨k, hk, hself⟩)
    · match c, hlen, h with
      | a :: b :: rest, _, h =>
        have hne : b ≠ a := by
          have := (List.nodup_cons.mp (h.sublist.nodup hn)).1
          rintro rfl
          simp at this
        have hab := (h.mem_iff a List.mem_cons_self b).mp (by simp)
        have hgo := (Relation.reflTransGen_iff_eq_or_transGen.mp hab.1).resolve_left hne
        exact ⟨a, List.mem_cons_self, hgo.trans_left hab.2⟩
    · exact ⟨k, hk, .single hself⟩
  · rintro ⟨k, hk, hcycle⟩
    -- the first step round the cycle stays in the component
    obtain ⟨next, hstep, hback⟩ := Relation.TransGen.head'_iff.mp hcycle
    have hnext : next ∈ c := (h.mem_iff k hk next).mpr ⟨.single hstep, hback⟩
    by_cases heq : next = k
    · subst heq
      exact .inr ⟨next, hk, hstep⟩
    · left
      match c, hk, hnext with
      | [j], hk, hnext => simp_all
      | _ :: _ :: _, _, _ => simp

/-- The cycles are the components with two members or with one that loads itself. -/
theorem mem_cycles_iff (hn : g.keys.Nodup) {c : List Key} :
    c ∈ g.cycles ↔ g.IsComponent c ∧ (2 ≤ c.length ∨ ∃ k ∈ c, g.Depends k k) := by
  constructor
  · intro hc
    obtain ⟨k, hk, rfl⟩ := (mem_cycles hn).mp hc
    have hcomp := group_isComponent hn hk
    exact ⟨hcomp, (hcomp.cyclic_iff hn).mpr ⟨k, (mem_group hn).mpr ⟨hk, hk⟩, hk⟩⟩
  · rintro ⟨hcomp, hcyclic⟩
    obtain ⟨k, hk, hcycle⟩ := (hcomp.cyclic_iff hn).mp hcyclic
    exact (mem_cycles hn).mpr ⟨k, hcycle, hcomp.eq_group hn hk hcycle⟩

/-- The cycles are the strongly connected components with two members or more, or with one
that loads itself. Two keys share a group just when each reaches the other, so each key on a
cycle stands in one place of one group and no other key does, and there is no group just when
nothing reaches itself. The order is that of the graph, in a group and of the groups by their
first keys. Repeated dependencies and those on modules that are not there change nothing. -/
theorem cycles_components (hn : g.keys.Nodup) :
    (∀ c, c ∈ g.cycles ↔
      g.IsComponent c ∧ (2 ≤ c.length ∨ ∃ k ∈ c, g.Depends k k)) ∧
    (∀ a b, (∃ c ∈ g.cycles, a ∈ c ∧ b ∈ c) ↔ g.Reaches a b ∧ g.Reaches b a) ∧
    (g.cycles.flatten.Nodup ∧ ∀ k, k ∈ g.cycles.flatten ↔ g.Reaches k k) ∧
    (g.cycles.map List.head?).Sublist (g.keys.map some) ∧
    (g.cycles = [] ↔ ∀ k, ¬ g.Reaches k k) := by
  have hshare (a b : Key) :
      (∃ c ∈ g.cycles, a ∈ c ∧ b ∈ c) ↔ g.Reaches a b ∧ g.Reaches b a := by
    constructor
    · rintro ⟨c, hc, ha, hb⟩
      obtain ⟨k, -, rfl⟩ := (mem_cycles hn).mp hc
      rw [mem_group hn] at ha hb
      exact ⟨ha.2.trans hb.1, hb.2.trans ha.1⟩
    · rintro ⟨hab, hba⟩
      have haa := hab.trans hba
      exact ⟨_, (mem_cycles hn).mpr ⟨a, haa, rfl⟩, (mem_group hn).mpr ⟨haa, haa⟩,
        (mem_group hn).mpr ⟨hab, hba⟩⟩
  have hflatten (k : Key) : k ∈ g.cycles.flatten ↔ g.Reaches k k := by
    simpa [List.mem_flatten] using hshare k k
  refine ⟨fun _ => mem_cycles_iff hn, hshare, ⟨?_, hflatten⟩, ?_, ?_⟩
  · rw [cycles_eq]
    exact nodup_flatten_classes linked_symm (linked_trans hn) hn
  · rw [cycles_eq]
    exact head_classes_sublist
  · constructor
    · intro h k hk
      have := (hflatten k).mpr hk
      simp [h] at this
    · intro h
      rw [List.eq_nil_iff_forall_not_mem]
      intro c hc
      obtain ⟨k, hk, -⟩ := (mem_cycles hn).mp hc
      exact h k hk

/-! ### Graphs that are built module by module -/

theorem insert_keys_nodup (hn : g.keys.Nodup) (m : ModuleRecord) : (g.insert m).keys.Nodup := by
  by_cases hm : m.key ∈ g.keys
  · rwa [insert, if_pos (contains_iff.mpr hm)]
  · rw [insert_of_not_mem hm, keys, List.map_append, List.map_singleton]
    exact hn.append (List.nodup_singleton _) (by simpa using hm)

/-- However modules are inserted, no key is there twice. -/
theorem foldl_insert_keys_nodup (ms : List ModuleRecord) :
    (ms.foldl insert {}).keys.Nodup := by
  apply List.foldlRecOn (motive := fun g : ModuleGraph => g.keys.Nodup)
  · exact List.nodup_nil
  · intro g hn m _
    exact insert_keys_nodup hn m

/-- A module that only loads others. -/
def loading (key : Key) (targets : List Key) : ModuleRecord :=
  ⟨key, ⟨key⟩, [], "", targets.map fun t => ⟨t, t⟩⟩

/-- A ring of three with a repeated and a missing dependency, a module that loads itself
twice, one before the ring that is on no cycle, and a key that is there already. -/
def tangled : ModuleGraph :=
  [loading "./e" ["./a"], loading "./a" ["./b", "./b", "./gone"], loading "./d" ["./d", "./d"],
    loading "./b" ["./c", "./d"], loading "./c" ["./a"], loading "./a" ["./e"]].foldl insert {}

theorem cycles_components_tangled :
    tangled.keys.Nodup ∧ tangled.cycles = [["./a", "./b", "./c"], ["./d"]] ∧
      tangled.IsComponent ["./a", "./b", "./c"] ∧ tangled.Reaches "./b" "./a" ∧
      ¬ tangled.Reaches "./e" "./e" := by
  have hn : tangled.keys.Nodup := foldl_insert_keys_nodup _
  have hcycles : tangled.cycles = [["./a", "./b", "./c"], ["./d"]] := by decide +kernel
  obtain ⟨hcomp, hshare, ⟨-, hflatten⟩, -, -⟩ := cycles_components hn
  simp only [hcycles] at hcomp hshare hflatten
  refine ⟨hn, hcycles, ((hcomp _).mp List.mem_cons_self).1, ?_, ?_⟩
  · exact ((hshare "./b" "./a").mp ⟨_, List.mem_cons_self, by simp, by simp⟩).1
  · rw [← hflatten]
    decide

end ModuleGraph
end Bundler
