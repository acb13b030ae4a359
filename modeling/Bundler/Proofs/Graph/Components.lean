import Bundler.Proofs.Graph.Cycles
import Mathlib.Data.List.Sort

/-! Any function for the components of a graph finds the cycles. A component of the places is a
component of the modules that stand there, so after the two sorts `cyclesBy` lists the same groups
in the same order as `cycles`. -/
namespace Bundler

/-- Two lists in the strict order of a rank are equal if they have the same members. -/
theorem eq_of_ranked {α : Type*} (rank : α → ℕ) {l l' : List α}
    (h : l.Pairwise fun a b => rank a < rank b) (h' : l'.Pairwise fun a b => rank a < rank b)
    (hmem : ∀ a, a ∈ l ↔ a ∈ l') : l = l' := by
  have : Std.Antisymm fun a b => rank a < rank b := ⟨fun _ _ hab hba => absurd hba hab.asymm⟩
  have : Std.Irrefl fun a b => rank a < rank b := ⟨fun _ => Nat.lt_irrefl _⟩
  exact h.eq_of_mem_iff h' hmem

theorem mergeSort_ranked {α : Type*} (rank : α → ℕ) (l : List α) :
    (l.mergeSort fun a b => rank a ≤ rank b).Pairwise fun a b => rank a ≤ rank b := by
  have htrans (a b c : α) : decide (rank a ≤ rank b) = true → decide (rank b ≤ rank c) = true →
      decide (rank a ≤ rank c) = true := by
    simpa using Nat.le_trans
  have htotal (a b : α) : (decide (rank a ≤ rank b) || decide (rank b ≤ rank a)) = true := by
    simpa using Nat.le_total _ _
  simpa using List.pairwise_mergeSort htrans htotal l

/-- A list of places, sorted. -/
theorem mergeSort_eq_filter {n : ℕ} {c : List ℕ} (hn : c.Nodup) (h : ∀ i ∈ c, i < n) :
    c.mergeSort = (List.range n).filter (· ∈ c) := by
  have hle : c.mergeSort.Pairwise (· ≤ ·) := mergeSort_ranked id c
  have hne : c.mergeSort.Nodup := (List.mergeSort_perm c _).nodup_iff.mpr hn
  apply eq_of_ranked id
  · exact (hle.and hne).imp fun h => Nat.lt_of_le_of_ne h.1 h.2
  · exact List.pairwise_lt_range.filter _
  · intro i
    simpa using h i

/-- An edge between two nodes. -/
def Joins (es : List (ℕ × ℕ)) (i j : ℕ) : Prop := (i, j) ∈ es

/-- Two nodes that reach each other, in any number of steps. -/
def Connected (es : List (ℕ × ℕ)) (i j : ℕ) : Prop :=
  Relation.ReflTransGen (Joins es) i j ∧ Relation.ReflTransGen (Joins es) j i

/-- The components of the graph with the nodes below `n` and these edges. Every node stands in one
place, and a component with a node has all that it is connected with. -/
structure IsComponents (n : ℕ) (es : List (ℕ × ℕ)) (cs : List (List ℕ)) : Prop where
  nonempty : ∀ c ∈ cs, c ≠ []
  perm : cs.flatten.Perm (List.range n)
  mem_iff : ∀ c ∈ cs, ∀ i ∈ c, ∀ j < n, j ∈ c ↔ Connected es i j

open Classical in
/-- Every graph has components. -/
theorem exists_components (n : ℕ) (es : List (ℕ × ℕ)) : ∃ cs, IsComponents n es cs := by
  have hs (i j : ℕ) : decide (Connected es i j) = true → decide (Connected es j i) = true := by
    simpa using fun h => h.symm
  have ht (i j k : ℕ) : decide (Connected es i j) = true → decide (Connected es j k) = true →
      decide (Connected es i k) = true := by
    simpa using fun hij hjk => ⟨hij.1.trans hjk.1, hjk.2.trans hij.2⟩
  have hself (i : ℕ) : decide (Connected es i i) = true := decide_eq_true ⟨.refl, .refl⟩
  have hmem {c : List ℕ} : c ∈ classes (fun i j => decide (Connected es i j)) (List.range n) ↔
      ∃ k < n, c = (List.range n).filter (fun j => decide (Connected es k j)) := by
    simp [mem_classes hs ht, hself]
  refine ⟨classes (fun i j => decide (Connected es i j)) (List.range n), ?_, ?_, ?_⟩
  · intro c hc
    obtain ⟨k, hk, rfl⟩ := hmem.mp hc
    exact List.ne_nil_of_mem (List.mem_filter.mpr ⟨List.mem_range.mpr hk, hself k⟩)
  · rw [List.perm_ext_iff_of_nodup (nodup_flatten_classes hs ht List.nodup_range) List.nodup_range]
    intro i
    rw [List.mem_flatten, List.mem_range]
    constructor
    · rintro ⟨c, hc, hi⟩
      obtain ⟨k, -, rfl⟩ := hmem.mp hc
      exact List.mem_range.mp (List.mem_filter.mp hi).1
    · intro hi
      exact ⟨_, hmem.mpr ⟨i, hi, rfl⟩, List.mem_filter.mpr ⟨List.mem_range.mpr hi, hself i⟩⟩
  · intro c hc i hi j hj
    obtain ⟨k, -, rfl⟩ := hmem.mp hc
    rw [filter_eq_of_related hs ht (List.mem_filter.mp hi).2, List.mem_filter, List.mem_range,
      decide_eq_true_iff]
    exact and_iff_right hj

namespace IsComponents

variable {n : ℕ} {es : List (ℕ × ℕ)} {cs : List (List ℕ)} (h : IsComponents n es cs)

include h

theorem nodup : (∀ c ∈ cs, c.Nodup) ∧ cs.Pairwise List.Disjoint :=
  List.nodup_flatten.mp (h.perm.nodup_iff.mpr List.nodup_range)

theorem mem_flatten {i : ℕ} : (∃ c ∈ cs, i ∈ c) ↔ i < n := by
  rw [← List.mem_flatten, h.perm.mem_iff, List.mem_range]

theorem lt {c : List ℕ} (hc : c ∈ cs) {i : ℕ} (hi : i ∈ c) : i < n := h.mem_flatten.mp ⟨c, hc, hi⟩

end IsComponents

namespace ModuleGraph

variable {g : ModuleGraph} {a b : Key} {i j : ℕ} {c : List ℕ} {cs : List (List ℕ)}

/-! ### Places -/

theorem idxOf?_keys (hn : g.keys.Nodup) : g.keys.idxOf? a = some i ↔ g.keys[i]? = some a := by
  rw [List.idxOf?_eq_some_iff, List.getElem?_eq_some_iff]
  constructor
  · rintro ⟨hi, heq, -⟩
    exact ⟨hi, heq⟩
  · rintro ⟨hi, heq⟩
    refine ⟨hi, heq, fun j hj hsame => ?_⟩
    have := hn.getElem_inj_iff.mp (hsame.trans heq.symm)
    omega

theorem place_unique (hn : g.keys.Nodup) (hi : g.keys[i]? = some a) (hj : g.keys[j]? = some a) :
    i = j := by
  rw [← idxOf?_keys hn] at hi hj
  exact Option.some.inj (hi.symm.trans hj)

theorem exists_place : (∃ i : ℕ, g.keys[i]? = some a) ↔ a ∈ g.keys := List.mem_iff_getElem?.symm

theorem exists_key : (∃ a, g.keys[i]? = some a) ↔ i < g.size := by
  rw [← Option.isSome_iff_exists, isSome_getElem?, keys, List.length_map, size]

/-- Earlier keys have smaller places. -/
theorem keys_ranked (hn : g.keys.Nodup) :
    g.keys.Pairwise fun a b => g.keys.idxOf a < g.keys.idxOf b := by
  rw [List.pairwise_iff_getElem]
  intro i j hi hj hlt
  rwa [hn.idxOf_getElem, hn.idxOf_getElem]

theorem mem_keysAt : a ∈ g.keysAt c ↔ ∃ i ∈ c, g.keys[i]? = some a := List.mem_filterMap

theorem keysAt_range (g : ModuleGraph) : g.keysAt (List.range g.size) = g.keys := by
  have (l : List Key) : (List.range l.length).filterMap (l[·]?) = l := by
    induction l with
    | nil => rfl
    | cons a l ih => simp [List.range_succ_eq_map, List.filterMap_map, ih]
  have hlength : g.keys.length = g.size := List.length_map _
  exact hlength ▸ this g.keys

theorem loads_iff : g.Loads a b ↔ ∃ d, (a, d) ∈ g.edges ∧ d.key = b := by
  simp only [Loads, edges, List.mem_flatMap, List.mem_map, Prod.mk.injEq]
  constructor
  · rintro ⟨m, hm, rfl, d, hd, rfl⟩
    exact ⟨d, ⟨m, hm, d, hd, rfl, rfl⟩, rfl⟩
  · rintro ⟨_, ⟨m, hm, d, hd, rfl, rfl⟩, rfl⟩
    exact ⟨m, hm, rfl, d, hd, rfl⟩

/-- The edges are the dependencies, between the places of the modules. -/
theorem mem_placeEdges (hn : g.keys.Nodup) : (i, j) ∈ g.placeEdges ↔
    ∃ a b, g.keys[i]? = some a ∧ g.keys[j]? = some b ∧ g.Depends a b := by
  have hedge (a : Key) (d : Dependency) : (do
      return (← g.keys.idxOf? a, ← g.keys.idxOf? d.key)) = some (i, j) ↔
        g.keys[i]? = some a ∧ g.keys[j]? = some d.key := by
    simp [← idxOf?_keys hn, Option.bind_eq_some_iff]
  rw [placeEdges, List.mem_eraseDups, List.mem_filterMap]
  constructor
  · rintro ⟨⟨a, d⟩, hmem, h⟩
    obtain ⟨hi, hj⟩ := (hedge a d).mp h
    exact ⟨a, d.key, hi, hj, loads_iff.mpr ⟨d, hmem, rfl⟩, exists_place.mp ⟨j, hj⟩⟩
  · rintro ⟨a, b, hi, hj, hloads, -⟩
    obtain ⟨d, hmem, rfl⟩ := loads_iff.mp hloads
    exact ⟨(a, d), hmem, (hedge a d).mpr ⟨hi, hj⟩⟩

/-- A way between places is one between the modules that stand there. -/
theorem reaches_of_joins (hn : g.keys.Nodup)
    (h : Relation.ReflTransGen (Joins g.placeEdges) i j) (hi : g.keys[i]? = some a) :
    ∃ b, g.keys[j]? = some b ∧ Relation.ReflTransGen g.Depends a b := by
  induction h with
  | refl => exact ⟨a, hi, .refl⟩
  | tail _ hjoin ih =>
    obtain ⟨b, hb, hab⟩ := ih
    obtain ⟨b', d, hb', hd, hstep⟩ := (mem_placeEdges hn).mp hjoin
    obtain rfl := Option.some.inj (hb.symm.trans hb')
    exact ⟨d, hd, hab.tail hstep⟩

theorem joins_of_reaches (hn : g.keys.Nodup) (h : Relation.ReflTransGen g.Depends a b)
    (hi : g.keys[i]? = some a) :
    ∃ j, g.keys[j]? = some b ∧ Relation.ReflTransGen (Joins g.placeEdges) i j := by
  induction h with
  | refl => exact ⟨i, hi, .refl⟩
  | tail _ hstep ih =>
    obtain ⟨j, hj, hij⟩ := ih
    obtain ⟨k, hk⟩ := exists_place.mpr hstep.mem.2
    exact ⟨k, hk, hij.tail ((mem_placeEdges hn).mpr ⟨_, _, hj, hk, hstep⟩)⟩

theorem joins_iff_reaches (hn : g.keys.Nodup) (hi : g.keys[i]? = some a) (hj : g.keys[j]? = some b) :
    Relation.ReflTransGen (Joins g.placeEdges) i j ↔ Relation.ReflTransGen g.Depends a b := by
  constructor
  · intro h
    obtain ⟨b', hj', hab⟩ := reaches_of_joins hn h hi
    obtain rfl := Option.some.inj (hj.symm.trans hj')
    exact hab
  · intro h
    obtain ⟨j', hj', hij⟩ := joins_of_reaches hn h hi
    obtain rfl := place_unique hn hj hj'
    exact hij

/-! ### Components -/

/-- Components with a common member are equal. -/
theorem IsComponent.eq_of_mem (hn : g.keys.Nodup) {c d : List Key} (hc : g.IsComponent c)
    (hd : g.IsComponent d) {k : Key} (hkc : k ∈ c) (hkd : k ∈ d) : c = d := by
  refine eq_of_ranked g.keys.idxOf ((keys_ranked hn).sublist hc.sublist)
    ((keys_ranked hn).sublist hd.sublist) ?_
  intro a
  rw [hc.mem_iff k hkc, hd.mem_iff k hkd]

section

variable (hn : g.keys.Nodup) (h : IsComponents g.size g.placeEdges cs)

include hn h

theorem isComponent_keysAt (hc : c ∈ cs) : g.IsComponent (g.keysAt c.mergeSort) where
  nonempty := by
    obtain ⟨i, hi⟩ := List.exists_mem_of_ne_nil c (h.nonempty c hc)
    obtain ⟨a, ha⟩ := exists_key.mpr (h.lt hc hi)
    exact List.ne_nil_of_mem (mem_keysAt.mpr ⟨i, List.mem_mergeSort.mpr hi, ha⟩)
  sublist := by
    rw [mergeSort_eq_filter (h.nodup.1 c hc) fun _ => h.lt hc, ← keysAt_range g]
    exact List.filter_sublist.filterMap _
  mem_iff := by
    intro a ha b
    simp only [mem_keysAt, List.mem_mergeSort] at ha ⊢
    obtain ⟨i, hi, hplace⟩ := ha
    constructor
    · rintro ⟨j, hj, hb⟩
      obtain ⟨hij, hji⟩ := (h.mem_iff c hc i hi j (h.lt hc hj)).mp hj
      exact ⟨(joins_iff_reaches hn hplace hb).mp hij, (joins_iff_reaches hn hb hplace).mp hji⟩
    · intro hab
      obtain ⟨j, hb, hij⟩ := joins_of_reaches hn hab.1 hplace
      have hji := (joins_iff_reaches hn hb hplace).mpr hab.2
      exact ⟨j, (h.mem_iff c hc i hi j (exists_key.mp ⟨b, hb⟩)).mpr ⟨hij, hji⟩, hb⟩

/-- A component of places is kept just when it has two modules or one that loads itself. -/
theorem isCyclic_iff (hc : c ∈ cs) : isCyclic g.placeEdges c = true ↔
      2 ≤ (g.keysAt c.mergeSort).length ∨ ∃ k ∈ g.keysAt c.mergeSort, g.Depends k k := by
  have hlength : (g.keysAt c.mergeSort).length = c.length := by
    have hall : (g.keysAt c.mergeSort).length = c.mergeSort.length := by
      rw [keysAt, List.filterMap_length_eq_length]
      intro i hi
      exact Option.isSome_iff_exists.mpr (exists_key.mpr (h.lt hc (List.mem_mergeSort.mp hi)))
    rw [hall, List.length_mergeSort]
  have hself : (∃ k ∈ g.keysAt c.mergeSort, g.Depends k k) ↔ ∃ i ∈ c, (i, i) ∈ g.placeEdges := by
    simp only [mem_keysAt, List.mem_mergeSort, mem_placeEdges hn]
    constructor
    · rintro ⟨k, ⟨i, hi, hk⟩, hdep⟩
      exact ⟨i, hi, k, k, hk, hk, hdep⟩
    · rintro ⟨i, hi, k, k', hk, hk', hdep⟩
      obtain rfl := Option.some.inj (hk.symm.trans hk')
      exact ⟨k, ⟨i, hi, hk⟩, hdep⟩
  rw [isCyclic, hlength, hself]
  match c with
  | [] => simp
  | [i] => simp
  | i :: j :: rest => simp

/-- The components that are kept are the cycles. -/
theorem exists_component_iff {l : List Key} :
    (∃ c ∈ cs, isCyclic g.placeEdges c = true ∧ g.keysAt c.mergeSort = l) ↔ l ∈ g.cycles := by
  rw [mem_cycles_iff hn]
  constructor
  · rintro ⟨c, hc, hcyclic, rfl⟩
    exact ⟨isComponent_keysAt hn h hc, (isCyclic_iff hn h hc).mp hcyclic⟩
  · rintro ⟨hl, hcyclic⟩
    -- a key of the group has a place, and this stands in a component
    obtain ⟨k, hk⟩ := List.exists_mem_of_ne_nil l hl.nonempty
    obtain ⟨i, hi⟩ := exists_place.mpr (hl.sublist.subset hk)
    obtain ⟨c, hc, hic⟩ := h.mem_flatten.mpr (exists_key.mp ⟨k, hi⟩)
    have hkc : k ∈ g.keysAt c.mergeSort := mem_keysAt.mpr ⟨i, List.mem_mergeSort.mpr hic, hi⟩
    obtain rfl := (isComponent_keysAt hn h hc).eq_of_mem hn hl hkc hk
    exact ⟨c, hc, (isCyclic_iff hn h hc).mpr hcyclic, rfl⟩

end

/-! ### The order -/

theorem idxOf_headD (hn : g.keys.Nodup) (hc : c ≠ []) (hlt : ∀ i ∈ c, i < g.size) :
    g.keys.idxOf ((g.keysAt c).headD "") = c.headD 0 := by
  obtain ⟨i, rest, rfl⟩ := List.exists_cons_of_ne_nil hc
  obtain ⟨a, ha⟩ := exists_key.mpr (hlt i List.mem_cons_self)
  rw [keysAt, List.filterMap_cons_some ha, List.headD_cons, List.headD_cons]
  obtain ⟨hi, rfl⟩ := List.getElem?_eq_some_iff.mp ha
  exact hn.idxOf_getElem i hi

/-- The cycles stand in the order of their first keys. -/
theorem cycles_ranked (hn : g.keys.Nodup) :
    g.cycles.Pairwise fun l l' => g.keys.idxOf (l.headD "") < g.keys.idxOf (l'.headD "") := by
  have hheads : (g.cycles.map List.head?).Sublist (g.keys.map some) := by
    rw [cycles_eq]
    exact head_classes_sublist
  have hranked : (g.keys.map some).Pairwise
      fun x y => g.keys.idxOf (x.getD "") < g.keys.idxOf (y.getD "") :=
    List.pairwise_map.mpr (keys_ranked hn)
  simpa [List.headD_eq_head?_getD] using List.pairwise_map.mp (hranked.sublist hheads)

theorem headD_mem (hc : c ≠ []) : c.headD 0 ∈ c := by
  obtain ⟨i, rest, rfl⟩ := List.exists_cons_of_ne_nil hc
  exact List.mem_cons_self

theorem mergeSort_ne_nil (hc : c ≠ []) : c.mergeSort ≠ [] := by
  obtain ⟨i, hi⟩ := List.exists_mem_of_ne_nil c hc
  exact List.ne_nil_of_mem (List.mem_mergeSort.mpr hi)

/-- The sorts put lists without a common place in the order of their first places. -/
theorem sorted_ranked (hne : ∀ c ∈ cs, c ≠ []) (happart : cs.Pairwise List.Disjoint) :
    ((cs.map (·.mergeSort)).mergeSort fun c d => c.headD 0 ≤ d.headD 0).Pairwise
      fun c d => c.headD 0 < d.headD 0 := by
  -- the second sort gives the order, and lists without a common place have different first ones
  have hle := mergeSort_ranked (fun c => c.headD 0) (cs.map (·.mergeSort))
  have hsorted : ((cs.map (·.mergeSort)).mergeSort
      fun c d => c.headD 0 ≤ d.headD 0).Pairwise List.Disjoint := by
    rw [(List.mergeSort_perm _ _).pairwise_iff List.Disjoint.symm, List.pairwise_map]
    exact happart.imp fun h => by simpa [List.Disjoint] using h
  refine (hle.and hsorted).imp_of_mem fun {c d} hc hd ⟨hheads, hdisjoint⟩ => ?_
  have hmem {c : List ℕ} (hc : c ∈ (cs.map (·.mergeSort)).mergeSort
      fun c d => c.headD 0 ≤ d.headD 0) : c.headD 0 ∈ c := by
    obtain ⟨b, hb, rfl⟩ := List.mem_map.mp (List.mem_mergeSort.mp hc)
    exact headD_mem (mergeSort_ne_nil (hne b hb))
  refine Nat.lt_of_le_of_ne hheads fun heq => ?_
  exact hdisjoint (hmem hc) (heq ▸ hmem hd)

/-- By way of the components of the places, the same cycles are found in the same order. -/
theorem cyclesBy_eq (hn : g.keys.Nodup) {components : ℕ → List (ℕ × ℕ) → List (List ℕ)}
    (h : IsComponents g.size g.placeEdges (components g.size g.placeEdges)) :
    g.cyclesBy components = g.cycles := by
  apply eq_of_ranked fun l => g.keys.idxOf (l.headD "")
  · rw [cyclesBy, List.pairwise_map]
    have hsub : ((components g.size g.placeEdges).filter (isCyclic g.placeEdges)).Sublist
      (components g.size g.placeEdges) := List.filter_sublist
    have hsorted := sorted_ranked (fun c hc => h.nonempty c (hsub.subset hc))
      (h.nodup.2.sublist hsub)
    have hrank (c : List ℕ) (hc : c ∈ (((components g.size g.placeEdges).filter
        (isCyclic g.placeEdges)).map (·.mergeSort)).mergeSort fun c d => c.headD 0 ≤ d.headD 0) :
        g.keys.idxOf ((g.keysAt c).headD "") = c.headD 0 := by
      obtain ⟨b, hb, rfl⟩ := List.mem_map.mp (List.mem_mergeSort.mp hc)
      have hb := hsub.subset hb
      exact idxOf_headD hn (mergeSort_ne_nil (h.nonempty b hb))
        fun j hj => h.lt hb (List.mem_mergeSort.mp hj)
    exact hsorted.imp_of_mem fun hc hd hlt => by rwa [hrank _ hc, hrank _ hd]
  · exact cycles_ranked hn
  · intro l
    simp [← exists_component_iff hn h, cyclesBy, and_assoc]

/-- Neither the order of the components counts nor that of their places. -/
example : tangled.cyclesBy (fun _ _ => [[2], [4, 1, 3], [0]]) =
    [["./a", "./b", "./c"], ["./d"]] := by
  cbv

end ModuleGraph
end Bundler
