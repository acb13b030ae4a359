import Mathlib.Data.List.Nodup
import Mathlib.Data.Set.Card
import Mathlib.Logic.Relation

/-! Depth-first preorder. `Visits deps seen requests found` says that a depth-first search
that has met `seen` and is asked for `requests` in turn meets `found`, in this order: a
request that was met is passed over, and any other is met before all it leads to. From one
start it meets what the start reaches, each once. -/
namespace Bundler

variable {α : Type*} {deps : α → List α}

inductive Visits (deps : α → List α) : List α → List α → List α → Prop
  | nil (seen : List α) : Visits deps seen [] []
  | pass {seen : List α} {k : α} {requests found : List α} (hk : k ∈ seen)
      (h : Visits deps seen requests found) : Visits deps seen (k :: requests) found
  | enter {seen : List α} {k : α} {requests below after : List α} (hk : k ∉ seen)
      (hb : Visits deps (seen ++ [k]) (deps k) below)
      (ha : Visits deps (seen ++ k :: below) requests after) :
      Visits deps seen (k :: requests) (k :: below ++ after)

namespace Visits

/-- A search for two lists of requests is one for the first and then one for the second. -/
theorem split {seen : List α} (xs : List α) {ys found : List α}
    (h : Visits deps seen (xs ++ ys) found) :
    ∃ a b, found = a ++ b ∧ Visits deps seen xs a ∧ Visits deps (seen ++ a) ys b := by
  induction xs generalizing seen found with
  | nil => exact ⟨[], found, rfl, .nil seen, by simpa using h⟩
  | cons x xs ih =>
    cases h with
    | pass hk h =>
      obtain ⟨a, b, rfl, ha, hb⟩ := ih h
      exact ⟨a, b, rfl, .pass hk ha, hb⟩
    | enter hk hbelow h =>
      obtain ⟨a, b, rfl, ha, hb⟩ := ih h
      refine ⟨_, b, (List.append_assoc ..).symm, .enter hk hbelow ha, ?_⟩
      simpa using hb

theorem append {seen xs ys a b : List α} (ha : Visits deps seen xs a)
    (hb : Visits deps (seen ++ a) ys b) : Visits deps seen (xs ++ ys) (a ++ b) := by
  induction ha with
  | nil => simpa using hb
  | pass hk _ ih => exact .pass hk (ih hb)
  | enter hk hbelow _ _ ih =>
    rw [List.cons_append, List.append_assoc]
    exact .enter hk hbelow (ih (by simpa using hb))

/-- Every request is met in the end. -/
theorem request_mem {seen requests found : List α} (h : Visits deps seen requests found) :
    ∀ k ∈ requests, k ∈ seen ++ found := by
  induction h with
  | nil => simp
  | pass hk _ ih =>
    intro j hj
    rcases List.mem_cons.mp hj with rfl | hj
    · exact List.mem_append_left _ hk
    · exact ih j hj
  | enter _ _ _ _ ih =>
    intro j hj
    rcases List.mem_cons.mp hj with rfl | hj
    · simp
    · have := ih j hj
      simpa using this

theorem nodup {seen requests found : List α} (h : Visits deps seen requests found)
    (hs : seen.Nodup) : (seen ++ found).Nodup := by
  induction h with
  | nil => simpa using hs
  | pass _ _ ih => exact ih hs
  | enter hk _ _ ihb iha =>
    have hb := ihb (List.nodup_append.mpr ⟨hs, List.nodup_singleton _, by
      rintro a ha b hb rfl; rw [List.mem_singleton.mp hb] at ha; exact hk ha⟩)
    have := iha (by simpa using hb)
    simpa using this

/-- What a met key leads to is met as well. -/
theorem closed {seen requests found : List α} (h : Visits deps seen requests found) :
    ∀ k ∈ found, ∀ d ∈ deps k, d ∈ seen ++ found := by
  induction h with
  | nil => simp
  | pass _ _ ih => exact ih
  | @enter seen k requests below after _ hb _ ihb iha =>
    intro j hj d hd
    rcases List.mem_append.mp hj with hj | hj
    · have : d ∈ seen ++ [k] ++ below := by
        rcases List.mem_cons.mp hj with rfl | hj
        · exact hb.request_mem d hd
        · exact ihb j hj d hd
      simp only [List.mem_append, List.mem_cons, List.not_mem_nil, or_false] at this ⊢
      tauto
    · have := iha j hj d hd
      simpa using this

/-- Only what a request reaches is met. -/
theorem reachable {seen requests found : List α} (h : Visits deps seen requests found) :
    ∀ k ∈ found, ∃ r ∈ requests, Relation.ReflTransGen (fun a b => b ∈ deps a) r k := by
  induction h with
  | nil => simp
  | pass _ _ ih =>
    intro j hj
    obtain ⟨r, hr, h⟩ := ih j hj
    exact ⟨r, List.mem_cons_of_mem _ hr, h⟩
  | @enter seen k requests below after _ _ _ ihb iha =>
    intro j hj
    rcases List.mem_append.mp hj with hj | hj
    · rcases List.mem_cons.mp hj with rfl | hj
      · exact ⟨j, List.mem_cons_self, .refl⟩
      · obtain ⟨r, hr, h⟩ := ihb j hj
        exact ⟨k, List.mem_cons_self, .head hr h⟩
    · obtain ⟨r, hr, h⟩ := iha j hj
      exact ⟨r, List.mem_cons_of_mem _ hr, h⟩

/-- A search from one start meets exactly what the start reaches. -/
theorem mem_iff_reachable {start : α} {found : List α} (h : Visits deps [] [start] found)
    (k : α) : k ∈ found ↔ Relation.ReflTransGen (fun a b => b ∈ deps a) start k := by
  constructor
  · intro hk
    obtain ⟨r, hr, h⟩ := h.reachable k hk
    rwa [List.mem_singleton.mp hr] at h
  · intro hk
    induction hk with
    | refl => simpa using h.request_mem start List.mem_cons_self
    | tail _ hd ih => simpa using h.closed _ ih _ hd

/-- Only the dependencies of the keys that are met matter. -/
theorem congr {deps' : α → List α} {seen requests found : List α}
    (h : Visits deps seen requests found) (hd : ∀ k ∈ found, deps k = deps' k) :
    Visits deps' seen requests found := by
  induction h with
  | nil => exact .nil _
  | pass hk _ ih => exact .pass hk (ih hd)
  | @enter seen k requests below after hk _ _ ihb iha =>
    refine .enter hk ?_ (iha fun j hj => hd j (List.mem_append_right _ hj))
    rw [← hd k (by simp)]
    exact ihb fun j hj => hd j (by simp [hj])

end Visits

/-- The keys of a set that were not met and lead to others. -/
def unmet (deps : α → List α) (keys : Set α) (seen : List α) : Set α :=
  {k ∈ keys | deps k ≠ [] ∧ k ∉ seen}

theorem unmet_append_subset (keys : Set α) (seen xs : List α) :
    unmet deps keys (seen ++ xs) ⊆ unmet deps keys seen :=
  fun _ h => ⟨h.1, h.2.1, fun hk => h.2.2 (List.mem_append_left _ hk)⟩

/-- A search has an end when it stays among keys of which finitely many lead to others. -/
theorem exists_visits (keys : Set α) (hfinite : {k ∈ keys | deps k ≠ []}.Finite)
    (hclosed : ∀ k ∈ keys, ∀ d ∈ deps k, d ∈ keys) (seen : List α) {requests : List α}
    (hrequests : ∀ k ∈ requests, k ∈ keys) : ∃ found, Visits deps seen requests found := by
  have hunmet (seen : List α) : (unmet deps keys seen).Finite :=
    hfinite.subset fun k h => ⟨h.1, h.2.1⟩
  have hbound : ∃ n, (unmet deps keys seen).ncard < n := ⟨_, Nat.lt_succ_self _⟩
  obtain ⟨n, hn⟩ := hbound
  -- each key that leads to others is entered once, so their number bounds the depth
  induction n generalizing seen requests with
  | zero => exact absurd hn (Nat.not_lt_zero _)
  | succ n ih =>
    induction requests generalizing seen with
    | nil => exact ⟨[], .nil seen⟩
    | cons k requests ihr =>
      have hrest : ∀ j ∈ requests, j ∈ keys := fun j hj => hrequests j (List.mem_cons_of_mem _ hj)
      have hk : k ∈ keys := hrequests k List.mem_cons_self
      by_cases hseen : k ∈ seen
      · obtain ⟨found, hfound⟩ := ihr seen hrest hn
        exact ⟨found, .pass hseen hfound⟩
      · have hbelow : ∃ below, Visits deps (seen ++ [k]) (deps k) below := by
          by_cases hleaf : deps k = []
          · rw [hleaf]
            exact ⟨[], .nil _⟩
          · refine ih (seen ++ [k]) (hclosed k hk) ?_
            have hlt : (unmet deps keys (seen ++ [k])).ncard < (unmet deps keys seen).ncard :=
              Set.ncard_lt_ncard ⟨unmet_append_subset keys seen [k], fun hsub =>
                (hsub ⟨hk, hleaf, hseen⟩).2.2 (by simp)⟩ (hunmet seen)
            omega
        obtain ⟨below, hbelow⟩ := hbelow
        obtain ⟨after, hafter⟩ := ihr (seen ++ k :: below) hrest
          (lt_of_le_of_lt (Set.ncard_le_ncard (unmet_append_subset keys seen _) (hunmet seen)) hn)
        exact ⟨_, .enter hseen hbelow hafter⟩

end Bundler
