import Bundler.Proofs.Json.Literal
import Bundler.Proofs.Json.Numeral

/-! How the texts of values start, and the texts of lists and objects: those of their items and
members, with commas between them. -/
namespace Bundler.Json

open Cursor

/-- What holds of values when it holds of the items and members inside them holds of all. -/
@[elab_as_elim]
theorem inductionOn {motive : Json → Prop} (v : Json) (null : motive null)
    (bool : ∀ b, motive (bool b)) (integer : ∀ n, motive (integer n))
    (decimal : ∀ x, motive (decimal x)) (string : ∀ s, motive (string s))
    (array : ∀ vs, (∀ v ∈ vs, motive v) → motive (array vs))
    (object : ∀ ms, (∀ m ∈ ms, motive m.2) → motive (object ms)) : motive v :=
  @Json.rec motive (fun vs => ∀ v ∈ vs, motive v) (fun ms => ∀ m ∈ ms, motive m.2)
    (fun m => motive m.2) null bool integer decimal string array object (List.forall_mem_nil _)
    (fun _ _ hv hvs => List.forall_mem_cons.2 ⟨hv, hvs⟩) (List.forall_mem_nil _)
    (fun _ _ hm hms => List.forall_mem_cons.2 ⟨hm, hms⟩) (fun _ _ hv => hv) v

theorem isBlank_of_isDigit {c : Char} (hc : c.isDigit = true) : isBlank c = false := by
  by_contra h
  rw [Bool.not_eq_false, isBlank] at h
  simp only [Bool.or_eq_true, beq_iff_eq] at h
  obtain ((rfl | rfl) | rfl) | rfl := h <;> cases hc

/-- A value starts with none of the characters that stand between values. -/
theorem exists_text_head (v : Json) :
    ∃ c cs, v.text = c :: cs ∧ isBlank c = false ∧ c ≠ ']' := by
  have hnumber {cs : List Char} (h : IsNumber cs) :
      ∃ c ds, cs = c :: ds ∧ isBlank c = false ∧ c ≠ ']' := by
    obtain ⟨n, rfl | rfl⟩ := h
    · obtain ⟨c, ds, htext, hdigit⟩ := n.exists_text_cons
      refine ⟨c, ds, htext, isBlank_of_isDigit hdigit, ?_⟩
      rintro rfl
      cases hdigit
    · exact ⟨'-', n.text, rfl, rfl, by decide⟩
  cases v with
  | null => exact ⟨_, _, rfl, rfl, by decide⟩
  | bool b => cases b <;> exact ⟨_, _, rfl, rfl, by decide⟩
  | integer n => exact hnumber (isNumber_integerText n)
  | decimal x =>
    rcases decimalText_cases x with h | h
    · exact ⟨_, _, h, rfl, by decide⟩
    · exact hnumber h
  | string s => exact ⟨_, _, rfl, rfl, by decide⟩
  | array vs => exact ⟨_, _, rfl, rfl, by decide⟩
  | object ms => exact ⟨_, _, rfl, rfl, by decide⟩

/-- The text of items behind another one. -/
def laterItems : List Json → List Char
  | [] => []
  | v :: vs => ',' :: itemsText (v :: vs)

theorem itemsText_cons (v : Json) (vs : List Json) :
    itemsText (v :: vs) = v.text ++ laterItems vs := by
  cases vs with
  | nil => rw [itemsText, laterItems, List.append_nil]
  | cons w vs => simp [itemsText, laterItems]

/-- The text of members behind another one. -/
def laterMembers : List (String × Json) → List Char
  | [] => []
  | m :: ms => ',' :: membersText (m :: ms)

theorem membersText_cons (n : String) (v : Json) (ms : List (String × Json)) :
    membersText ((n, v) :: ms) = literal n.toList ++ ':' :: v.text ++ laterMembers ms := by
  cases ms with
  | nil => rw [membersText, laterMembers, List.append_nil]
  | cons m ms => simp [membersText, laterMembers]

/-! ### Lengths -/

theorem length_le_itemsText (vs : List Json) : vs.length ≤ (itemsText vs).length := by
  induction vs with
  | nil => exact Nat.zero_le _
  | cons v vs ih =>
    obtain ⟨c, cs, htext, -⟩ := exists_text_head v
    rw [itemsText_cons, htext]
    cases vs with
    | nil => simp
    | cons w vs =>
      simp only [laterItems, List.length_cons, List.length_append] at ih ⊢
      omega

theorem length_le_membersText (ms : List (String × Json)) : ms.length ≤ (membersText ms).length := by
  induction ms with
  | nil => exact Nat.zero_le _
  | cons m ms ih =>
    obtain ⟨n, v⟩ := m
    rw [membersText_cons, List.length_append, List.length_append, List.length_cons]
    cases ms with
    | nil =>
      simp only [List.length_cons, List.length_nil]
      omega
    | cons w ms =>
      simp only [laterMembers, List.length_cons] at ih ⊢
      omega

theorem length_text_le {v : Json} {vs : List Json} (hv : v ∈ vs) :
    v.text.length ≤ (itemsText vs).length := by
  induction vs with
  | nil => cases hv
  | cons w vs ih =>
    rw [itemsText_cons, List.length_append]
    rcases List.mem_cons.1 hv with rfl | hv
    · exact Nat.le_add_right _ _
    · cases vs with
      | nil => cases hv
      | cons u us =>
        have := ih hv
        rw [laterItems, List.length_cons]
        omega

theorem length_member_le {m : String × Json} {ms : List (String × Json)} (hm : m ∈ ms) :
    m.2.text.length ≤ (membersText ms).length := by
  induction ms with
  | nil => cases hm
  | cons w ms ih =>
    rw [membersText_cons, List.length_append, List.length_append, List.length_cons]
    rcases List.mem_cons.1 hm with rfl | hm
    · omega
    · cases ms with
      | nil => cases hm
      | cons u us =>
        have := ih hm
        rw [laterMembers, List.length_cons]
        omega

/-! ### Pieces between commas -/

/-- The text of a member, given its name and the text of its value. -/
def memberText (m : List Char × List Char) : List Char := literal m.1 ++ ':' :: m.2

theorem itemsText_eq (vs : List Json) : itemsText vs = [','].intercalate (vs.map text) := by
  induction vs with
  | nil => rfl
  | cons v vs ih =>
    cases vs with
    | nil => rw [itemsText, List.map_singleton, List.intercalate_singleton]
    | cons w vs =>
      rw [itemsText_cons, laterItems, ih, List.map_cons, List.map_cons, List.map_cons,
        List.intercalate_cons_cons]
      simp

theorem membersText_eq (ms : List (String × Json)) : membersText ms =
    [','].intercalate ((ms.map fun m => (m.1.toList, m.2.text)).map memberText) := by
  induction ms with
  | nil => rfl
  | cons m ms ih =>
    rw [membersText_cons, List.map_cons, List.map_cons]
    cases ms with
    | nil => simp [laterMembers, memberText]
    | cons m' ms =>
      rw [laterMembers, ih, List.map_cons, List.map_cons, List.intercalate_cons_cons]
      simp [memberText]

end Bundler.Json
