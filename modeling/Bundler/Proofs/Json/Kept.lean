import Bundler.Proofs.Json.Reread

/-! Which values come back from their text unchanged. Brackets must not be too deep, integers and
members have to be in the form that reading gives them, and each decimal must be one that its own
text is read as. -/
namespace Bundler.Json

open Cursor

/-! ### Members in order -/

variable {name : String} {value_ : Json} {ms : List (String × Json)}

/-- The members stand in the order of their names, and no name comes twice. -/
def Sorted (ms : List (String × Json)) : Prop := (ms.map Prod.fst).Pairwise (· < ·)

instance (ms : List (String × Json)) : Decidable (Sorted ms) := inferInstanceAs (Decidable (List.Pairwise _ _))

theorem mem_keys_insertMember {n : String} :
    n ∈ (insertMember name value_ ms).map Prod.fst ↔ n = name ∨ n ∈ ms.map Prod.fst := by
  induction ms with
  | nil => simp [insertMember]
  | cons m ms ih =>
    rw [insertMember]
    split_ifs with heq hlt
    · rw [beq_iff_eq] at heq
      simp [heq]
    · simp
    · rw [List.map_cons, List.mem_cons, ih, List.map_cons, List.mem_cons]
      tauto

theorem sorted_insertMember (h : Sorted ms) : Sorted (insertMember name value_ ms) := by
  induction ms with
  | nil => exact List.pairwise_singleton _ _
  | cons m ms ih =>
    obtain ⟨hhead, htail⟩ := List.pairwise_cons.1 h
    rw [insertMember]
    split_ifs with heq hlt
    · rw [beq_iff_eq] at heq
      rw [heq]
      exact h
    · refine List.pairwise_cons.2 ⟨fun n hn => ?_, h⟩
      rcases List.mem_cons.1 hn with rfl | hn
      · exact hlt
      · exact String.lt_trans hlt (hhead n hn)
    · refine List.pairwise_cons.2 ⟨fun n hn => ?_, ih htail⟩
      rcases mem_keys_insertMember.1 hn with rfl | hn
      · rw [beq_iff_eq] at heq
        exact Std.lt_of_le_of_ne (String.not_lt.1 hlt) (Ne.symm heq)
      · exact hhead n hn

theorem sorted_sortMembers (ms : List (String × Json)) : Sorted (sortMembers ms) := by
  have hfold (acc : List (String × Json)) (h : Sorted acc) :
      Sorted (ms.foldl (fun acc m => insertMember m.1 m.2 acc) acc) := by
    induction ms generalizing acc with
    | nil => exact h
    | cons m ms ih => exact ih _ (sorted_insertMember h)
  exact hfold [] List.Pairwise.nil

theorem insertMember_of_lt (h : ∀ n ∈ ms.map Prod.fst, n < name) :
    insertMember name value_ ms = ms ++ [(name, value_)] := by
  induction ms with
  | nil => rfl
  | cons m ms ih =>
    have hlt := h m.1 (List.mem_cons_self ..)
    have hne : name ≠ m.1 := by
      intro heq
      rw [heq] at hlt
      exact String.lt_irrefl _ hlt
    rw [insertMember, if_neg (by simpa using hne), if_neg (String.lt_asymm hlt),
      ih fun n hn => h n (List.mem_cons_of_mem _ hn), List.cons_append]

/-- Members in order stay as they are. -/
theorem Sorted.sortMembers_eq (h : Sorted ms) : sortMembers ms = ms := by
  have hfold (acc rest : List (String × Json)) (h : Sorted (acc ++ rest)) :
      rest.foldl (fun acc m => insertMember m.1 m.2 acc) acc = acc ++ rest := by
    induction rest generalizing acc with
    | nil => simp
    | cons m rest ih =>
      have hsplit := h
      rw [Sorted, List.map_append, List.map_cons, List.pairwise_append] at hsplit
      rw [List.foldl_cons, insertMember_of_lt fun n hn => hsplit.2.2 n hn m.1 (List.mem_cons_self ..),
        ih _ (by simpa using h), List.append_assoc, List.singleton_append]
  exact hfold [] ms h

/-! ### Values that stay -/

/-- The value is read back from its text as it is, where that many brackets may be opened. -/
inductive Kept : ℕ → Json → Prop
  | null {depth : ℕ} : Kept depth null
  | bool {depth : ℕ} {b : Bool} : Kept depth (bool b)
  | integer {depth : ℕ} {n : ℤ} (hlow : -2 ^ 63 ≤ n) (hhigh : n < 2 ^ 64) : Kept depth (integer n)
  | decimal {depth : ℕ} {x : Float} (h : parse (decimalText x) = .ok (decimal x)) :
      Kept depth (decimal x)
  | string {depth : ℕ} {s : String} : Kept depth (string s)
  | array {depth : ℕ} {vs : List Json} (h : ∀ v ∈ vs, Kept depth v) : Kept (depth + 1) (array vs)
  | object {depth : ℕ} {ms : List (String × Json)} (hsorted : Sorted ms)
      (h : ∀ m ∈ ms, Kept depth m.2) : Kept (depth + 1) (object ms)

theorem reread_integer {n : ℤ} (hlow : -2 ^ 63 ≤ n) (hhigh : n < 2 ^ 64) (depth : ℕ) :
    reread (integer n) depth = some (integer n) := by
  simp only [reread]
  refine toOption_parse ?_
  have hmax : maxNatural = 2 ^ 64 - 1 := rfl
  cases n with
  | ofNat k =>
    have hk : k ≤ maxNatural := by
      have hlt : (k : ℤ) < 2 ^ 64 := hhigh
      omega
    obtain ⟨c, cs, hcs⟩ := List.exists_cons_of_ne_nil (Nat.toDigits_ne_nil (n := k) (b := 10))
    obtain ⟨t, ht, hrest⟩ := number_toDigits false hk delimited_nil
      (s := ⟨integerText (.ofNat k), 1, 0⟩) (by rw [integerText_ofNat, List.append_nil])
    rw [value_digit (by rw [integerText_ofNat, hcs]) (Nat.isDigit_of_mem_toDigits (n := k) (b := 10)
      (by decide) (by decide) (hcs ▸ List.mem_cons_self ..)), ht]
    exact ⟨rfl, hrest⟩
  | negSucc k =>
    have hk : k + 1 ≤ 2 ^ 63 := by
      have hle : -2 ^ 63 ≤ Int.negSucc k := hlow
      omega
    obtain ⟨t, ht, hrest⟩ := number_toDigits (k := k + 1) true (by omega) delimited_nil
      (s := Cursor.advance ⟨integerText (.negSucc k), 1, 0⟩)
      (by rw [Cursor.advance_rest, integerText_negSucc, List.append_nil]; rfl)
    have hinteger : integerOf true (k + 1) = integer (Int.negSucc k) := by
      rw [integerOf, if_neg (by decide), if_neg]
      · rfl
      · rw [Bool.or_eq_true, decide_eq_true_iff, decide_eq_true_iff, not_or]
        exact ⟨by omega, Nat.not_lt.2 hk⟩
    rw [value_minus (integerText_negSucc k), ht, hinteger]
    exact ⟨rfl, hrest⟩

/-- What is read is no integer that does not fit. -/
theorem yields_value (depth : ℕ) (s : Cursor) : Yields (value depth s) := by
  have hword (s : Cursor) (v : Json) (hv : Fits v) (cs : List Char) : Yields (word s v cs) := by
    induction cs generalizing s with
    | nil =>
      rintro _ _ ⟨⟩
      exact hv
    | cons c cs ih =>
      rw [word]
      split
      · exact yields_fail _ _
      · split
        · exact ih _
        · exact yields_fail _ _
  have hbind {α : Type} (p : Except ParseError (α × Cursor)) (build : α → Json)
      (hbuild : ∀ a, Fits (build a)) : Yields (p >>= fun a => .ok (build a.1, a.2)) := by
    cases p with
    | error e => rintro _ _ ⟨⟩
    | ok a =>
      rintro _ _ ⟨⟩
      exact hbuild a.1
  rw [value.eq_def]
  dsimp only
  split
  · exact yields_failNext _ _
  · exact hword _ null trivial _
  · exact hword _ (bool true) trivial _
  · exact hword _ (bool false) trivial _
  · exact yields_number _ _
  · exact hbind _ string fun _ => trivial
  · split
    · exact yields_failNext _ _
    · exact hbind _ array fun _ => trivial
  · split
    · exact yields_failNext _ _
    · exact hbind _ (fun ms => object (sortMembers ms)) fun _ => trivial
  · split
    · exact yields_number _ _
    · exact yields_failNext _ _

theorem fits_of_parse {cs : List Char} {v : Json} (h : parse cs = .ok v) : Fits v := by
  rw [parse] at h
  cases hvalue : value depthLimit ⟨cs, 1, 0⟩ with
  | error e =>
    rw [hvalue] at h
    cases h
  | ok a =>
    rw [hvalue] at h
    dsimp only [bind, Except.bind] at h
    split at h
    · cases h
      exact yields_value _ _ _ _ hvalue
    · rw [failNext] at h
      split at h <;> cases h

theorem toOption_eq_some {ε α : Type} {p : Except ε α} {a : α} : p.toOption = some a ↔ p = .ok a := by
  cases p <;> simp [Except.toOption]

theorem mapM_eq_self {α : Type} {f : α → Option α} {xs : List α} :
    xs.mapM f = some xs ↔ ∀ x ∈ xs, f x = some x := by
  induction xs with
  | nil => simp
  | cons x xs ih =>
    rw [List.mapM_cons, List.forall_mem_cons, ← ih]
    cases f x <;> cases xs.mapM f <;> simp

theorem keys_of_mapM {f : Json → Option Json} {ms ms' : List (String × Json)}
    (h : ms.mapM (named f) = some ms') : ms'.map Prod.fst = ms.map Prod.fst := by
  induction ms generalizing ms' with
  | nil =>
    cases h
    rfl
  | cons m ms ih =>
    rw [List.mapM_cons, named] at h
    cases hv : f m.2 with
    | none => simp [hv] at h
    | some v =>
      cases hms : ms.mapM (named f) with
      | none => simp [hv, hms] at h
      | some rest =>
        simp only [hv, hms, Option.map_some, Option.bind_eq_bind, Option.bind_some, Option.pure_def,
          Option.some.injEq] at h
        rw [← h, List.map_cons, List.map_cons, ih hms]

theorem rereadMembers_eq_iff {f : Json → Option Json} :
    (ms.mapM (named f)).map (fun ms => object (sortMembers ms)) = some (object ms) ↔
      Sorted ms ∧ ∀ m ∈ ms, f m.2 = some m.2 := by
  have hself : ms.mapM (named f) = some ms ↔ ∀ m ∈ ms, f m.2 = some m.2 := by
    rw [mapM_eq_self]
    refine forall₂_congr fun m _ => ?_
    rw [named]
    cases f m.2 <;> simp [Prod.ext_iff]
  rw [← hself, Option.map_eq_some_iff]
  constructor
  · rintro ⟨ms', hms', heq⟩
    have hsort : sortMembers ms' = ms := object.inj heq
    have hsorted : Sorted ms := hsort ▸ sorted_sortMembers ms'
    have hsorted' : Sorted ms' := by
      rw [Sorted, keys_of_mapM hms']
      exact hsorted
    rw [hsorted'.sortMembers_eq] at hsort
    rw [hsort] at hms'
    exact ⟨hsorted, hms'⟩
  · rintro ⟨hsorted, hms⟩
    exact ⟨ms, hms, by rw [hsorted.sortMembers_eq]⟩

/-- The values that stay are those that their text is read as. -/
theorem reread_eq_self_iff (v : Json) (depth : ℕ) : v.reread depth = some v ↔ Kept depth v := by
  induction v using inductionOn generalizing depth with
  | null => exact ⟨fun _ => .null, fun _ => by simp only [reread]⟩
  | bool b => exact ⟨fun _ => .bool, fun _ => by simp only [reread]⟩
  | string s => exact ⟨fun _ => .string, fun _ => by simp only [reread]⟩
  | integer n =>
    constructor
    · intro h
      simp only [reread] at h
      obtain ⟨hlow, hhigh⟩ := fits_of_parse (toOption_eq_some.1 h)
      exact .integer hlow hhigh
    · rintro ⟨⟩
      exact reread_integer ‹_› ‹_› depth
  | decimal x =>
    simp only [reread]
    rw [toOption_eq_some]
    constructor
    · exact .decimal
    · rintro ⟨⟩
      assumption
  | array vs ih =>
    cases depth with
    | zero => exact ⟨fun h => by simp [reread] at h, by rintro ⟨⟩⟩
    | succ depth =>
      have hitems : (array vs).reread (depth + 1) = some (array vs) ↔
          ∀ v ∈ vs, v.reread depth = some v := by
        simp only [reread]
        rw [rereadItems_eq, ← mapM_eq_self, Option.map_eq_some_iff]
        simp
      rw [hitems]
      constructor
      · exact fun h => .array fun v hv => (ih v hv depth).1 (h v hv)
      · rintro ⟨⟩ v hv
        exact (ih v hv depth).2 (‹∀ v ∈ vs, Kept depth v› v hv)
  | object ms ih =>
    cases depth with
    | zero => exact ⟨fun h => by simp [reread] at h, by rintro ⟨⟩⟩
    | succ depth =>
      have hmembers : (object ms).reread (depth + 1) = some (object ms) ↔
          Sorted ms ∧ ∀ m ∈ ms, m.2.reread depth = some m.2 := by
        simp only [reread]
        rw [rereadMembers_eq, rereadMembers_eq_iff]
      rw [hmembers]
      constructor
      · exact fun h => .object h.1 fun m hm => (ih m hm depth).1 (h.2 m hm)
      · rintro ⟨⟩
        exact ⟨‹_›, fun m hm => (ih m hm depth).2 (‹∀ m ∈ ms, Kept depth m.2› m hm)⟩

end Bundler.Json
