import Bundler.Proofs.Json.Literal
import Bundler.Proofs.Json.Numeral

/-! How printed numbers are read. The reader takes a whole number and no more, whatever ends it, and
what it makes of the number does not depend on what follows. Integers that fit are read as
themselves. -/
namespace Bundler.Json

open Cursor

/-- The reader gave this value in front of the rest, or it refused the text. -/
def Outcome (result : Option α) (rest : List Char) : Except ParseError (α × Cursor) → Prop
  | .ok (a, t) => result = some a ∧ t.rest = rest
  | .error _ => result = none

/-- What may follow a value inside a text. -/
def Delimited (r : List Char) : Prop := ∀ c ∈ r.head?, c ∈ [',', ']', '}']

/-- What the reader makes of a text does not depend on what follows it. -/
def Settles (f : Cursor → Except ParseError (α × Cursor)) (cs : List Char) : Prop :=
  ∃ result, ∀ r, Delimited r → ∀ s : Cursor, s.rest = cs ++ r → Outcome result r (f s)

theorem delimited_nil : Delimited [] := by simp [Delimited]

/-! ### Digits -/

/-- A text that starts with no digit. -/
def NoDigit (r : List Char) : Prop := ∀ c ∈ r.head?, c.isDigit = false

variable {s : Cursor} {r ds : List Char}

theorem Delimited.noDigit (h : Delimited r) : NoDigit r := by
  intro c hc
  have hmem := h c hc
  simp only [List.mem_cons, List.not_mem_nil, or_false] at hmem
  obtain rfl | rfl | rfl := hmem <;> rfl

theorem digit?_eq_none (h : NoDigit s.rest) : digit? s = none := by
  rw [digit?]
  split
  · rename_i c cs heq
    rw [heq] at h
    rw [if_neg (by simpa using h c rfl)]
  · rfl

theorem digit?_eq_some {c : Char} {cs : List Char} (hs : s.rest = c :: cs) (hc : c.isDigit = true) :
    digit? s = some (c.toNat - '0'.toNat) := by
  rw [digit?, hs]
  exact if_pos hc

@[simp] theorem advanceBy_rest (n : ℕ) (s : Cursor) : (advanceBy n s).rest = s.rest.drop n := by
  induction n generalizing s with
  | zero => rfl
  | succ n ih => rw [advanceBy, ih, Cursor.advance_rest, List.drop_tail]

theorem takeWhile_isDigit (hds : ∀ c ∈ ds, c.isDigit = true) (hr : NoDigit r) :
    (ds ++ r).takeWhile Char.isDigit = ds := by
  rw [List.takeWhile_append_of_pos hds]
  cases r with
  | nil => simp
  | cons c cs => rw [List.takeWhile_cons_of_neg (by simpa using hr c rfl), List.append_nil]

theorem skipDigits_rest (hs : s.rest = ds ++ r) (hds : ∀ c ∈ ds, c.isDigit = true) (hr : NoDigit r) :
    (skipDigits s).rest = r := by
  rw [skipDigits, advanceBy_rest, hs, takeWhile_isDigit hds hr, List.drop_left]

/-- The digits of an exponent are read to their end, or up to where they become too many. -/
theorem exists_exponentDigits (hds : ∀ c ∈ ds, c.isDigit = true) (e : ℕ) :
    ∃ out, ∀ r, NoDigit r → ∀ (s : Cursor) (fuel : ℕ), s.rest = ds ++ r → ds.length ≤ fuel →
      ∃ t, exponentDigits fuel s e = (out, t) ∧ (skipDigits t).rest = r ∧
        (out.isSome = true → t.rest = r) := by
  induction ds generalizing e with
  | nil =>
    refine ⟨some e, fun r hr s fuel hs _ => ⟨s, ?_, skipDigits_rest hs hds hr, fun _ => hs⟩⟩
    cases fuel with
    | zero => rfl
    | succ fuel =>
      rw [exponentDigits, digit?_eq_none (by rwa [hs])]
  | cons c ds ih =>
    have hrest := fun x hx => hds x (List.mem_cons_of_mem c hx)
    by_cases hlarge : maxExponent < e * 10 + (c.toNat - '0'.toNat)
    · refine ⟨none, fun r hr s fuel hs hfuel => ⟨s.advance, ?_, ?_, nofun⟩⟩
      · obtain ⟨fuel, rfl⟩ := Nat.exists_eq_add_one.2 (Nat.zero_lt_of_lt hfuel)
        rw [exponentDigits, digit?_eq_some hs (hds c (List.mem_cons_self ..))]
        exact if_pos hlarge
      · exact skipDigits_rest (by rw [Cursor.advance_rest, hs]; rfl) hrest hr
    · obtain ⟨out, hout⟩ := ih hrest (e * 10 + (c.toNat - '0'.toNat))
      refine ⟨out, fun r hr s fuel hs hfuel => ?_⟩
      obtain ⟨fuel, rfl⟩ := Nat.exists_eq_add_one.2 (Nat.zero_lt_of_lt hfuel)
      rw [exponentDigits, digit?_eq_some hs (hds c (List.mem_cons_self ..))]
      dsimp only
      rw [if_neg hlarge]
      exact hout r hr s.advance fuel (by rw [Cursor.advance_rest, hs]; rfl) (Nat.le_of_succ_le_succ hfuel)

/-- The digits of a fraction are read to their end. -/
theorem exists_fractionDigits (hds : ∀ c ∈ ds, c.isDigit = true) (n k : ℕ) :
    ∃ out : ℕ × ℕ, ∀ r, NoDigit r → ∀ (s : Cursor) (fuel : ℕ), s.rest = ds ++ r →
      ds.length ≤ fuel → ∃ t, fractionDigits fuel s n k = (t, out) ∧ t.rest = r := by
  induction ds generalizing n k with
  | nil =>
    refine ⟨(n, k), fun r hr s fuel hs _ => ⟨s, ?_, hs⟩⟩
    cases fuel with
    | zero => rfl
    | succ fuel => rw [fractionDigits, digit?_eq_none (by rwa [hs])]
  | cons c ds ih =>
    have hrest := fun x hx => hds x (List.mem_cons_of_mem c hx)
    by_cases hlarge : maxNatural < n * 10 + (c.toNat - '0'.toNat)
    · refine ⟨(n, k), fun r hr s fuel hs hfuel => ⟨skipDigits s, ?_, skipDigits_rest hs hds hr⟩⟩
      obtain ⟨fuel, rfl⟩ := Nat.exists_eq_add_one.2 (Nat.zero_lt_of_lt hfuel)
      rw [fractionDigits, digit?_eq_some hs (hds c (List.mem_cons_self ..))]
      exact if_pos hlarge
    · obtain ⟨out, hout⟩ := ih hrest (n * 10 + (c.toNat - '0'.toNat)) (k + 1)
      refine ⟨out, fun r hr s fuel hs hfuel => ?_⟩
      obtain ⟨fuel, rfl⟩ := Nat.exists_eq_add_one.2 (Nat.zero_lt_of_lt hfuel)
      rw [fractionDigits, digit?_eq_some hs (hds c (List.mem_cons_self ..))]
      dsimp only
      rw [if_neg hlarge]
      exact hout r hr s.advance fuel (by rw [Cursor.advance_rest, hs]; rfl) (Nat.le_of_succ_le_succ hfuel)

/-! ### The parts of a number -/

variable (n : Numeral) (negative : Bool) (significand : ℕ)

theorem settles_scaled (exponent : ℤ) :
    Settles (fun s => scaled s negative significand exponent) [] := by
  refine ⟨(scale 4 (UInt64.ofNat significand).toFloat exponent).map fun f =>
    .decimal (if negative then -f else f), fun r _ s hs => ?_⟩
  dsimp only
  rw [scaled]
  cases scale 4 (UInt64.ofNat significand).toFloat exponent with
  | none => exact rfl
  | some f => exact ⟨rfl, hs⟩

/-- The sign of an exponent is passed over. -/
theorem advance_sign {sign : List Char} (hsign : sign ∈ [[], ['-'], ['+']]) (hne : ds ≠ [])
    (hds : ∀ c ∈ ds, c.isDigit = true) (hs : s.rest = sign ++ ds ++ r) :
    (s.rest.head? == some '-') = (sign == ['-']) ∧
      (if (sign == ['-']) || s.rest.head? == some '+' then s.advance else s).rest = ds ++ r := by
  obtain ⟨c, cs, rfl⟩ := List.exists_cons_of_ne_nil hne
  have hdigit := hds c (List.mem_cons_self ..)
  have hminus : c ≠ '-' := by rintro rfl; cases hdigit
  have hplus : c ≠ '+' := by rintro rfl; cases hdigit
  simp only [List.mem_cons, List.not_mem_nil, or_false] at hsign
  rcases hsign with rfl | rfl | rfl <;> simp [hs, hminus, hplus]

theorem settles_exponentPart (hne : n.exponent ≠ []) (start : ℤ) :
    Settles (fun s => exponentPart s negative significand start) n.exponentText := by
  obtain ⟨c, cs, hcs⟩ := List.exists_cons_of_ne_nil hne
  have hdigits := n.exponent_digits
  rw [hcs] at hdigits
  obtain ⟨out, hout⟩ := exists_exponentDigits (fun x hx => hdigits x (List.mem_cons_of_mem c hx))
    (c.toNat - '0'.toNat)
  obtain ⟨settled, hsettled⟩ := settles_scaled negative significand
    (if n.sign == ['-'] then start - out.getD 0 else start + out.getD 0)
  refine ⟨if out.isSome then settled else if significand != 0 && !(n.sign == ['-']) then none else
    some (.decimal (if negative then -0.0 else 0.0)), fun r hr s hs => ?_⟩
  rw [Numeral.exponentText, if_neg hne] at hs
  have hrest : s.advance.rest = n.sign ++ n.exponent ++ r := by
    rw [Cursor.advance_rest, hs]
    rfl
  obtain ⟨hdown, hbehind⟩ := advance_sign n.sign_mem hne n.exponent_digits hrest
  dsimp only
  rw [exponentPart, hdown]
  generalize (if (n.sign == ['-']) || s.advance.rest.head? == some '+' then s.advance.advance
    else s.advance) = u at hbehind ⊢
  rw [hcs] at hbehind
  obtain ⟨t, ht, hskip, hend⟩ := hout r hr.noDigit u.advance u.rest.length
    (by rw [Cursor.advance_rest, hbehind]; rfl) (by rw [hbehind, List.length_append]; simp; omega)
  rw [digit?_eq_some hbehind (hdigits c (List.mem_cons_self ..)), hbehind]
  rw [hbehind] at ht
  dsimp only [List.cons_append] at ht ⊢
  rw [ht]
  cases out with
  | none =>
    dsimp only
    split_ifs with hlarge <;> simp_all [Outcome, Cursor.fail]
  | some e =>
    exact hsettled r hr t (by simpa using hend rfl)

theorem settles_numberEnd (exponent : ℤ) :
    Settles (fun s => numberEnd s negative significand exponent) n.exponentText := by
  by_cases hne : n.exponent = []
  · obtain ⟨settled, hsettled⟩ := settles_scaled negative significand exponent
    refine ⟨settled, fun r hr s hs => ?_⟩
    rw [Numeral.exponentText, if_pos hne] at hs
    have hscaled := hsettled r hr s hs
    dsimp only at hscaled ⊢
    rw [numberEnd]
    split
    · rename_i heq
      exact absurd (hr 'e' (by rw [← List.nil_append r, ← hs, heq]; rfl)) (by decide)
    · rename_i heq
      exact absurd (hr 'E' (by rw [← List.nil_append r, ← hs, heq]; rfl)) (by decide)
    · exact hscaled
  · obtain ⟨settled, hsettled⟩ := settles_exponentPart n negative significand hne exponent
    refine ⟨settled, fun r hr s hs => ?_⟩
    have hpart := hsettled r hr s hs
    rw [Numeral.exponentText, if_neg hne] at hs
    dsimp only at hpart ⊢
    rw [numberEnd, hs]
    exact hpart

/-- What follows the digits of a fraction is no digit. -/
theorem Numeral.noDigit_exponentText (hr : Delimited r) : NoDigit (n.exponentText ++ r) := by
  rw [exponentText]
  split_ifs
  · exact hr.noDigit
  · rintro c ⟨⟩
    rfl

theorem Numeral.noDigit_fractionText (hr : Delimited r) :
    NoDigit (n.fractionText ++ n.exponentText ++ r) := by
  rw [fractionText]
  split_ifs
  · exact n.noDigit_exponentText hr
  · rintro c ⟨⟩
    rfl

theorem settles_fractionPart (hne : n.fraction ≠ []) (before : ℕ) :
    Settles (fun s => fractionPart s negative significand before)
      (n.fractionText ++ n.exponentText) := by
  obtain ⟨c, cs, hcs⟩ := List.exists_cons_of_ne_nil hne
  have hdigits := n.fraction_digits
  rw [hcs] at hdigits
  have hrest (s : Cursor) (r : List Char) (hs : s.rest = n.fractionText ++ n.exponentText ++ r) :
      s.advance.rest = c :: (cs ++ (n.exponentText ++ r)) := by
    rw [Cursor.advance_rest, hs, Numeral.fractionText, if_neg hne, hcs]
    simp
  by_cases hlarge : maxNatural < significand * 10 + (c.toNat - '0'.toNat)
  · obtain ⟨settled, hsettled⟩ := settles_numberEnd n negative significand before
    refine ⟨settled, fun r hr s hs => ?_⟩
    have hadvance := hrest s r hs
    dsimp only
    rw [fractionPart, digit?_eq_some hadvance (hdigits c (List.mem_cons_self ..))]
    dsimp only
    rw [if_pos hlarge]
    exact hsettled r hr _ (skipDigits_rest hadvance hdigits (n.noDigit_exponentText hr))
  · obtain ⟨out, hout⟩ := exists_fractionDigits (fun x hx => hdigits x (List.mem_cons_of_mem c hx))
      (significand * 10 + (c.toNat - '0'.toNat)) 1
    obtain ⟨settled, hsettled⟩ := settles_numberEnd n negative out.1 ((before : ℤ) - out.2)
    refine ⟨settled, fun r hr s hs => ?_⟩
    have hadvance := hrest s r hs
    obtain ⟨t, ht, hend⟩ := hout _ (n.noDigit_exponentText hr) s.advance.advance s.advance.rest.length
      (by rw [Cursor.advance_rest, hadvance]; rfl)
      (by rw [hadvance, List.length_cons, List.length_append]; omega)
    dsimp only
    rw [fractionPart, digit?_eq_some hadvance (hdigits c (List.mem_cons_self ..))]
    dsimp only
    rw [if_neg hlarge, ht]
    exact hsettled r hr t hend

theorem settles_longInteger (hds : ∀ c ∈ ds, c.isDigit = true) :
    Settles (fun s => longInteger s negative significand) (ds ++ n.fractionText ++ n.exponentText) := by
  have hcount (s : Cursor) (r : List Char) (hr : Delimited r)
      (hs : s.rest = ds ++ n.fractionText ++ n.exponentText ++ r) :
      (s.rest.takeWhile Char.isDigit).length = ds.length ∧
        (skipDigits s).rest = n.fractionText ++ n.exponentText ++ r := by
    rw [List.append_assoc, List.append_assoc, ← List.append_assoc n.fractionText] at hs
    refine ⟨?_, skipDigits_rest hs hds (n.noDigit_fractionText hr)⟩
    rw [hs, takeWhile_isDigit hds (n.noDigit_fractionText hr)]
  by_cases hne : n.fraction = []
  · obtain ⟨settled, hsettled⟩ := settles_numberEnd n negative significand ds.length
    refine ⟨settled, fun r hr s hs => ?_⟩
    obtain ⟨hlength, hskip⟩ := hcount s r hr hs
    rw [Numeral.fractionText, if_pos hne, List.nil_append] at hskip
    have hend := hsettled r hr _ hskip
    dsimp only at hend ⊢
    rw [longInteger, hlength]
    split
    · rename_i heq
      rw [hskip, Numeral.exponentText] at heq
      split_ifs at heq
      · exact absurd (hr '.' (by rw [← List.nil_append r, heq]; rfl)) (by decide)
      · cases heq
    · exact hend
  · obtain ⟨settled, hsettled⟩ := settles_fractionPart n negative significand hne ds.length
    refine ⟨settled, fun r hr s hs => ?_⟩
    obtain ⟨hlength, hskip⟩ := hcount s r hr hs
    have hpart := hsettled r hr _ hskip
    rw [Numeral.fractionText, if_neg hne] at hskip
    dsimp only at hpart ⊢
    rw [longInteger, hlength]
    rw [hskip]
    exact hpart

/-- What an integer is read as. Zero with a sign is a decimal, and so is what is too small. -/
def integerOf (negative : Bool) (significand : ℕ) : Json :=
  if !negative then .integer significand
  else if significand = 0 || Nat.pow 2 63 < significand then
    .decimal (-(UInt64.ofNat significand).toFloat)
  else .integer (-significand)

theorem afterInteger_of_delimited (hs : Delimited s.rest) :
    afterInteger s negative significand = .ok (integerOf negative significand, s) := by
  rw [afterInteger, integerOf]
  split
  · rename_i heq
    exact absurd (hs '.' (by rw [heq]; rfl)) (by decide)
  · rename_i heq
    exact absurd (hs 'e' (by rw [heq]; rfl)) (by decide)
  · rename_i heq
    exact absurd (hs 'E' (by rw [heq]; rfl)) (by decide)
  · split_ifs <;> rfl

theorem settles_afterInteger :
    Settles (fun s => afterInteger s negative significand) (n.fractionText ++ n.exponentText) := by
  by_cases hfraction : n.fraction = []
  · by_cases hexponent : n.exponent = []
    · refine ⟨some (integerOf negative significand), fun r hr s hs => ?_⟩
      rw [Numeral.fractionText, if_pos hfraction, Numeral.exponentText, if_pos hexponent] at hs
      dsimp only
      rw [afterInteger_of_delimited negative significand (hs ▸ hr)]
      exact ⟨rfl, hs⟩
    · obtain ⟨settled, hsettled⟩ := settles_exponentPart n negative significand hexponent 0
      refine ⟨settled, fun r hr s hs => ?_⟩
      rw [Numeral.fractionText, if_pos hfraction, List.nil_append] at hs
      have hpart := hsettled r hr s hs
      rw [Numeral.exponentText, if_neg hexponent] at hs
      dsimp only at hpart ⊢
      rw [afterInteger, hs]
      exact hpart
  · obtain ⟨settled, hsettled⟩ := settles_fractionPart n negative significand hfraction 0
    refine ⟨settled, fun r hr s hs => ?_⟩
    have hpart := hsettled r hr s hs
    rw [Numeral.fractionText, if_neg hfraction] at hs
    dsimp only at hpart ⊢
    rw [afterInteger, hs]
    exact hpart

theorem settles_integerDigits (hds : ∀ c ∈ ds, c.isDigit = true) : ∃ result, ∀ r, Delimited r →
    ∀ (s : Cursor) (fuel : ℕ), s.rest = ds ++ n.fractionText ++ n.exponentText ++ r →
      ds.length ≤ fuel → Outcome result r (integerDigits fuel s negative significand) := by
  induction ds generalizing significand with
  | nil =>
    obtain ⟨settled, hsettled⟩ := settles_afterInteger n negative significand
    refine ⟨settled, fun r hr s fuel hs _ => ?_⟩
    have hend := hsettled r hr s hs
    cases fuel with
    | zero => exact hend
    | succ fuel =>
      have hnone : digit? s = none := digit?_eq_none (by
        rw [hs, List.nil_append]
        exact n.noDigit_fractionText hr)
      rw [integerDigits, hnone]
      exact hend
  | cons c ds ih =>
    have hrest := fun x hx => hds x (List.mem_cons_of_mem c hx)
    have hfirst (s : Cursor) (r : List Char)
        (hs : s.rest = c :: ds ++ n.fractionText ++ n.exponentText ++ r) :
        digit? s = some (c.toNat - '0'.toNat) :=
      digit?_eq_some hs (hds c (List.mem_cons_self ..))
    by_cases hlarge : maxNatural < significand * 10 + (c.toNat - '0'.toNat)
    · obtain ⟨settled, hsettled⟩ := settles_longInteger n negative significand hds
      refine ⟨settled, fun r hr s fuel hs hfuel => ?_⟩
      obtain ⟨fuel, rfl⟩ := Nat.exists_eq_add_one.2 (Nat.zero_lt_of_lt hfuel)
      rw [integerDigits, hfirst s r hs]
      dsimp only
      rw [if_pos hlarge]
      exact hsettled r hr s hs
    · obtain ⟨settled, hsettled⟩ := ih (significand * 10 + (c.toNat - '0'.toNat)) hrest
      refine ⟨settled, fun r hr s fuel hs hfuel => ?_⟩
      obtain ⟨fuel, rfl⟩ := Nat.exists_eq_add_one.2 (Nat.zero_lt_of_lt hfuel)
      rw [integerDigits, hfirst s r hs]
      dsimp only
      rw [if_neg hlarge]
      exact hsettled r hr s.advance fuel (by rw [Cursor.advance_rest, hs]; rfl)
        (Nat.le_of_succ_le_succ hfuel)

/-- A numeral is read to its end, if it is not refused. -/
theorem settles_number : Settles (fun s => number s negative) n.text := by
  obtain ⟨c, cs, hcs⟩ := List.exists_cons_of_ne_nil n.whole_ne_nil
  have hdigits := n.whole_digits
  have hleading := n.leading
  rw [hcs] at hdigits hleading
  have htext (r : List Char) :
      n.text ++ r = c :: (cs ++ n.fractionText ++ n.exponentText ++ r) := by
    rw [Numeral.text, hcs]
    rfl
  by_cases hzero : c = '0'
  · have hnil : cs = [] := by simpa [hzero] using hleading (by rw [hzero]; rfl)
    obtain ⟨settled, hsettled⟩ := settles_afterInteger n negative 0
    refine ⟨settled, fun r hr s hs => ?_⟩
    rw [htext, hnil, hzero, List.nil_append] at hs
    have hadvance : s.advance.rest = n.fractionText ++ n.exponentText ++ r := by
      rw [Cursor.advance_rest, hs]
      rfl
    have hnone : digit? s.advance = none := digit?_eq_none (by
      rw [hadvance]
      exact n.noDigit_fractionText hr)
    dsimp only
    rw [number, hs]
    dsimp only
    rw [hnone]
    exact hsettled r hr s.advance hadvance
  · obtain ⟨settled, hsettled⟩ := settles_integerDigits n negative (c.toNat - '0'.toNat)
      (fun x hx => hdigits x (List.mem_cons_of_mem c hx))
    refine ⟨settled, fun r hr s hs => ?_⟩
    rw [htext] at hs
    dsimp only
    rw [number]
    split
    · rename_i heq
      cases hs.symm.trans heq
    · rename_i heq
      exact absurd (List.cons.inj (hs.symm.trans heq)).1 hzero
    · rw [digit?_eq_some hs (hdigits c (List.mem_cons_self ..))]
      refine hsettled r hr s.advance _ (by rw [Cursor.advance_rest, hs]; rfl) ?_
      simp only [hs, List.length_cons, List.length_append]
      omega

/-! ### Integers -/

theorem le_ofDigitChars (ds : List Char) (k : ℕ) : k ≤ Nat.ofDigitChars 10 ds k := by
  induction ds generalizing k with
  | nil => exact Nat.le_refl _
  | cons c ds ih =>
    rw [Nat.ofDigitChars_cons]
    exact Nat.le_trans (by omega) (ih _)

/-- Digits that fit are read as the integer they write. -/
theorem integerDigits_eq (hds : ∀ c ∈ ds, c.isDigit = true) (fuel : ℕ) (hfuel : ds.length ≤ fuel)
    (hr : Delimited r) (hs : s.rest = ds ++ r)
    (hfit : Nat.ofDigitChars 10 ds significand ≤ maxNatural) :
    ∃ t : Cursor, integerDigits fuel s negative significand =
      .ok (integerOf negative (Nat.ofDigitChars 10 ds significand), t) ∧ t.rest = r := by
  induction ds generalizing s significand fuel with
  | nil =>
    rw [List.nil_append] at hs
    have hend := afterInteger_of_delimited negative significand (hs ▸ hr : Delimited s.rest)
    refine ⟨s, ?_, hs⟩
    cases fuel with
    | zero => exact hend
    | succ fuel =>
      rw [integerDigits, digit?_eq_none (hs ▸ hr.noDigit)]
      exact hend
  | cons c ds ih =>
    obtain ⟨fuel, rfl⟩ := Nat.exists_eq_add_one.2 (Nat.zero_lt_of_lt hfuel)
    rw [Nat.ofDigitChars_cons, Nat.mul_comm] at hfit ⊢
    have hsmall := Nat.le_trans (le_ofDigitChars ds _) hfit
    rw [integerDigits, digit?_eq_some hs (hds c (List.mem_cons_self ..))]
    dsimp only
    rw [if_neg (Nat.not_lt.mpr hsmall)]
    exact ih _ (fun x hx => hds x (List.mem_cons_of_mem c hx)) fuel (Nat.le_of_succ_le_succ hfuel)
      (by rw [Cursor.advance_rest, hs]; rfl) hfit

/-- A natural number that fits is read as itself. -/
theorem number_toDigits {k : ℕ} (hk : k ≤ maxNatural) (hr : Delimited r)
    (hs : s.rest = Nat.toDigits 10 k ++ r) :
    ∃ t : Cursor, number s negative = .ok (integerOf negative k, t) ∧ t.rest = r := by
  rcases Nat.eq_zero_or_pos k with rfl | hpos
  · have hadvance : s.advance.rest = r := by
      rw [Cursor.advance_rest, hs]
      rfl
    have hrest : s.rest = '0' :: r := hs
    refine ⟨s.advance, ?_, hadvance⟩
    rw [number, hrest]
    dsimp only
    rw [digit?_eq_none (hadvance ▸ hr.noDigit)]
    exact afterInteger_of_delimited negative 0 (hadvance ▸ hr)
  · obtain ⟨c, cs, hcs⟩ := List.exists_cons_of_ne_nil (Nat.toDigits_ne_nil (n := k) (b := 10))
    have hdigits : ∀ x ∈ c :: cs, x.isDigit = true := fun x hx =>
      Nat.isDigit_of_mem_toDigits (by decide) (by decide) (hcs ▸ hx)
    have hvalue : Nat.ofDigitChars 10 cs (c.toNat - '0'.toNat) = k := by
      have hall := Nat.ofDigitChars_ten_toDigits (n := k)
      rwa [hcs, Nat.ofDigitChars_cons, Nat.mul_zero, Nat.zero_add] at hall
    have hzero : c ≠ '0' := by
      rintro rfl
      exact Decimal.Binary.toDigits_head_ne_zero (Nat.ne_of_gt hpos) (by rw [hcs]; rfl)
    rw [hcs] at hs
    rw [number]
    split
    · rename_i heq
      cases hs.symm.trans heq
    · rename_i heq
      exact absurd (List.cons.inj (hs.symm.trans heq)).1 hzero
    · rw [digit?_eq_some hs (hdigits c (List.mem_cons_self ..))]
      have hread := integerDigits_eq negative (c.toNat - '0'.toNat)
        (fun x hx => hdigits x (List.mem_cons_of_mem c hx)) (s := s.advance) s.rest.length
        (by simp only [hs, List.length_append, List.length_cons]; omega) hr
        (by rw [Cursor.advance_rest, hs]; rfl) (hvalue ▸ hk)
      rwa [hvalue] at hread

/-- An integer that is read is one of 64 bits, with or without a sign. -/
def Fits : Json → Prop
  | .integer m => -2 ^ 63 ≤ m ∧ m < 2 ^ 64
  | _ => True

/-- Whatever is read fits. -/
def Yields (outcome : Except ParseError (Json × Cursor)) : Prop :=
  ∀ v t, outcome = .ok (v, t) → Fits v

theorem yields_fail (s : Cursor) (f : Fault) : Yields (s.fail f) := nofun

theorem yields_failNext (s : Cursor) (f : Fault) : Yields (s.failNext f) := by
  rw [failNext]
  split <;> exact nofun

theorem yields_scaled (exponent : ℤ) (s : Cursor) : Yields (scaled s negative significand exponent) := by
  rw [scaled]
  split
  · exact yields_fail _ _
  · rintro _ _ ⟨⟩
    trivial

theorem yields_exponentPart (start : ℤ) (s : Cursor) :
    Yields (exponentPart s negative significand start) := by
  rw [exponentPart]
  split
  · exact yields_fail _ _
  split
  · exact yields_fail _ _
  split
  · exact yields_scaled _ _ _ _
  · split
    · exact yields_fail _ _
    · rintro _ _ ⟨⟩
      trivial

theorem yields_numberEnd (exponent : ℤ) (s : Cursor) :
    Yields (numberEnd s negative significand exponent) := by
  rw [numberEnd]
  split
  · exact yields_exponentPart _ _ _ _
  · exact yields_exponentPart _ _ _ _
  · exact yields_scaled _ _ _ _

theorem yields_fractionPart (before : ℕ) (s : Cursor) :
    Yields (fractionPart s negative significand before) := by
  rw [fractionPart]
  split
  · exact yields_failNext _ _
  · dsimp only
    split <;> exact yields_numberEnd _ _ _ _

theorem fits_integerOf (h : significand ≤ maxNatural) : Fits (integerOf negative significand) := by
  have hmax : maxNatural < 2 ^ 64 := by decide
  rw [integerOf]
  split
  · constructor <;> omega
  split
  · trivial
  · rename_i hsmall
    rw [Bool.or_eq_true, not_or, decide_eq_true_iff, decide_eq_true_iff, Nat.not_lt] at hsmall
    have hle : significand ≤ 2 ^ 63 := hsmall.2
    constructor <;> omega

theorem yields_afterInteger (h : significand ≤ maxNatural) (s : Cursor) :
    Yields (afterInteger s negative significand) := by
  have hfits := fits_integerOf negative significand h
  rw [integerOf] at hfits
  rw [afterInteger]
  split
  · exact yields_fractionPart _ _ _ _
  · exact yields_exponentPart _ _ _ _
  · exact yields_exponentPart _ _ _ _
  · split_ifs at hfits ⊢ <;> rintro _ _ ⟨⟩ <;> exact hfits

theorem yields_integerDigits (h : significand ≤ maxNatural) (fuel : ℕ) (s : Cursor) :
    Yields (integerDigits fuel s negative significand) := by
  induction fuel generalizing significand s with
  | zero => exact yields_afterInteger _ _ h s
  | succ fuel ih =>
    rw [integerDigits]
    split
    · exact yields_afterInteger _ _ h s
    split
    · rw [longInteger]
      split
      · exact yields_fractionPart _ _ _ _
      · exact yields_numberEnd _ _ _ _
    · exact ih _ (Nat.le_of_not_lt ‹_›) _

theorem digit?_le {d : ℕ} (h : digit? s = some d) : d ≤ 9 := by
  rw [digit?] at h
  split at h
  · rename_i c cs _
    split_ifs at h with hc
    cases h
    have hc' : c.toNat ≤ 57 := by
      rw [Char.isDigit, Bool.and_eq_true, decide_eq_true_iff, decide_eq_true_iff] at hc
      exact UInt32.le_iff_toNat_le.1 hc.2
    change c.toNat - 48 ≤ 9
    omega
  · cases h

theorem yields_number (s : Cursor) : Yields (number s negative) := by
  rw [number]
  split
  · exact yields_fail _ _
  · dsimp only
    split
    · exact yields_failNext _ _
    · exact yields_afterInteger _ _ (Nat.zero_le _) _
  · split
    · exact yields_fail _ _
    · rename_i hdigit
      exact yields_integerDigits _ _ (Nat.le_trans (digit?_le hdigit) (by decide)) _ _

end Bundler.Json
