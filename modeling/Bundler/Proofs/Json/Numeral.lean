import Bundler.Json.Printer
import Bundler.Proofs.Decimal.Shortest

/-! The texts of numbers. Whatever is printed for a number has the form that JSON and programs
share: a whole part without leading zeros, then a fraction and an exponent, each of which has a
digit if it is there at all. -/
namespace Bundler

namespace Json

/-- A number without its sign. An empty fraction or exponent is none. -/
structure Numeral where
  whole : List Char
  fraction : List Char
  sign : List Char
  exponent : List Char
  whole_ne_nil : whole ≠ []
  whole_digits : ∀ c ∈ whole, c.isDigit = true
  leading : whole.head? = some '0' → whole = ['0']
  fraction_digits : ∀ c ∈ fraction, c.isDigit = true
  sign_mem : sign ∈ [[], ['-'], ['+']]
  exponent_digits : ∀ c ∈ exponent, c.isDigit = true

namespace Numeral

def fractionText (n : Numeral) : List Char := if n.fraction = [] then [] else '.' :: n.fraction

def exponentText (n : Numeral) : List Char :=
  if n.exponent = [] then [] else 'e' :: n.sign ++ n.exponent

def text (n : Numeral) : List Char := n.whole ++ n.fractionText ++ n.exponentText

/-- A numeral starts with a digit. -/
theorem exists_text_cons (n : Numeral) : ∃ c cs, n.text = c :: cs ∧ c.isDigit = true := by
  obtain ⟨c, cs, hcs⟩ := List.exists_cons_of_ne_nil n.whole_ne_nil
  refine ⟨c, cs ++ n.fractionText ++ n.exponentText, by rw [text, hcs]; rfl, ?_⟩
  exact n.whole_digits c (hcs ▸ List.mem_cons_self ..)

/-- The numeral of a natural number. -/
def ofNat (k : ℕ) : Numeral where
  whole := Nat.toDigits 10 k
  fraction := []
  sign := []
  exponent := []
  whole_ne_nil := Nat.toDigits_ne_nil
  whole_digits _ := Nat.isDigit_of_mem_toDigits (by decide) (by decide)
  leading h := by
    rcases eq_or_ne k 0 with rfl | hk
    · rfl
    · exact absurd h (Decimal.Binary.toDigits_head_ne_zero hk)
  fraction_digits := by simp
  sign_mem := by simp
  exponent_digits := by simp

theorem text_ofNat (k : ℕ) : (ofNat k).text = Nat.toDigits 10 k := by
  simp [text, fractionText, exponentText, ofNat]

theorem isDigit_of_mem_zero {c : Char} (hc : c ∈ ['0']) : c.isDigit = true := by
  rw [List.mem_singleton.1 hc]
  rfl

/-- The numeral of zero as a decimal. -/
def zero : Numeral :=
  { ofNat 0 with
    fraction := ['0']
    fraction_digits := fun _ => isDigit_of_mem_zero }

theorem text_zero : zero.text = ['0', '.', '0'] := by decide

end Numeral

theorem isDigit_of_mem_replicate {k : ℕ} {c : Char} (hc : c ∈ List.replicate k '0') :
    c.isDigit = true := by
  rw [List.eq_of_mem_replicate hc]
  rfl

section Write

variable {d : Decimal.Digits} (hne : d.digits ≠ []) (hhead : d.digits.head? ≠ some '0')
  (hdigits : ∀ c ∈ d.digits, c.isDigit = true)
include hne hhead hdigits

/-- Zeros may follow the digits of a whole part. -/
theorem exists_numeral_whole (k : ℕ) : ∃ n : Numeral,
    d.digits ++ List.replicate k '0' ++ ['.', '0'] = n.text := by
  refine ⟨⟨d.digits ++ List.replicate k '0', ['0'], [], [], by simp [hne], ?_, ?_, fun _ => Numeral.isDigit_of_mem_zero,
    by simp, by simp⟩, by simp [Numeral.text, Numeral.fractionText, Numeral.exponentText]⟩
  · intro c hc
    rcases List.mem_append.1 hc with hc | hc
    · exact hdigits c hc
    · exact isDigit_of_mem_replicate hc
  · rw [List.head?_append_of_ne_nil _ hne]
    exact fun h => absurd h hhead

/-- The point may stand between two digits. -/
theorem exists_numeral_between {k : ℕ} (hk : 0 < k) (hlt : k < d.digits.length) : ∃ n : Numeral,
    d.digits.take k ++ '.' :: d.digits.drop k = n.text := by
  have hfront : d.digits.take k ≠ [] := by simp [hne, Nat.ne_of_gt hk]
  have hback : d.digits.drop k ≠ [] := by simpa using hlt
  refine ⟨⟨d.digits.take k, d.digits.drop k, [], [], hfront,
    fun c hc => hdigits c (List.mem_of_mem_take hc), ?_,
    fun c hc => hdigits c (List.mem_of_mem_drop hc), by simp, by simp⟩, ?_⟩
  · intro h
    rw [← List.take_append_drop k d.digits, List.head?_append_of_ne_nil _ hfront] at hhead
    exact absurd h hhead
  · simp only [Numeral.text, Numeral.fractionText, Numeral.exponentText, if_neg hback, if_true,
      List.append_nil]

/-- The first digit may be the whole part, with an exponent at the end. -/
theorem exists_numeral_scientific {sign : List Char} (hsign : sign ∈ [[], ['-'], ['+']]) (k : ℕ) :
    ∃ n : Numeral, (match d.digits with
      | c :: r :: rs => c :: '.' :: r :: rs
      | ds => ds) ++ 'e' :: sign ++ Nat.toDigits 10 k = n.text := by
  obtain ⟨c, cs, hcs⟩ := List.exists_cons_of_ne_nil hne
  rw [hcs] at hhead hdigits ⊢
  refine ⟨⟨[c], cs, sign, Nat.toDigits 10 k, by simp, ?_, fun h => absurd h hhead,
    fun x hx => hdigits x (List.mem_cons_of_mem _ hx), hsign,
    fun _ => Nat.isDigit_of_mem_toDigits (by decide) (by decide)⟩, ?_⟩
  · exact fun x hx => hdigits x (List.mem_cons.2 (.inl (List.mem_singleton.1 hx)))
  · cases cs <;> simp [Numeral.text, Numeral.fractionText, Numeral.exponentText]

/-- A decimal is written as a numeral in any notation. -/
theorem exists_numeral (notation_ : Decimal.Notation) : ∃ n : Numeral, notation_.write d = n.text := by
  rw [Decimal.Notation.write]
  dsimp only
  split
  · split
    · -- Zeros stand between the point and the digits.
      refine ⟨⟨['0'], List.replicate (-d.point).toNat '0' ++ d.digits, [], [], by simp,
        fun _ => Numeral.isDigit_of_mem_zero, fun _ => rfl, ?_, by simp, by simp⟩, ?_⟩
      · intro c hc
        rcases List.mem_append.1 hc with hc | hc
        · exact isDigit_of_mem_replicate hc
        · exact hdigits c hc
      · simp [Numeral.text, Numeral.fractionText, Numeral.exponentText, hne]
    · split
      · exact exists_numeral_whole hne hhead hdigits _
      · exact exists_numeral_between hne hhead hdigits (by omega) (by omega)
  · refine exists_numeral_scientific hne hhead hdigits ?_ _
    split_ifs <;> simp

end Write

/-- A text is that of a numeral, or of one behind a minus sign. -/
def IsNumber (cs : List Char) : Prop := ∃ n : Numeral, cs = n.text ∨ cs = '-' :: n.text

theorem integerText_ofNat (k : ℕ) : integerText (.ofNat k) = Nat.toDigits 10 k := by
  change (Nat.repr k).toList = _
  rw [Nat.repr_eq_ofList_toDigits, String.toList_ofList]

theorem integerText_negSucc (k : ℕ) : integerText (.negSucc k) = '-' :: Nat.toDigits 10 (k + 1) := by
  change ("-" ++ Nat.repr (k + 1)).toList = _
  rw [String.toList_append, Nat.repr_eq_ofList_toDigits, String.toList_ofList, String.toList_ofList]
  rfl

theorem isNumber_integerText (n : ℤ) : IsNumber (integerText n) := by
  cases n with
  | ofNat k => exact ⟨.ofNat k, .inl (by rw [integerText_ofNat, Numeral.text_ofNat])⟩
  | negSucc k => exact ⟨.ofNat (k + 1), .inr (by rw [integerText_negSucc, Numeral.text_ofNat])⟩

/-- A double has the text of a number, unless it is not finite. -/
theorem decimalText_cases (x : Float) :
    decimalText x = ['n', 'u', 'l', 'l'] ∨ IsNumber (decimalText x) := by
  have hsigned (n : Numeral) : IsNumber
      ((if Nat.pow 2 63 ≤ x.toBits.toNat then ['-'] else []) ++ n.text) := by
    split_ifs
    · exact ⟨n, .inr rfl⟩
    · exact ⟨n, .inl rfl⟩
  rw [decimalText]
  by_cases hfinite : 2046 ≤ (Decimal.Binary.ofBits x.toBits).exponent
  · exact .inl (if_pos hfinite)
  rw [if_neg hfinite]
  by_cases hzero : (Decimal.Binary.ofBits x.toBits).mantissa = 0
  · rw [if_pos hzero, ← Numeral.text_zero]
    exact .inr (hsigned .zero)
  · obtain ⟨hne, hhead, hdigits⟩ := Decimal.Binary.shortest_digits (Nat.pos_of_ne_zero hzero)
      (Decimal.Binary.mantissa_ofBits_lt x.toBits)
    obtain ⟨n, hn⟩ := exists_numeral hne hhead hdigits decimalNotation
    rw [if_neg hzero, hn]
    exact .inr (hsigned n)

end Json
end Bundler
