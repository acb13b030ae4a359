import Bundler.Decimal.Shortest
import Mathlib.Data.List.DropRight
import Mathlib.Algebra.Order.Field.Basic
import Mathlib.Algebra.Order.Field.Power
import Mathlib.Data.Rat.Cast.Order
import Mathlib.Tactic.Linarith
import Mathlib.Tactic.NormNum
import Mathlib.Tactic.Positivity
import Mathlib.Tactic.Ring

/-! The digits of a double. Neighbours on the grid of seventeen digits are closer to each other than
the two ends of the interval of reals that round to a double, so one of them lies inside. Hence
digits are always found, and the first one is not zero. -/
namespace Bundler.Decimal

/-- The number that a fraction stands for. -/
def Ratio.value (r : Ratio) : ℚ := r.num / r.den

theorem Ratio.le_iff {a b : Ratio} (ha : 0 < a.den) (hb : 0 < b.den) :
    a.le b = true ↔ a.value ≤ b.value := by
  have ha' : (0 : ℚ) < a.den := by exact_mod_cast ha
  have hb' : (0 : ℚ) < b.den := by exact_mod_cast hb
  rw [Ratio.le, decide_eq_true_iff, value, value, div_le_div_iff₀ ha' hb']
  exact_mod_cast Iff.rfl

namespace Binary

variable {b : Binary} {point : ℤ}

/-- A quarter of a unit of the last place. -/
def quarter (b : Binary) : ℚ := 2 ^ ((b.exponent : ℤ) - 1076)

theorem quarter_pos (b : Binary) : 0 < b.quarter := by
  rw [quarter]
  positivity

theorem den_quarters_pos (b : Binary) (n : ℕ) : 0 < (b.quarters n).den :=
  Nat.pow_pos (by decide)

theorem value_quarters (b : Binary) (n : ℕ) : (b.quarters n).value = n * b.quarter := by
  have hpow : (2 : ℚ) ^ (b.exponent - 1076) / 2 ^ (1076 - b.exponent) = b.quarter := by
    rw [quarter, div_eq_iff (by positivity), ← zpow_natCast, ← zpow_natCast,
      ← zpow_add₀ (by norm_num)]
    congr 1
    omega
  rw [Ratio.value, quarters, ← hpow]
  push_cast [Nat.pow_eq]
  ring

/-- The number itself. -/
def value (b : Binary) : ℚ := (b.quarters (4 * b.mantissa)).value

/-- How many quarters of a unit the interval of a double reaches below it. -/
def below (b : Binary) : ℕ := if b.mantissa = Nat.pow 2 52 ∧ 0 < b.exponent then 1 else 2

theorem lower_eq (b : Binary) : b.lower = b.quarters (4 * b.mantissa - b.below) := by
  rw [lower, below]
  split_ifs <;> rfl

theorem value_lower (hm : 0 < b.mantissa) : b.lower.value = b.value - b.below * b.quarter := by
  have hle : b.below ≤ 4 * b.mantissa := by
    rw [below]
    split_ifs <;> omega
  rw [lower_eq, value_quarters, value, value_quarters]
  push_cast [hle]
  ring

theorem value_upper (b : Binary) : b.upper.value = b.value + 2 * b.quarter := by
  rw [upper, value_quarters, value, value_quarters]
  push_cast
  ring

/-- What lies strictly between the ends reads back as the double. -/
theorem reads_of_lt (hm : 0 < b.mantissa) {r : Ratio} (hr : 0 < r.den)
    (hlow : b.value - b.below * b.quarter < r.value) (hhigh : r.value < b.value + 2 * b.quarter) :
    b.reads r = true := by
  have hlower : 0 < b.lower.den := by
    rw [lower_eq]
    exact den_quarters_pos ..
  have hupper : 0 < b.upper.den := den_quarters_pos ..
  rw [← value_lower hm] at hlow
  rw [← value_upper] at hhigh
  rw [reads]
  split_ifs
  · rw [Bool.and_eq_true, Ratio.le_iff hlower hr, Ratio.le_iff hr hupper]
    exact ⟨hlow.le, hhigh.le⟩
  · rw [Bool.and_eq_true, Bool.not_eq_true', Bool.not_eq_true', ← Bool.not_eq_true,
      ← Bool.not_eq_true, Ratio.le_iff hr hlower, Ratio.le_iff hupper hr]
    exact ⟨hlow.not_ge, hhigh.not_ge⟩

/-! ### The grid of a number of digits -/

/-- The distance of neighbours on the grid of `count` digits. -/
def step (point : ℤ) (count : ℕ) : ℚ := 10 ^ (point - count)

theorem step_pos (point : ℤ) (count : ℕ) : 0 < step point count := by
  rw [step]
  positivity

theorem step_eq (point : ℤ) (count : ℕ) :
    (10 : ℚ) ^ (point - count).toNat / 10 ^ (count - point).toNat = step point count := by
  rw [step, div_eq_iff (by positivity), ← zpow_natCast, ← zpow_natCast, ← zpow_add₀ (by norm_num)]
  congr 1
  omega

/-- The number of the grid point at or below the double. -/
def floor (b : Binary) (point : ℤ) (count : ℕ) : ℕ :=
  (b.quarters (4 * b.mantissa)).num * Nat.pow 10 (count - point).toNat /
    ((b.quarters (4 * b.mantissa)).den * Nat.pow 10 (point - count).toNat)

theorem floor_le (b : Binary) (point : ℤ) (count : ℕ) :
    b.floor point count * step point count ≤ b.value ∧
      b.value < (b.floor point count + 1) * step point count := by
  have hden : 0 < (b.quarters (4 * b.mantissa)).den := den_quarters_pos ..
  have hdown : 0 < Nat.pow 10 (point - count).toNat := Nat.pow_pos (by decide)
  have hle := Nat.div_mul_le_self ((b.quarters (4 * b.mantissa)).num * Nat.pow 10 (count - point).toNat)
    ((b.quarters (4 * b.mantissa)).den * Nat.pow 10 (point - count).toNat)
  have hlt := Nat.lt_div_mul_add (a := (b.quarters (4 * b.mantissa)).num * Nat.pow 10 (count - point).toNat)
    (Nat.mul_pos hden hdown)
  rw [← floor] at hle hlt
  have hle' : (b.floor point count : ℚ) *
      ((b.quarters (4 * b.mantissa)).den * 10 ^ (point - count).toNat) ≤
      (b.quarters (4 * b.mantissa)).num * 10 ^ (count - point).toNat := by
    exact_mod_cast hle
  have hlt' : ((b.quarters (4 * b.mantissa)).num : ℚ) * 10 ^ (count - point).toNat <
      b.floor point count * ((b.quarters (4 * b.mantissa)).den * 10 ^ (point - count).toNat) +
        (b.quarters (4 * b.mantissa)).den * 10 ^ (point - count).toNat := by
    exact_mod_cast hlt
  have hden' : (0 : ℚ) < (b.quarters (4 * b.mantissa)).den := by exact_mod_cast hden
  rw [← step_eq, value, Ratio.value]
  constructor
  · rw [mul_div_assoc', div_le_div_iff₀ (by positivity) hden']
    linarith
  · rw [mul_div_assoc', div_lt_div_iff₀ hden' (by positivity)]
    linarith

/-- The whole part of the double times a power of ten. -/
def scaled (b : Binary) (k : ℕ) : ℕ :=
  (b.quarters (4 * b.mantissa)).num * Nat.pow 10 k / (b.quarters (4 * b.mantissa)).den

theorem scaled_le (b : Binary) (k : ℕ) : (b.scaled k : ℚ) ≤ b.value * 10 ^ k := by
  have hden : 0 < (b.quarters (4 * b.mantissa)).den := den_quarters_pos ..
  have hden' : (0 : ℚ) < (b.quarters (4 * b.mantissa)).den := by exact_mod_cast hden
  have hmul := Nat.div_mul_le_self ((b.quarters (4 * b.mantissa)).num * Nat.pow 10 k)
    (b.quarters (4 * b.mantissa)).den
  rw [← scaled] at hmul
  rw [value, Ratio.value, div_mul_eq_mul_div, le_div_iff₀ hden']
  exact_mod_cast hmul

theorem scaled_pos (hm : 0 < b.mantissa) {k : ℕ} (hk : 2 ^ 1076 ≤ Nat.pow 10 k) :
    0 < b.scaled k := by
  have hden : 0 < (b.quarters (4 * b.mantissa)).den := den_quarters_pos ..
  have hnum : 0 < (b.quarters (4 * b.mantissa)).num :=
    Nat.mul_pos (by omega) (Nat.pow_pos (by decide))
  refine Nat.div_pos ?_ hden
  calc (b.quarters (4 * b.mantissa)).den ≤ 2 ^ 1076 := Nat.pow_le_pow_right (by decide) (by omega)
    _ ≤ Nat.pow 10 k := hk
    _ ≤ _ := Nat.le_mul_of_pos_left _ hnum

/-- The whole part has as many digits as the double has places above `-k`. -/
theorem pow_le_value {k : ℕ} (h : 0 < b.scaled k) :
    (10 : ℚ) ^ (((Nat.toDigits 10 (b.scaled k)).length : ℤ) - k - 1) ≤ b.value := by
  have hlength := Nat.length_toDigits_pos (b := 10) (n := b.scaled k)
  obtain ⟨places, hplaces⟩ := Nat.exists_eq_add_of_lt hlength
  rw [Nat.zero_add] at hplaces
  have hpow : 10 ^ places ≤ b.scaled k := by
    rcases Nat.eq_zero_or_pos places with hzero | hpos
    · rwa [hzero, pow_zero]
    · by_contra hlt
      have hshort := (Nat.length_toDigits_le_iff (by decide) hpos).2 (Nat.lt_of_not_le hlt)
      omega
  have hexponent : ((Nat.toDigits 10 (b.scaled k)).length : ℤ) - k - 1 = (places : ℤ) - (k : ℤ) := by
    omega
  rw [hexponent, zpow_sub₀ (by norm_num), zpow_natCast, zpow_natCast, div_le_iff₀ (by positivity)]
  calc (10 : ℚ) ^ places ≤ b.scaled k := by exact_mod_cast hpow
    _ ≤ _ := b.scaled_le k

/-- A double is at least as large as the place of its first digit. -/
theorem le_value (hm : 0 < b.mantissa) : (10 : ℚ) ^ (b.point - 1) ≤ b.value := by
  have hfit : 2 ^ 1076 ≤ Nat.pow 10 350 := by decide +kernel
  have hle := pow_le_value (scaled_pos hm hfit)
  rw [point]
  exact hle

/-- Seventeen digits are close enough together. -/
theorem step_lt (hm : 0 < b.mantissa) (hbound : b.mantissa < 2 ^ 53) :
    step b.point 17 < (b.below + 2) * b.quarter := by
  have hvalue := le_value hm
  have hstep : (10 : ℚ) ^ (b.point - 1) = 10 ^ 16 * step b.point 17 := by
    rw [step, ← zpow_natCast, ← zpow_add₀ (by norm_num)]
    congr 1
    push_cast
    ring
  rw [hstep, value, value_quarters] at hvalue
  push_cast at hvalue
  have hquarter := b.quarter_pos
  have hmantissa : 4 * (b.mantissa : ℚ) < (b.below + 2) * 10 ^ 16 := by
    rw [below]
    split_ifs with hedge
    · rw [hedge.1]
      norm_num
    · have hlt : (b.mantissa : ℚ) < 2 ^ 53 := by exact_mod_cast hbound
      push_cast
      linarith
  nlinarith

/-- The point of the grid with this number. -/
def gridPoint (point : ℤ) (count n : ℕ) : Ratio :=
  ⟨n * Nat.pow 10 (point - count).toNat, Nat.pow 10 (count - point).toNat⟩

theorem value_gridPoint (point : ℤ) (count n : ℕ) :
    (gridPoint point count n).value = n * step point count := by
  rw [gridPoint, Ratio.value, ← step_eq]
  push_cast [Nat.pow_eq]
  ring

theorem onGrid?_eq (b : Binary) (point : ℤ) (count : ℕ) :
    b.onGrid? point count =
      match b.reads (gridPoint point count (b.floor point count)) && b.floor point count != 0,
        b.reads (gridPoint point count (b.floor point count + 1)) with
      | true, true =>
        let num := (b.quarters (4 * b.mantissa)).num * Nat.pow 10 (count - point).toNat
        let den := (b.quarters (4 * b.mantissa)).den * Nat.pow 10 (point - count).toNat
        if 2 * (num % den) < den || (2 * (num % den) == den && b.floor point count % 2 == 0) then
          some (b.floor point count)
        else some (b.floor point count + 1)
      | true, false => some (b.floor point count)
      | false, true => some (b.floor point count + 1)
      | false, false => none := rfl

/-- What the grid gives is no zero. -/
theorem onGrid?_ne_zero {count n : ℕ} (h : b.onGrid? point count = some n) : n ≠ 0 := by
  rw [onGrid?_eq] at h
  split at h
  · rename_i hfloor _
    rw [Bool.and_eq_true, bne_iff_ne] at hfloor
    dsimp only at h
    split_ifs at h <;> cases h
    · exact hfloor.2
    · exact Nat.succ_ne_zero _
  · rename_i hfloor _
    rw [Bool.and_eq_true, bne_iff_ne] at hfloor
    cases h
    exact hfloor.2
  · cases h
    exact Nat.succ_ne_zero _
  · cases h

theorem onGrid?_isSome {count : ℕ} (h : b.reads (gridPoint point count (b.floor point count)) = true ∧
    b.floor point count ≠ 0 ∨ b.reads (gridPoint point count (b.floor point count + 1)) = true) :
    (b.onGrid? point count).isSome = true := by
  rw [onGrid?_eq]
  split
  · dsimp only
    split_ifs <;> rfl
  · rfl
  · rfl
  · rename_i hfloor hnext
    rcases h with ⟨hreads, hne⟩ | hreads
    · simp [hreads, hne] at hfloor
    · cases hnext.symm.trans hreads

/-- Seventeen digits are always enough. -/
theorem onGrid?_seventeen (hm : 0 < b.mantissa) (hbound : b.mantissa < 2 ^ 53) :
    (b.onGrid? b.point 17).isSome = true := by
  obtain ⟨hfloor, hnext⟩ := b.floor_le b.point 17
  have hstep := step_lt hm hbound
  have hpos := step_pos b.point 17
  have hden (n : ℕ) : 0 < (gridPoint b.point 17 n).den := Nat.pow_pos (by decide)
  refine onGrid?_isSome ?_
  rcases lt_or_ge (b.value - b.below * b.quarter) (b.floor b.point 17 * step b.point 17) with
    hnear | hfar
  · left
    constructor
    · refine reads_of_lt hm (hden _) ?_ ?_ <;> rw [value_gridPoint]
      · exact hnear
      · linarith [b.quarter_pos]
    · intro hzero
      have hvalue := le_value hm
      rw [hzero] at hnext
      have hone : step b.point 17 ≤ 10 ^ (b.point - 1) := by
        rw [step]
        exact zpow_le_zpow_right₀ (by norm_num) (by omega)
      push_cast at hnext
      linarith
  · right
    refine reads_of_lt hm (hden _) ?_ ?_ <;> rw [value_gridPoint] <;> push_cast
    · have hbelow : 0 ≤ b.below * b.quarter := mul_nonneg (Nat.cast_nonneg _) b.quarter_pos.le
      linarith
    · linarith

/-! ### The digits -/

theorem toDigits_head_ne_zero {n : ℕ} (hn : n ≠ 0) : (Nat.toDigits 10 n).head? ≠ some '0' := by
  induction n using Nat.strong_induction_on with
  | _ n ih =>
    rw [Nat.toDigits_eq_if (by decide)]
    split_ifs with hlt
    · have hdigit : ∀ d < 10, d ≠ 0 → [d.digitChar].head? ≠ some '0' := by decide
      exact hdigit n hlt hn
    · rw [List.head?_append_of_ne_nil _ Nat.toDigits_ne_nil]
      exact ih (n / 10) (by omega) (by omega)

theorem dropZeros_isPrefix (ds : List Char) : dropZeros ds <+: ds := List.rdropWhile_prefix _ ds

theorem dropZeros_ne_nil {ds : List Char} (hne : ds ≠ []) (hhead : ds.head? ≠ some '0') :
    dropZeros ds ≠ [] := by
  obtain ⟨c, cs, rfl⟩ := List.exists_cons_of_ne_nil hne
  intro hnil
  have hzero := List.rdropWhile_eq_nil_iff.1 hnil c (List.mem_cons_self ..)
  exact hhead (congrArg some (beq_iff_eq.1 hzero))

/-- There are digits, and the first one is no zero. -/
theorem shortest_digits (hm : 0 < b.mantissa) (hbound : b.mantissa < 2 ^ 53) :
    b.shortest.digits ≠ [] ∧ b.shortest.digits.head? ≠ some '0' ∧
      ∀ c ∈ b.shortest.digits, c.isDigit = true := by
  rw [shortest]
  dsimp only
  split
  · rename_i hnone
    rw [List.findSome?_eq_none_iff] at hnone
    have hlast := onGrid?_seventeen hm hbound
    rw [← Option.isSome_map, hnone 16 (by decide)] at hlast
    cases hlast
  · rename_i count n hsome
    obtain ⟨k, -, hgrid⟩ := List.exists_of_findSome?_eq_some hsome
    obtain ⟨m, hgrid, hpair⟩ := Option.map_eq_some_iff.1 hgrid
    cases hpair
    have hhead := toDigits_head_ne_zero (onGrid?_ne_zero hgrid)
    have hne := dropZeros_ne_nil Nat.toDigits_ne_nil hhead
    obtain ⟨zeros, hzeros⟩ := dropZeros_isPrefix (Nat.toDigits 10 n)
    refine ⟨hne, ?_, fun c hc => ?_⟩
    · rwa [← hzeros, List.head?_append_of_ne_nil _ hne] at hhead
    · exact Nat.isDigit_of_mem_toDigits (by decide) (by decide)
        ((dropZeros_isPrefix _).subset hc)

/-- The mantissa of a double is that small. -/
theorem mantissa_ofBits_lt (bits : UInt64) : (ofBits bits).mantissa < 2 ^ 53 := by
  have hfraction : bits.toNat % Nat.pow 2 52 < 2 ^ 52 := Nat.mod_lt _ (by decide)
  rw [ofBits]
  split_ifs
  · exact lt_trans hfraction (by decide)
  · calc bits.toNat % Nat.pow 2 52 + Nat.pow 2 52 < 2 ^ 52 + 2 ^ 52 :=
        Nat.add_lt_add_right hfraction _
      _ = 2 ^ 53 := rfl

end Binary
end Bundler.Decimal
