import Bundler.Proofs.Path.Location

/-! Moves that stay below a directory. What lies above the directory does not matter to them. -/
namespace Bundler

open Component

namespace Location

/-- No step of the moves leads above the directory that they start in, or `depth` levels
below. -/
def staysBelow : ℕ → List Component → Bool
  | _, [] => true
  | 0, .up :: _ => false
  | depth + 1, .up :: cs => staysBelow depth cs
  | depth, .name _ :: cs => staysBelow (depth + 1) cs
  | depth, .root :: cs | depth, .here :: cs => staysBelow depth cs

/-- Such moves lead to the same place below every directory. -/
theorem follow_of_staysBelow {loc : Location} {cs : List Component} (base : Location)
    (h : staysBelow loc.length cs = true) : follow (base ++ loc) cs = base ++ follow loc cs := by
  induction cs generalizing loc with
  | nil => rfl
  | cons c cs ih =>
    have hmove (h : staysBelow (loc.move c).length cs = true)
        (hc : (base ++ loc).move c = base ++ loc.move c) :
        follow (base ++ loc) (c :: cs) = base ++ follow loc (c :: cs) := by
      rw [follow, List.foldl_cons, hc]
      exact ih h
    cases c with
    | up =>
      rcases List.eq_nil_or_concat loc with rfl | ⟨front, s, rfl⟩
      · cases h
      · rw [List.concat_eq_append, List.length_append, List.length_singleton, staysBelow] at h
        refine hmove (by simpa [move] using h) ?_
        simp [move, ← List.append_assoc]
    | name s =>
      refine hmove ?_ (List.append_assoc ..)
      simpa [move, staysBelow] using h
    | root => exact hmove (by simpa [move, staysBelow] using h) rfl
    | here => exact hmove (by simpa [move, staysBelow] using h) rfl

theorem follow_of_staysBelow_zero {cs : List Component} (base : Location)
    (h : staysBelow 0 cs = true) : follow base cs = base ++ follow [] cs := by
  have hbelow : staysBelow ([] : Location).length cs = true := h
  simpa using follow_of_staysBelow base hbelow

end Location
end Bundler
