import Bundler.JavaScript.FrontEnd

/-! The statements of a common form. -/
namespace Bundler.JavaScript

/-- A statement whose end is implied by a line end, an export that vanishes, and a line that
can go on with the statement. -/
def unterminated : List Char := "let a = 'x'\nexport \x7b\x7d;\n/x/.test(a)\n".toList

theorem program_unterminated : (program unterminated).toOption.isSome = true := by decide +kernel

theorem parse_commonForm_unterminated :
    ((program unterminated).toOption.all fun p =>
      (Program.parse (CommonForm.text unterminated p)).toOption.isNone) = true := by
  decide +kernel

/-- The common form of a program need not be a program. -/
theorem not_commonForm_program :
    ¬ ∀ (source : List Char) (p : Program), program source = .ok p →
      ∃ p', program (CommonForm.text source p) = .ok p' := by
  intro h
  have hp := program_unterminated
  have hn := parse_commonForm_unterminated
  generalize unterminated = source at hp hn
  cases hprogram : program source with
  | error e => simp [hprogram, Except.toOption] at hp
  | ok p =>
    obtain ⟨p', hp'⟩ := h source p hprogram
    rw [program] at hp'
    cases hparse : Program.parse (CommonForm.text source p) with
    | error e => simp [hparse] at hp'
    | ok q => simp [hprogram, hparse, Except.toOption] at hn

end Bundler.JavaScript
