import Bundler.Proofs.JavaScript.Cursor

/-! Blanks and comments. Skipping them leads to a later place of the text, it stops where
there is nothing more to skip, and it does not matter whether a comment is skipped or a
semicolon is implied behind it. -/
namespace Bundler.JavaScript

section
variable (markup : Bool) (start : Cursor) (pos : ℕ) (c : Char) (cs : List Char)

theorem skipFrom_blank_cons : skipFrom markup .blank start pos (c :: cs) =
    if isBlank c then skipFrom markup .blank start (pos + c.utf8Size) cs
    else if c == '/' && cs.head? == some '/' then
      skipFrom markup .line start (pos + c.utf8Size) cs
    else if c == '/' && cs.head? == some '*' then
      skipFrom markup .open ⟨c :: cs, pos⟩ (pos + c.utf8Size) cs
    else if markup && opensMarkupComment (c :: cs) then
      skipFrom markup .markupLine start (pos + c.utf8Size) cs
    else ⟨c :: cs, pos⟩ := rfl

/-- How a comment goes on behind a character. -/
def TriviaMode.next (c : Char) : TriviaMode → TriviaMode
  | .blank => .blank
  | .line => if isLineEnd c || c == '\r' then .blank else .line
  | .markupLine => if isLineEnd c then .blank else .markupLine
  | .open => .block
  | .block => if c == '*' then .star else .block
  | .star => if c == '/' then .blank else if c == '*' then .star else .block

theorem skipFrom_comment_cons {mode : TriviaMode} (h : mode ≠ .blank) :
    skipFrom markup mode start pos (c :: cs) =
      skipFrom markup (mode.next c) start (pos + c.utf8Size) cs := by
  cases mode with
  | blank => exact absurd rfl h
  | _ => rfl

end

/-- Outside block comments the answer lies ahead, inside them it may be their start. -/
def TriviaMode.bound (mode : TriviaMode) (start : Cursor) (pos : ℕ) : ℕ :=
  match mode with
  | .blank | .line | .markupLine => pos
  | .open | .block | .star => min start.pos pos

theorem TriviaMode.bound_le_next {mode : TriviaMode} (h : mode ≠ .blank) (c : Char) (start : Cursor)
    (pos : ℕ) : mode.bound start pos ≤ (mode.next c).bound start (pos + c.utf8Size) := by
  cases mode with
  | blank => exact absurd rfl h
  | «open» =>
    simp only [TriviaMode.next, TriviaMode.bound]
    omega
  | _ =>
    rw [TriviaMode.next]
    split_ifs <;> simp only [TriviaMode.bound] <;> omega

theorem skipFrom_at {source : List Char} (markup : Bool) (mode : TriviaMode) (start : Cursor)
    (pos : ℕ) (cs : List Char) (hs : start.At source) (hc : (⟨cs, pos⟩ : Cursor).At source) :
    (skipFrom markup mode start pos cs).At source := by
  induction cs generalizing mode start pos with
  | nil => cases mode <;> assumption
  | cons c cs ih =>
    by_cases hm : mode = .blank
    · subst hm
      rw [skipFrom_blank_cons]
      split_ifs
      · exact ih _ _ _ hs hc.tail
      · exact ih _ _ _ hs hc.tail
      · exact ih _ _ _ hc hc.tail
      · exact ih _ _ _ hs hc.tail
      · exact hc
    · rw [skipFrom_comment_cons _ _ _ _ _ hm]
      exact ih _ _ _ hs hc.tail

theorem le_skipFrom (markup : Bool) (mode : TriviaMode) (start : Cursor) (pos : ℕ)
    (cs : List Char) : mode.bound start pos ≤ (skipFrom markup mode start pos cs).pos := by
  induction cs generalizing mode start pos with
  | nil =>
    cases mode with
    | blank | line | markupLine => exact Nat.le_refl _
    | «open» | block | star => exact Nat.min_le_left _ _
  | cons c cs ih =>
    by_cases hm : mode = .blank
    · subst hm
      have hc : pos ≤ pos + c.utf8Size := Nat.le_add_right _ _
      rw [skipFrom_blank_cons]
      split_ifs
      · exact Nat.le_trans hc (ih .blank _ _)
      · exact Nat.le_trans hc (ih .line _ _)
      · have := ih .open ⟨c :: cs, pos⟩ (pos + c.utf8Size)
        simp only [TriviaMode.bound] at this ⊢
        omega
      · exact Nat.le_trans hc (ih .markupLine _ _)
      · exact Nat.le_refl _
    · rw [skipFrom_comment_cons _ _ _ _ _ hm]
      exact Nat.le_trans (TriviaMode.bound_le_next hm c start pos) (ih _ _ _)

/-- Markup comments are more to skip. -/
theorem skipFrom_le_skipFrom (mode : TriviaMode) (start : Cursor) (pos : ℕ) (cs : List Char)
    (hs : start.pos ≤ pos) :
    (skipFrom false mode start pos cs).pos ≤ (skipFrom true mode start pos cs).pos := by
  induction cs generalizing mode start pos with
  | nil => cases mode <;> exact Nat.le_refl _
  | cons c cs ih =>
    have hc : pos ≤ pos + c.utf8Size := Nat.le_add_right _ _
    have hnext : start.pos ≤ pos + c.utf8Size := Nat.le_trans hs hc
    by_cases hm : mode = .blank
    · subst hm
      simp only [skipFrom_blank_cons, Bool.false_and, Bool.true_and, Bool.false_eq_true, if_false]
      split_ifs
      · exact ih _ _ _ hnext
      · exact ih _ _ _ hnext
      · exact ih _ _ _ hc
      · exact Nat.le_trans hc (le_skipFrom true .markupLine _ _ _)
      · exact Nat.le_refl _
    · rw [skipFrom_comment_cons _ _ _ _ _ hm, skipFrom_comment_cons _ _ _ _ _ hm]
      exact ih _ _ _ hnext

/-- Inside a block comment the way began at its opening. -/
def TriviaMode.Open (mode : TriviaMode) (start : Cursor) (pos : ℕ) (cs : List Char) : Prop :=
  match mode with
  | .blank | .line | .markupLine => True
  | .open | .block | .star => skipFrom false mode start pos cs = start.skip

theorem TriviaMode.Open.next {mode : TriviaMode} {start : Cursor} {pos : ℕ} {c : Char}
    {cs : List Char} (hm : mode ≠ .blank) (h : mode.Open start pos (c :: cs)) :
    (mode.next c).Open start (pos + c.utf8Size) cs := by
  have hskip := skipFrom_comment_cons false start pos c cs hm
  cases mode with
  | blank => exact absurd rfl hm
  | line | markupLine =>
    simp only [TriviaMode.next]
    split_ifs <;> trivial
  | «open» => exact h
  | block | star =>
    have h := hskip.symm.trans h
    simp only [TriviaMode.next] at h ⊢
    split_ifs at h ⊢ <;> trivial

/-- Where skipping stops there is nothing more to skip. -/
theorem skip_skipFrom (markup : Bool) (mode : TriviaMode) (start : Cursor) (pos : ℕ)
    (cs : List Char) (h : mode.Open start pos cs) :
    (skipFrom markup mode start pos cs).skip = skipFrom markup mode start pos cs := by
  induction cs generalizing mode start pos with
  | nil =>
    cases mode with
    | blank | line | markupLine => rfl
    | «open» | block | star => exact h.symm
  | cons c cs ih =>
    by_cases hm : mode = .blank
    · subst hm
      have hskip : (⟨c :: cs, pos⟩ : Cursor).skip = _ := skipFrom_blank_cons ..
      rw [skipFrom_blank_cons]
      split_ifs with hblank hline hopen hmarkup
      · exact ih .blank _ _ trivial
      · exact ih .line _ _ trivial
      · refine ih .open _ _ ?_
        simp [TriviaMode.Open, hskip, hblank, hline, hopen]
      · exact ih .markupLine _ _ trivial
      · simp [hskip, hblank, hline, hopen]
    · rw [skipFrom_comment_cons _ _ _ _ _ hm]
      exact ih _ _ _ (h.next hm)

namespace Cursor

@[simp] theorem skip_skip (c : Cursor) : c.skip.skip = c.skip :=
  skip_skipFrom false .blank c c.pos c.rest trivial

@[simp] theorem skip_skipMarkup (c : Cursor) : c.skipMarkup.skip = c.skipMarkup :=
  skip_skipFrom true .blank c c.pos c.rest trivial

@[simp] theorem token_skip (c : Cursor) : c.skip.token = c.token := by rw [token, skip_skip, token]

@[simp] theorem token_skipMarkup (c : Cursor) : c.skipMarkup.token = c.skipMarkup.pos := by
  rw [token, skip_skipMarkup]

end Cursor

def TriviaMode.isOutside : TriviaMode → Bool
  | .blank | .line | .markupLine => true
  | .open | .block | .star => false

theorem TriviaMode.isOutside_next {mode : TriviaMode} (h : mode.isOutside) (c : Char) :
    (mode.next c).isOutside := by
  cases mode with
  | blank => rfl
  | line | markupLine =>
    simp only [TriviaMode.next]
    split_ifs <;> rfl
  | _ => cases h

/-- Outside block comments it does not matter where the last one began. -/
theorem skipFrom_start {mode : TriviaMode} (markup : Bool) (hm : mode.isOutside)
    (start start' : Cursor) (pos : ℕ) (cs : List Char) :
    skipFrom markup mode start pos cs = skipFrom markup mode start' pos cs := by
  induction cs generalizing mode start start' pos with
  | nil => cases mode <;> first | rfl | cases hm
  | cons c cs ih =>
    by_cases hb : mode = .blank
    · subst hb
      rw [skipFrom_blank_cons, skipFrom_blank_cons]
      split_ifs
      · exact ih rfl ..
      · exact ih rfl ..
      · rfl
      · exact ih rfl ..
      · rfl
    · rw [skipFrom_comment_cons _ _ _ _ _ hb, skipFrom_comment_cons _ _ _ _ _ hb]
      exact ih (TriviaMode.isOutside_next hm c) ..

theorem skipFrom_blank (start : Cursor) (pos : ℕ) (cs : List Char) :
    skipFrom false .blank start pos cs = (⟨cs, pos⟩ : Cursor).skip :=
  skipFrom_start false rfl ..

theorem isBlank_of_isLineEnd {c : Char} (h : (isLineEnd c || c == '\r') = true) : isBlank c := by
  simp only [isLineEnd, Bool.or_eq_true, beq_iff_eq] at h
  obtain ((rfl | rfl) | rfl) | rfl := h <;> decide

theorem skip_cons_of_isBlank {c : Char} (h : isBlank c) (pos : ℕ) (cs : List Char) :
    (⟨c :: cs, pos⟩ : Cursor).skip = (⟨cs, pos + c.utf8Size⟩ : Cursor).skip := by
  rw [Cursor.skip, skipFrom_blank_cons, if_pos h, skipFrom_blank]

/-- A line comment ends in front of the line end, which is a blank. -/
theorem skipFrom_line (start : Cursor) (pos : ℕ) (cs : List Char) :
    skipFrom false .line start pos cs =
      (Cursor.advanceBy (cs.takeWhile fun x => !isLineEnd x && x != '\r').length ⟨cs, pos⟩).skip := by
  induction cs generalizing pos with
  | nil => rfl
  | cons c cs ih =>
    rw [skipFrom_comment_cons _ _ _ _ _ (by simp), TriviaMode.next, List.takeWhile_cons]
    by_cases h : (isLineEnd c || c == '\r') = true
    · rw [if_pos h, skipFrom_blank, if_neg (by revert h; simp; grind)]
      exact (skip_cons_of_isBlank (isBlank_of_isLineEnd h) ..).symm
    · rw [if_neg h, ih, if_pos (by simpa using h)]
      rfl

namespace Cursor

@[simp] theorem skip_skipBlanks (c : Cursor) : c.skipBlanks.skip = c.skip := by
  obtain ⟨cs, pos⟩ := c
  rw [skipBlanks]
  induction cs generalizing pos with
  | nil => rfl
  | cons c cs ih =>
    rw [List.takeWhile_cons]
    by_cases h : isBlank c = true
    · rw [if_pos h, skip_cons_of_isBlank h]
      exact ih _
    · rw [if_neg h]
      rfl

theorem behind_cons {c : Char} (h : c ≠ '*') (cs : List Char) :
    comment?.behind (c :: cs) = (comment?.behind cs).map (· + 1) := by
  rw [comment?.behind]
  rintro ds rfl
  exact absurd rfl h

theorem behind_star {c : Char} (h : c ≠ '/') (cs : List Char) :
    comment?.behind ('*' :: c :: cs) = (comment?.behind (c :: cs)).map (· + 1) := by
  rw [comment?.behind]
  rintro ds - hds
  exact absurd (List.cons.inj hds).1 h

theorem exists_of_behind {cs : List Char} {n : ℕ} (h : comment?.behind cs = some n) :
    ∃ m, n = m + 1 := by
  fun_cases comment?.behind cs with
  | case1 ds => exact ⟨1, by simpa [comment?.behind] using h.symm⟩
  | case2 c cs hc =>
    rw [comment?.behind] at h
    · obtain ⟨m, -, rfl⟩ := Option.map_eq_some_iff.mp h
      exact ⟨m, rfl⟩
    · exact hc
  | case3 => simp [comment?.behind] at h

end Cursor

/-- A block comment is over behind the first slash that follows a star. -/
theorem skipFrom_block (start : Cursor) (pos : ℕ) (cs : List Char) :
    (∀ n, Cursor.comment?.behind cs = some n →
      skipFrom false .block start pos cs = (Cursor.advanceBy n ⟨cs, pos⟩).skip) ∧
    (∀ n, Cursor.comment?.behind ('*' :: cs) = some (n + 1) →
      skipFrom false .star start pos cs = (Cursor.advanceBy n ⟨cs, pos⟩).skip) := by
  induction cs generalizing pos with
  | nil => simp [Cursor.comment?.behind]
  | cons c cs ih =>
    obtain ⟨hblock, hstar⟩ := ih (pos + c.utf8Size)
    have hnext : ∀ n, Cursor.comment?.behind (c :: cs) = some n → c ≠ '*' →
        skipFrom false .block start (pos + c.utf8Size) cs =
          (Cursor.advanceBy n ⟨c :: cs, pos⟩).skip := by
      intro n hn hc
      obtain ⟨n, rfl⟩ := Cursor.exists_of_behind hn
      rw [Cursor.behind_cons hc] at hn
      exact hblock n (by simpa using hn)
    constructor
    · intro n hn
      rw [skipFrom_comment_cons _ _ _ _ _ (by simp), TriviaMode.next]
      by_cases hc : c = '*'
      · subst hc
        obtain ⟨n, rfl⟩ := Cursor.exists_of_behind hn
        exact hstar n hn
      · rw [if_neg (by simpa using hc)]
        exact hnext n hn hc
    · intro n hn
      rw [skipFrom_comment_cons _ _ _ _ _ (by simp), TriviaMode.next]
      by_cases hslash : c = '/'
      · subst hslash
        obtain rfl : n = 1 := by simpa [Cursor.comment?.behind] using hn.symm
        exact skipFrom_blank ..
      · rw [Cursor.behind_star hslash] at hn
        have hn : Cursor.comment?.behind (c :: cs) = some n := by simpa using hn
        rw [if_neg (by simpa using hslash)]
        by_cases hc : c = '*'
        · subst hc
          obtain ⟨n, rfl⟩ := Cursor.exists_of_behind hn
          exact hstar n hn
        · rw [if_neg (by simpa using hc)]
          exact hnext n hn hc

namespace Cursor

variable {source : List Char} {c d : Cursor}

/-- A comment is skipped in any case. -/
theorem skip_comment? (h : c.comment? = some d) : d.skip = c.skip := by
  rw [← skip_skipBlanks c]
  rw [comment?] at h
  generalize c.skipBlanks = e at h
  obtain ⟨rest, pos⟩ := e
  split at h
  · rename_i cs hrest
    obtain rfl : rest = _ := hrest
    cases h
    rw [advanceBy_add]
    exact (skipFrom_line _ _ cs).symm
  · rename_i cs hrest
    obtain rfl : rest = _ := hrest
    split at h
    · rename_i n hn
      cases h
      rw [advanceBy_add]
      exact ((skipFrom_block _ _ cs).1 n hn).symm
    · cases h
  · cases h

theorem At.skip (h : c.At source) : c.skip.At source := skipFrom_at false .blank c c.pos c.rest h h

theorem At.skipMarkup (h : c.At source) : c.skipMarkup.At source :=
  skipFrom_at true .blank c c.pos c.rest h h

theorem pos_le_token (c : Cursor) : c.pos ≤ c.token := le_skipFrom false .blank c c.pos c.rest

theorem token_le_skipMarkup (c : Cursor) : c.token ≤ c.skipMarkup.pos :=
  skipFrom_le_skipFrom .blank c c.pos c.rest (Nat.le_refl _)

theorem At.isPlace_token (h : c.At source) : IsPlace source c.token := h.skip.isPlace

theorem At.skipBlanks (h : c.At source) : c.skipBlanks.At source := h.advanceBy _

theorem comment?_spec (hc : c.At source) (h : c.comment? = some d) :
    d.At source ∧ c.pos ≤ d.pos := by
  have hle : ∀ n, c.pos ≤ (c.skipBlanks.advanceBy n).pos := fun n =>
    Nat.le_trans (le_advanceBy _ c) (le_advanceBy n _)
  rw [comment?] at h
  split at h
  · cases h
    exact ⟨hc.skipBlanks.advanceBy _, hle _⟩
  · split at h
    · cases h
      exact ⟨hc.skipBlanks.advanceBy _, hle _⟩
    · cases h
  · cases h

theorem impliedSemicolon?_spec {afterExpression : Bool} (hc : c.At source)
    (h : c.impliedSemicolon? afterExpression = some d) :
    d.At source ∧ c.pos ≤ d.pos ∧ d.skip = c.skip := by
  have : ∀ n (c : Cursor), c.At source → impliedFrom afterExpression n c = some d →
      d.At source ∧ c.pos ≤ d.pos ∧ d.skip = c.skip := by
    intro n
    induction n with
    | zero => simp [impliedFrom]
    | succ n ih =>
      intro c hc h
      rw [impliedFrom] at h
      split_ifs at h
      · cases h
        exact ⟨hc, Nat.le_refl _, rfl⟩
      · obtain ⟨e, he, h⟩ := Option.bind_eq_some_iff.mp h
        obtain ⟨hea, hce⟩ := comment?_spec hc he
        obtain ⟨hda, hed, hskip⟩ := ih e hea h
        exact ⟨hda, Nat.le_trans hce hed, hskip.trans (skip_comment? he)⟩
  exact this _ c hc h

end Cursor
end Bundler.JavaScript
