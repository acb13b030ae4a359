import Bundler.JavaScript.Trivia
import Mathlib.Data.List.Basic

/-! Cursors and the text they stand in. Every way to move a cursor leads from one place of a
text to a later one, where a place is a position between two characters. -/
namespace Bundler

/-- A position between two characters of a text, or at one of its ends. -/
def IsPlace (source : List Char) (n : ℕ) : Prop :=
  ∃ front back, source = front ++ back ∧ Text.size front = n

/-- Both ends of a span are places of the text. -/
structure Span.Stands (source : List Char) (s : Span) : Prop where
  start : IsPlace source s.start
  stop : IsPlace source s.stop
  le : s.start ≤ s.stop

@[simp] theorem Text.take_size_append (s t : List Char) : Text.take (Text.size s) (s ++ t) = s := by
  induction s with
  | nil =>
    cases t with
    | nil => rfl
    | cons c t => simp [Text.take, Nat.ne_of_gt c.utf8Size_pos]
  | cons c s ih => simp [Text.take, ih]

@[simp] theorem Text.drop_size_append (s t : List Char) : Text.drop (Text.size s) (s ++ t) = t := by
  have h := Text.take_append_drop (Text.size s) (s ++ t)
  rwa [Text.take_size_append, List.append_cancel_left_eq] at h

namespace JavaScript

namespace Cursor

/-- The cursor stands in this text. -/
def At (source : List Char) (c : Cursor) : Prop :=
  ∃ front, source = front ++ c.rest ∧ Text.size front = c.pos

/-- The position of the next token. -/
def token (c : Cursor) : ℕ := c.skip.pos

variable {source : List Char} {c d : Cursor}

theorem At.isPlace (h : c.At source) : IsPlace source c.pos := by
  obtain ⟨front, hs, hp⟩ := h
  exact ⟨front, c.rest, hs, hp⟩

theorem at_start (source : List Char) : (⟨source, 0⟩ : Cursor).At source := ⟨[], rfl, rfl⟩

theorem At.pos_le (h : c.At source) : c.pos ≤ Text.size source := by
  obtain ⟨front, hs, hp⟩ := h
  rw [hs, Text.size_append]
  omega

theorem size_eq_zero {cs : List Char} (h : Text.size cs = 0) : cs = [] := by
  cases cs with
  | nil => rfl
  | cons c cs =>
    have := c.utf8Size_pos
    simp at h
    omega

/-- Of two cursors in a text the earlier one reads what lies between them first. -/
theorem At.exists_between (hc : c.At source) (hd : d.At source) (h : c.pos ≤ d.pos) :
    ∃ text, c.rest = text ++ d.rest ∧ d.pos = c.pos + Text.size text := by
  obtain ⟨front, hs, hp⟩ := hc
  obtain ⟨front', hs', hp'⟩ := hd
  rcases List.append_eq_append_iff.mp (hs.symm.trans hs') with ⟨text, rfl, ht⟩ | ⟨text, rfl, ht⟩
  · refine ⟨text, ht, ?_⟩
    rw [← hp, ← hp', Text.size_append]
  · have hzero : Text.size text = 0 := by
      rw [Text.size_append] at hp
      omega
    obtain rfl := size_eq_zero hzero
    rw [List.append_nil] at hp
    exact ⟨[], ht.symm, by simp [← hp, ← hp']⟩

/-- What stands behind the next characters stands in the text too. -/
theorem At.append {text rest : List Char} {pos : ℕ} (h : (⟨text ++ rest, pos⟩ : Cursor).At source) :
    (⟨rest, pos + Text.size text⟩ : Cursor).At source := by
  obtain ⟨front, hs, hp⟩ := h
  exact ⟨front ++ text, by simpa using hs, by simpa using hp⟩

theorem At.tail {x : Char} {xs : List Char} {pos : ℕ} (h : (⟨x :: xs, pos⟩ : Cursor).At source) :
    (⟨xs, pos + x.utf8Size⟩ : Cursor).At source := by
  have : (⟨xs, pos + Text.size [x]⟩ : Cursor).At source := At.append h
  simpa using this

theorem At.advance (h : c.At source) : c.advance.At source := by
  obtain ⟨rest, pos⟩ := c
  cases rest with
  | nil => exact h
  | cons x xs => exact h.tail

theorem le_advance (c : Cursor) : c.pos ≤ c.advance.pos := by
  obtain ⟨rest, pos⟩ := c
  cases rest with
  | nil => exact Nat.le_refl _
  | cons x xs => exact Nat.le_add_right _ _

theorem At.advanceBy (n : ℕ) (h : c.At source) : (c.advanceBy n).At source := by
  induction n generalizing c with
  | zero => exact h
  | succ n ih => exact ih h.advance

theorem le_advanceBy (n : ℕ) (c : Cursor) : c.pos ≤ (c.advanceBy n).pos := by
  induction n generalizing c with
  | zero => exact Nat.le_refl _
  | succ n ih => exact Nat.le_trans (le_advance c) (ih c.advance)

theorem advanceBy_eq (n : ℕ) (c : Cursor) :
    c.advanceBy n = ⟨c.rest.drop n, c.pos + Text.size (c.rest.take n)⟩ := by
  induction n generalizing c with
  | zero => rfl
  | succ n ih =>
    obtain ⟨rest, pos⟩ := c
    rw [advanceBy, ih]
    cases rest with
    | nil => simp [Cursor.advance]
    | cons x xs => simp [Cursor.advance, Nat.add_assoc]

theorem advanceBy_add (m n : ℕ) (c : Cursor) :
    advanceBy (m + n) c = advanceBy n (advanceBy m c) := by
  induction m generalizing c with
  | zero => rw [Nat.zero_add, advanceBy]
  | succ m ih => rw [Nat.succ_add, advanceBy, ih, advanceBy]

end Cursor

theorem after?_eq_some {p cs rest : List Char} : after? p cs = some rest ↔ cs = p ++ rest := by
  induction p generalizing cs with
  | nil => simp [after?, eq_comm]
  | cons x xs ih =>
    cases cs with
    | nil => simp [after?]
    | cons c cs =>
      rw [after?]
      split_ifs with hx
      · simp [ih, hx]
      · simp [Ne.symm hx]

end JavaScript
end Bundler
