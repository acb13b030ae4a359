import Bundler.Edit
import Bundler.Proofs.JavaScript.Cursor

/-! Edits that stand one behind the other. They are applied as they are: sorting leaves their
order, and none is dropped for an earlier one. -/
namespace Bundler.Edit

/-- Each edit starts where the one before it stops or behind that, the first at `low` or
behind it. -/
def Chained : Nat → List Edit → Prop
  | _, [] => True
  | low, e :: es => low ≤ e.span.start ∧ e.span.start ≤ e.span.stop ∧ Chained e.span.stop es

variable {low : Nat} {es : List Edit}

theorem le_of_stop_le {e f : Edit} (he : e.span.start ≤ e.span.stop)
    (h : e.span.stop ≤ f.span.start) (hf : f.span.start ≤ f.span.stop) : le e f = true := by
  have hstop : e.span.stop ≤ f.span.stop := Nat.le_trans h hf
  rw [le, Bool.or_eq_true, Bool.and_eq_true, decide_eq_true_iff, beq_iff_eq, decide_eq_true_iff]
  exact (Nat.lt_or_eq_of_le (Nat.le_trans he h)).imp id fun heq => ⟨heq, hstop⟩

theorem Chained.sort_eq (h : Chained low es) : sort es = es := by
  induction es generalizing low with
  | nil => rfl
  | cons e es ih =>
    obtain ⟨-, he, hes⟩ := h
    change place e (sort es) = e :: es
    rw [ih hes]
    cases es with
    | nil => rfl
    | cons f fs => rw [place, if_pos (le_of_stop_le he hes.1 hes.2.1)]

theorem Chained.kept_eq (h : Chained low es) : kept low es = es := by
  induction es generalizing low with
  | nil => rfl
  | cons e es ih =>
    obtain ⟨hlow, -, hes⟩ := h
    rw [kept, if_neg (Nat.not_lt.mpr hlow), ih hes]

theorem Chained.apply_eq (h : Chained 0 es) (source : List Char) :
    apply source es = splice 0 source es := by
  rw [apply, h.sort_eq, h.kept_eq]

/-- An edit writes what stands in front of it and its own text. -/
theorem splice_cons {e : Edit} {front old rest : List Char}
    (hfront : e.span.start = low + Text.size front)
    (hold : e.span.stop = e.span.start + Text.size old) :
    splice low (front ++ old ++ rest) (e :: es) =
      front ++ e.replacement ++ splice e.span.stop rest es := by
  have hstop : e.span.stop - low = Text.size (front ++ old) := by
    rw [Text.size_append]
    omega
  rw [splice, hstop, Text.drop_size_append, hfront, Nat.add_sub_cancel_left, List.append_assoc front,
    Text.take_size_append]

end Bundler.Edit
