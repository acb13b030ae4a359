import Bundler.Proofs.Edit.Splice

/-! An insertion in front of all other edits. It is sorted before them whatever its place in the
list, and the rest of the text is written as it would be without it. -/
namespace Bundler

/-! ### A text behind another one -/

namespace Text

theorem take_append {n : ℕ} {s t : List Char} (h : size s ≤ n) :
    take n (s ++ t) = s ++ take (n - size s) t := by
  induction s generalizing n with
  | nil => rfl
  | cons c s ih =>
    rw [size_cons] at h
    rw [List.cons_append, take, if_pos (by omega), ih (by omega), size_cons, Nat.sub_add_eq,
      List.cons_append]

theorem drop_append {n : ℕ} {s t : List Char} (h : size s ≤ n) :
    drop n (s ++ t) = drop (n - size s) t := by
  induction s generalizing n with
  | nil => rfl
  | cons c s ih =>
    rw [size_cons] at h
    rw [List.cons_append, drop, if_pos (by omega), ih (by omega), size_cons, Nat.sub_add_eq]

end Text

namespace Edit

variable {es : List Edit} {e f : Edit} {low low' : ℕ} {front back : List Char}

theorem sort_concat (h : ∀ e ∈ es, ¬ le e f = true) : sort (es ++ [f]) = f :: sort es := by
  induction es with
  | nil => rfl
  | cons e es ih =>
    obtain ⟨he, hes⟩ := List.forall_mem_cons.mp h
    change place e (sort (es ++ [f])) = f :: place e (sort es)
    rw [ih hes, place, if_neg he]

/-- Where a scan starts makes no difference to edits behind that. -/
theorem kept_congr (h : ∀ e ∈ es, low ≤ e.span.start ∧ low' ≤ e.span.start) :
    kept low es = kept low' es := by
  cases es with
  | nil => rfl
  | cons e es =>
    obtain ⟨hlow, hlow'⟩ := h e List.mem_cons_self
    rw [kept, kept, if_neg (Nat.not_lt.mpr hlow), if_neg (Nat.not_lt.mpr hlow')]

theorem splice_append (h : ∀ e ∈ es, Text.size front ≤ e.span.start ∧ Text.size front ≤ e.span.stop) :
    splice 0 (front ++ back) es = front ++ splice (Text.size front) back es := by
  cases es with
  | nil => rfl
  | cons e es =>
    obtain ⟨hstart, hstop⟩ := h e List.mem_cons_self
    rw [splice, splice, Nat.sub_zero, Nat.sub_zero, Text.take_append hstart, Text.drop_append hstop]
    simp

/-- The text in front of all edits stays, and an insertion there stands between it and the rest. -/
theorem apply_insert (back text : List Char)
    (h : ∀ e ∈ es, Text.size front ≤ e.span.start ∧ Text.size front < e.span.stop) :
    ∃ body, apply (front ++ back) es = front ++ body ∧
      apply (front ++ back) (es ++ [insert (Text.size front) text]) = front ++ text ++ body := by
  have hsorted : ∀ e ∈ sort es, Text.size front ≤ e.span.start ∧ Text.size front ≤ e.span.stop :=
    fun e he =>
      have hbounds := h e ((sort_perm es).mem_iff.mp he)
      ⟨hbounds.1, Nat.le_of_lt hbounds.2⟩
  have hkept : ∀ e ∈ kept 0 (sort es), Text.size front ≤ e.span.start ∧ Text.size front ≤ e.span.stop :=
    fun e he => hsorted e ((scan_kept 0 (sort es)).mem e he)
  have hfirst : sort (es ++ [insert (Text.size front) text]) =
      insert (Text.size front) text :: sort es := by
    refine sort_concat fun e he hle => ?_
    obtain ⟨hstart, hstop⟩ := h e he
    rw [le_iff] at hle
    simp only [insert] at hle
    omega
  refine ⟨splice (Text.size front) back (kept 0 (sort es)), splice_append hkept, ?_⟩
  rw [apply, hfirst, kept, if_neg (Nat.not_lt_zero _), splice]
  have hcongr : kept (Text.size front) (sort es) = kept 0 (sort es) :=
    kept_congr fun e he => ⟨(hsorted e he).1, Nat.zero_le _⟩
  simp [insert, hcongr]

/-- An edit is kept if those before it end where it starts or in front of that. -/
theorem InOrder.mem_kept (h : InOrder es) (he : e ∈ es) (hlow : low ≤ e.span.start)
    (hbefore : ∀ f ∈ es, f ≠ e → le f e = true → f.span.stop ≤ e.span.start) : e ∈ kept low es := by
  induction es generalizing low with
  | nil => cases he
  | cons f fs ih =>
    obtain ⟨hf, hfs⟩ := List.pairwise_cons.mp h
    obtain ⟨hfirst, hrest⟩ := List.forall_mem_cons.mp hbefore
    rw [kept]
    by_cases heq : f = e
    · subst heq
      rw [if_neg (Nat.not_lt.mpr hlow)]
      exact List.mem_cons_self
    · replace he : e ∈ fs := (List.mem_cons.mp he).resolve_left (Ne.symm heq)
      split_ifs
      · exact ih hfs he hlow hrest
      · exact List.mem_cons_of_mem _ (ih hfs he (hfirst heq (hf e he)) hrest)

end Edit
end Bundler
