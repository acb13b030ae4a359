import Bundler.Proofs.Edit

/-! Edits in any order, some of them in the way of others. Sorting is stable, so the edits of one
span keep their order, and a scan of the sorted edits drops each one that starts before the last
kept one stops. The kept edits are written into the text: every slice of it that is taken is in
range, and what no kept edit covers stays as it is. -/
namespace Bundler

open JavaScript

theorem isPlace_iff {source : List Char} {n : ℕ} :
    IsPlace source n ↔ Text.isBoundary source n = true := by
  rw [Text.isBoundary, beq_iff_eq]
  constructor
  · rintro ⟨front, back, rfl, rfl⟩
    rw [Text.take_size_append]
  · intro h
    exact ⟨Text.take n source, Text.drop n source, (Text.take_append_drop n source).symm, h⟩

instance (source : List Char) (s : Span) : Decidable (s.Stands source) :=
  decidable_of_iff
    (Text.isBoundary source s.start = true ∧ Text.isBoundary source s.stop = true ∧
      s.start ≤ s.stop)
    ⟨fun ⟨hstart, hstop, hle⟩ => ⟨isPlace_iff.mpr hstart, isPlace_iff.mpr hstop, hle⟩,
      fun h => ⟨isPlace_iff.mp h.start, isPlace_iff.mp h.stop, h.le⟩⟩

/-- The text from a cursor up to a later place is the slice between them. -/
theorem JavaScript.Cursor.At.exists_slice {source rest : List Char} {low n : ℕ}
    (h : (⟨rest, low⟩ : Cursor).At source) (hn : IsPlace source n) (hle : low ≤ n) :
    ∃ front back, rest = front ++ back ∧ n = low + Text.size front ∧
      (⟨back, n⟩ : Cursor).At source ∧ Text.slice? source ⟨low, n⟩ = some front := by
  obtain ⟨before, back, hsource, hsize⟩ := hn
  have hback : (⟨back, n⟩ : Cursor).At source := ⟨before, hsource, hsize⟩
  obtain ⟨front, hrest, hstop⟩ := h.exists_between hback hle
  have hlow := isPlace_iff.mp h.isPlace
  have hhigh := isPlace_iff.mp hback.isPlace
  obtain ⟨first, hfirst, hpos⟩ := h
  simp only at hrest hstop hlow hhigh hfirst hpos
  refine ⟨front, back, hrest, hstop, hback, ?_⟩
  have hdrop : Text.drop low source = front ++ back := by
    rw [hfirst, ← hpos, Text.drop_size_append, hrest]
  have hwidth : n - low = Text.size front := by omega
  simp [Text.slice?, hle, hlow, hhigh, hdrop, hwidth]

namespace Edit

variable {source rest : List Char} {low : ℕ} {e f g : Edit} {es fs : List Edit}

/-! ### Sorting -/

/-- Each edit comes no later than those behind it: by its start, then by its stop. -/
def InOrder (es : List Edit) : Prop := es.Pairwise fun e f => le e f = true

theorem le_iff : le e f = true ↔ e.span.start < f.span.start ∨
    (e.span.start = f.span.start ∧ e.span.stop ≤ f.span.stop) := by
  simp [le]

theorem le_of_not_le (h : ¬ le e f = true) : le f e = true := by
  rw [le_iff] at h ⊢
  omega

theorem le_trans (hef : le e f = true) (hfg : le f g = true) : le e g = true := by
  rw [le_iff] at hef hfg ⊢
  omega

theorem le_of_span_eq (h : e.span = f.span) : le e f = true := by
  simp [le_iff, h]

theorem span_eq_of_le_of_le (hef : le e f = true) (hfe : le f e = true) : e.span = f.span := by
  obtain ⟨⟨a, b⟩, _⟩ := e
  obtain ⟨⟨c, d⟩, _⟩ := f
  rw [le_iff] at hef hfe
  simp only [Span.mk.injEq] at hef hfe ⊢
  omega

theorem place_perm (e : Edit) (es : List Edit) : (place e es).Perm (e :: es) := by
  induction es with
  | nil => exact List.Perm.refl _
  | cons f fs ih =>
    rw [place]
    split_ifs
    · exact List.Perm.refl _
    · exact (ih.cons f).trans (List.Perm.swap e f fs)

theorem InOrder.place (h : InOrder es) (e : Edit) : InOrder (place e es) := by
  induction es with
  | nil => exact List.pairwise_singleton _ _
  | cons f fs ih =>
    obtain ⟨hf, hfs⟩ := List.pairwise_cons.mp h
    rw [Edit.place]
    split_ifs with hef
    · refine List.pairwise_cons.mpr ⟨fun x hx => ?_, h⟩
      rcases List.mem_cons.mp hx with rfl | hx
      · exact hef
      · exact le_trans hef (hf x hx)
    · refine List.pairwise_cons.mpr ⟨fun x hx => ?_, ih hfs⟩
      rcases List.mem_cons.mp ((place_perm e fs).mem_iff.mp hx) with rfl | hx
      · exact le_of_not_le hef
      · exact hf x hx

/-- An edit is placed in front of the others of its span. -/
theorem filter_place (e : Edit) (es : List Edit) (s : Span) :
    (place e es).filter (·.span = s) = (e :: es).filter (·.span = s) := by
  induction es with
  | nil => rfl
  | cons f fs ih =>
    rw [place]
    split_ifs with hef
    · rfl
    · have hne : e.span ≠ f.span := fun h => hef (le_of_span_eq h)
      rw [List.filter_cons, ih]
      by_cases hf : f.span = s
      · have he : e.span ≠ s := fun h => hne (h.trans hf.symm)
        simp [hf, he]
      · simp [List.filter_cons, hf]

theorem sort_perm (es : List Edit) : (sort es).Perm es := by
  induction es with
  | nil => exact List.Perm.refl _
  | cons e es ih => exact (place_perm e (sort es)).trans (ih.cons e)

theorem inOrder_sort (es : List Edit) : InOrder (sort es) := by
  induction es with
  | nil => exact List.Pairwise.nil
  | cons e es ih => exact ih.place e

/-- The edits of one span keep their order. -/
theorem filter_sort (es : List Edit) (s : Span) :
    (sort es).filter (·.span = s) = es.filter (·.span = s) := by
  induction es with
  | nil => rfl
  | cons e es ih =>
    have hplace : (sort (e :: es)).filter (·.span = s) = (e :: sort es).filter (·.span = s) :=
      filter_place e (sort es) s
    rw [hplace, List.filter_cons, List.filter_cons, ih]

/-- Edits in order are determined by the edits of each span. -/
theorem InOrder.eq_of_filter (he : InOrder es) (hf : InOrder fs)
    (h : ∀ s, es.filter (·.span = s) = fs.filter (·.span = s)) : es = fs := by
  induction es generalizing fs with
  | nil =>
    cases fs with
    | nil => rfl
    | cons f fs => simpa using h f.span
  | cons e es ih =>
    obtain ⟨hle, hes⟩ := List.pairwise_cons.mp he
    cases fs with
    | nil => simpa using h e.span
    | cons f fs =>
      obtain ⟨hlf, hfs⟩ := List.pairwise_cons.mp hf
      -- each head is among the other edits, so neither comes before the other
      have hmem : e ∈ f :: fs :=
        List.mem_of_mem_filter (p := (·.span = e.span)) (by rw [← h e.span]; simp)
      have hmem' : f ∈ e :: es :=
        List.mem_of_mem_filter (p := (·.span = f.span)) (by rw [h f.span]; simp)
      have hspan : e.span = f.span := by
        rcases List.mem_cons.mp hmem with rfl | hmem
        · rfl
        rcases List.mem_cons.mp hmem' with rfl | hmem'
        · rfl
        exact span_eq_of_le_of_le (hle f hmem') (hlf e hmem)
      have hhead := h e.span
      simp only [List.filter_cons, hspan, decide_true, if_true, List.cons.injEq] at hhead
      obtain ⟨rfl, htail⟩ := hhead
      rw [ih hes hfs]
      intro s
      by_cases hs : e.span = s
      · rw [← hs, htail]
      · simpa [List.filter_cons, hs] using h s

theorem sort_eq_sort (h : ∀ s, es.filter (·.span = s) = fs.filter (·.span = s)) :
    sort es = sort fs := by
  apply (inOrder_sort es).eq_of_filter (inOrder_sort fs)
  intro s
  rw [filter_sort, filter_sort, h s]

/-- Edits of different spans may come in any order. -/
theorem filter_of_perm (h : es.Perm fs) (hn : es.Pairwise fun e f => e.span ≠ f.span) (s : Span) :
    es.filter (·.span = s) = fs.filter (·.span = s) := by
  have hperm := h.filter (·.span = s)
  have hpairs := hn.filter (·.span = s)
  have hspan : ∀ e ∈ es.filter (·.span = s), e.span = s := by simp
  generalize es.filter (·.span = s) = xs at hperm hpairs hspan
  match xs with
  | [] => exact hperm.nil_eq
  | [e] => exact hperm.singleton_eq
  | e :: f :: _ =>
    have hne := (List.pairwise_cons.mp hpairs).1 f List.mem_cons_self
    exact absurd ((hspan e (by simp)).trans (hspan f (by simp)).symm) hne

/-! ### The scan -/

/-- What a scan keeps of edits: it drops each one that starts before the end of the last kept
one, at first before `low`. -/
inductive Scan : ℕ → List Edit → List Edit → Prop
  | done (low : ℕ) : Scan low [] []
  | keep {low : ℕ} {e : Edit} {es ks : List Edit} (h : low ≤ e.span.start)
      (hs : Scan e.span.stop es ks) : Scan low (e :: es) (e :: ks)
  | drop {low : ℕ} {e : Edit} {es ks : List Edit} (h : e.span.start < low)
      (hs : Scan low es ks) : Scan low (e :: es) ks

theorem scan_kept (low : ℕ) (es : List Edit) : Scan low es (kept low es) := by
  induction es generalizing low with
  | nil => exact .done low
  | cons e es ih =>
    rw [kept]
    split_ifs with h
    · exact .drop h (ih low)
    · exact .keep (Nat.not_lt.mp h) (ih e.span.stop)

theorem Scan.mem {ks : List Edit} (h : Scan low es ks) : ∀ k ∈ ks, k ∈ es := by
  induction h with
  | done low => exact fun k hk => hk
  | keep _ _ ih =>
    intro k hk
    rcases List.mem_cons.mp hk with rfl | hk
    · exact List.mem_cons_self
    · exact List.mem_cons_of_mem _ (ih k hk)
  | drop _ _ ih => exact fun k hk => List.mem_cons_of_mem _ (ih k hk)

/-- Kept edits stand one behind the other. -/
theorem Scan.chained {ks : List Edit} (h : Scan low es ks)
    (hle : ∀ e ∈ es, e.span.start ≤ e.span.stop) : Chained low ks := by
  induction h with
  | done low => trivial
  | keep h _ ih =>
    exact ⟨h, hle _ List.mem_cons_self, ih fun e he => hle e (List.mem_cons_of_mem _ he)⟩
  | drop _ _ ih => exact ih fun e he => hle e (List.mem_cons_of_mem _ he)

/-! ### Writing -/

/-- The first text holds the spans of some edits, one behind the other from `low` on. The second
one has their replacements there, and all else is the same. -/
inductive Written : ℕ → List Edit → List Char → List Char → Prop
  | done (low : ℕ) (text : List Char) : Written low [] text text
  | edit {low : ℕ} {e : Edit} {es : List Edit} {front old rest rest' : List Char}
      (hfront : e.span.start = low + Text.size front)
      (hold : e.span.stop = e.span.start + Text.size old)
      (h : Written e.span.stop es rest rest') :
      Written low (e :: es) (front ++ old ++ rest) (front ++ e.replacement ++ rest')

/-- The text with sorted edits written into it from `low` on, `none` when a slice of the source is
out of range or ends inside a character. -/
def splice? (source : List Char) (low : ℕ) : List Edit → Option (List Char)
  | [] => Text.slice? source ⟨low, Text.size source⟩
  | e :: es =>
    if e.span.start < low then splice? source low es
    else do
      let front ← Text.slice? source ⟨low, e.span.start⟩
      let rest ← splice? source e.span.stop es
      return front ++ e.replacement ++ rest

theorem Chained.written (h : Chained low es) (hat : (⟨rest, low⟩ : Cursor).At source)
    (hs : ∀ e ∈ es, e.span.Stands source) : Written low es rest (splice low rest es) := by
  induction es generalizing low rest with
  | nil => exact .done low rest
  | cons e es ih =>
    obtain ⟨hlow, hle, hes⟩ := h
    have he := hs e List.mem_cons_self
    obtain ⟨front, back, rfl, hfront, hback, -⟩ := hat.exists_slice he.start hlow
    obtain ⟨old, rest, rfl, hold, hrest, -⟩ := hback.exists_slice he.stop hle
    rw [← List.append_assoc, splice_cons hfront hold]
    exact .edit hfront hold (ih hes hrest fun f hf => hs f (List.mem_cons_of_mem _ hf))

theorem splice?_eq (hat : (⟨rest, low⟩ : Cursor).At source)
    (hs : ∀ e ∈ es, e.span.Stands source) :
    splice? source low es = some (splice low rest (kept low es)) := by
  induction es generalizing low rest with
  | nil =>
    have hend : IsPlace source (Text.size source) := ⟨source, [], by simp, rfl⟩
    obtain ⟨front, back, rfl, hsize, hback, hslice⟩ := hat.exists_slice hend hat.pos_le
    obtain rfl : back = [] := by
      obtain ⟨before, hsource, hpos⟩ := hback
      have hlen : Text.size source = Text.size before + Text.size back :=
        (congrArg Text.size hsource).trans (Text.size_append _ _)
      have hpos : Text.size before = Text.size source := hpos
      exact Cursor.size_eq_zero (by omega)
    rw [splice?, hslice, kept, splice, List.append_nil]
  | cons e es ih =>
    have he := hs e List.mem_cons_self
    have hes : ∀ f ∈ es, f.span.Stands source := fun f hf => hs f (List.mem_cons_of_mem _ hf)
    rw [splice?, kept]
    split_ifs with hlow
    · exact ih hat hes
    · obtain ⟨front, back, rfl, hfront, hback, hslice⟩ :=
        hat.exists_slice he.start (Nat.not_lt.mp hlow)
      obtain ⟨old, rest, rfl, hold, hrest, -⟩ := hback.exists_slice he.stop he.le
      rw [hslice, ih hrest hes, ← List.append_assoc, splice_cons hfront hold]
      rfl

/-! ### Edits that are apart -/

/-- One of the edits stops where the other starts or before that. -/
def Apart (e f : Edit) : Prop := e.span.stop ≤ f.span.start ∨ f.span.stop ≤ e.span.start

instance (e f : Edit) : Decidable (Apart e f) := inferInstanceAs (Decidable (_ ∨ _))

theorem Apart.symm (h : Apart e f) : Apart f e := Or.symm h

theorem Apart.stop_le (h : Apart e f) (hle : le e f = true)
    (hf : f.span.start ≤ f.span.stop) : e.span.stop ≤ f.span.start := by
  rw [le_iff] at hle
  rcases h with h | h
  · exact h
  · omega

theorem InOrder.chained (h : InOrder es) (ha : es.Pairwise Apart)
    (hle : ∀ e ∈ es, e.span.start ≤ e.span.stop) (hlow : ∀ e ∈ es, low ≤ e.span.start) :
    Chained low es := by
  induction es generalizing low with
  | nil => trivial
  | cons e es ih =>
    obtain ⟨he, hes⟩ := List.pairwise_cons.mp h
    obtain ⟨hae, haes⟩ := List.pairwise_cons.mp ha
    have hself := hle e List.mem_cons_self
    have hrest : ∀ f ∈ es, f.span.start ≤ f.span.stop :=
      fun f hf => hle f (List.mem_cons_of_mem _ hf)
    refine ⟨hlow e List.mem_cons_self, hself, ih hes haes hrest fun f hf => ?_⟩
    exact (hae f hf).stop_le (he f hf) (hrest f hf)

theorem chained_sort (ha : es.Pairwise Apart) (hle : ∀ e ∈ es, e.span.start ≤ e.span.stop) :
    Chained 0 (sort es) := by
  have hperm := sort_perm es
  apply (inOrder_sort es).chained
  · exact (hperm.symm.pairwise_iff Apart.symm).mp ha
  · exact fun e he => hle e (hperm.mem_iff.mp he)
  · exact fun _ _ => Nat.zero_le _

theorem apply_singleton (text : List Char) (e : Edit) :
    apply text [e] = Text.take e.span.start text ++ e.replacement ++ Text.drop e.span.stop text := by
  simp [apply, sort, place, kept, splice]

/-- Edits that stand one behind the other can be applied one at a time, the last one first: each
leaves the text in front of it as it was. -/
theorem Chained.foldr_apply {front : List Char} (h : Chained low es)
    (hsource : source = front ++ rest) (hlow : Text.size front = low)
    (hs : ∀ e ∈ es, e.span.Stands source) :
    es.foldr (fun e text => apply text [e]) source = front ++ splice low rest es := by
  induction es generalizing low front rest with
  | nil => exact hsource
  | cons e es ih =>
    obtain ⟨hle, hspan, hes⟩ := h
    have he := hs e List.mem_cons_self
    have hat : (⟨rest, low⟩ : Cursor).At source := ⟨front, hsource, hlow⟩
    obtain ⟨before, back, rfl, hbefore, hback, -⟩ := hat.exists_slice he.start hle
    obtain ⟨old, rest, rfl, hold, hrest, -⟩ := hback.exists_slice he.stop hspan
    have hstart : Text.size (front ++ before) = e.span.start := by
      rw [Text.size_append, hbefore, hlow]
    have hstop : Text.size (front ++ before ++ old) = e.span.stop := by
      rw [Text.size_append, hstart, hold]
    rw [List.foldr_cons, ih hes (by simpa using hsource) hstop
      fun f hf => hs f (List.mem_cons_of_mem _ hf)]
    have htake : Text.take e.span.start (front ++ before ++ old ++ splice e.span.stop rest es) =
        front ++ before := by
      rw [← hstart, List.append_assoc (front ++ before), Text.take_size_append]
    have hdrop : Text.drop e.span.stop (front ++ before ++ old ++ splice e.span.stop rest es) =
        splice e.span.stop rest es := by
      rw [← hstop, Text.drop_size_append]
    rw [apply_singleton, htake, hdrop, ← List.append_assoc before, splice_cons hbefore hold]
    simp only [List.append_assoc]

/-! ### The law -/

/-- Edits of a text are sorted by start and stop, those of one span in the order they came in. No
slice of the text is out of range, and what a scan of the sorted edits keeps is written into it.
Edits that are apart are all kept, and applying them one at a time from the last one on gives the
same. Edits that come in another order, those of one span in the same, give the same text. -/
theorem apply_splices {edits : List Edit} (h : ∀ e ∈ edits, e.span.Stands source) :
    (∃ sorted kept : List Edit, sorted.Perm edits ∧ InOrder sorted ∧
      (∀ s, sorted.filter (·.span = s) = edits.filter (·.span = s)) ∧
      splice? source 0 sorted = some (apply source edits) ∧
      Scan 0 sorted kept ∧ Written 0 kept source (apply source edits) ∧
      (edits.Pairwise Apart → kept = sorted ∧
        apply source edits = sorted.foldr (fun e text => apply text [e]) source)) ∧
    ∀ edits', (∀ s, edits'.filter (·.span = s) = edits.filter (·.span = s)) →
      apply source edits' = apply source edits := by
  have hstart := Cursor.at_start source
  have hperm := sort_perm edits
  have hsort : ∀ e ∈ sort edits, e.span.Stands source := fun e he => h e (hperm.mem_iff.mp he)
  have hscan := scan_kept 0 (sort edits)
  have hwritten : Written 0 (kept 0 (sort edits)) source (apply source edits) :=
    (hscan.chained fun e he => (hsort e he).le).written hstart
      fun e he => hsort e (hscan.mem e he)
  refine ⟨⟨sort edits, kept 0 (sort edits), hperm, inOrder_sort edits, filter_sort edits,
    splice?_eq hstart hsort, hscan, hwritten, fun ha => ?_⟩, fun edits' hsame => ?_⟩
  · have hchained := chained_sort ha fun e he => (h e he).le
    have hkept := hchained.kept_eq
    refine ⟨hkept, ?_⟩
    rw [hchained.foldr_apply (List.nil_append source).symm rfl hsort, apply, hkept, List.nil_append]
  · rw [apply, sort_eq_sort hsame, apply]

def declared : List Char := "let é = 1;".toList

/-- Three edits that are apart, the last of them an insertion where the second one stops. -/
def apart : List Edit := [⟨⟨9, 10⟩, ['2']⟩, ⟨⟨4, 6⟩, ['x']⟩, ⟨⟨6, 6⟩, ['y']⟩]

/-- A fourth one is in the way of the second. -/
def overlapping : List Edit := ⟨⟨4, 9⟩, ['z']⟩ :: apart

theorem apply_splices_overlapping :
    (∀ e ∈ overlapping, e.span.Stands declared) ∧
      (∃ sorted kept : List Edit, sorted.Perm overlapping ∧ Scan 0 sorted kept ∧
        Written 0 kept declared "let xy = 2;".toList) ∧
      apart.Pairwise Apart ∧
      (∃ sorted : List Edit, sorted.Perm apart ∧
        "let xy = 2;".toList = sorted.foldr (fun e text => apply text [e]) declared) ∧
      apply declared overlapping.reverse = "let xy = 2;".toList := by
  have h : ∀ e ∈ overlapping, e.span.Stands declared := by decide +kernel
  have hapart : apart.Pairwise Apart := by decide +kernel
  have htext : apply declared overlapping = "let xy = 2;".toList := by decide +kernel
  have htext' : apply declared apart = "let xy = 2;".toList := by decide +kernel
  obtain ⟨⟨sorted, kept, hperm, -, -, -, hscan, hwritten, -⟩, hsame⟩ := apply_splices h
  obtain ⟨⟨sorted', kept', hperm', -, -, -, -, -, honce⟩, -⟩ :=
    apply_splices fun e he => h e (List.mem_cons_of_mem _ he)
  have hreverse := hsame overlapping.reverse fun s =>
    (filter_of_perm overlapping.reverse_perm.symm (by decide +kernel) s).symm
  exact ⟨h, ⟨sorted, kept, hperm, hscan, htext ▸ hwritten⟩, hapart,
    ⟨sorted', hperm', htext' ▸ (honce hapart).2⟩, hreverse.trans htext⟩

end Edit
end Bundler
