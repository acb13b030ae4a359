import Bundler.JavaScript.CommonForm
import Bundler.Proofs.Edit.Splice
import Bundler.Proofs.JavaScript.Calls
import Bundler.Proofs.JavaScript.Links
import Mathlib.Data.List.Pairwise

/-! Where the edits of the common form stand. Each one belongs to a statement, of which it
changes a part, and no directive has any. So all but the prelude lie behind the place of the
prelude. -/
namespace Bundler.JavaScript

variable {source : List Char} {low low' high high' : ℕ}

/-! ### Statements in order -/

namespace Statement

def IsDirective : Statement → Prop
  | directive .. => True
  | _ => False

instance : DecidablePred IsDirective
  | directive .. => inferInstanceAs (Decidable True)
  | importing .. | exporting .. | declaration _ | markupComment _ | other .. =>
    inferInstanceAs (Decidable False)

end Statement

namespace AllSound

variable {ss ts : List Statement}

theorem between (h : AllSound source low high ss) :
    ∀ s ∈ ss, s.Sound source ∧ low ≤ s.span.start ∧ s.span.stop ≤ high := by
  induction ss generalizing low with
  | nil => exact fun s hs => by cases hs
  | cons s ss ih =>
    obtain ⟨hs, hlow, hhigh, hss⟩ := h
    refine List.forall_mem_cons.mpr ⟨⟨hs, hlow, hhigh⟩, fun t ht => ?_⟩
    obtain ⟨hsound, hstart, hstop⟩ := ih hss t ht
    exact ⟨hsound, Nat.le_trans hlow (Nat.le_trans hs.span.le hstart), hstop⟩

/-- Each statement ends before the next one starts. -/
theorem pairwise (h : AllSound source low high ss) :
    ss.Pairwise fun s t => s.span.stop ≤ t.span.start := by
  induction ss generalizing low with
  | nil => exact .nil
  | cons s ss ih =>
    obtain ⟨-, -, -, hss⟩ := h
    exact .cons (fun t ht => (hss.between t ht).2.1) (ih hss)

/-- Two statements are the same one, or one ends before the other starts. -/
def Apart (s t : Statement) : Prop :=
  s = t ∨ s.span.stop ≤ t.span.start ∨ t.span.stop ≤ s.span.start

instance : Std.Symm Apart := ⟨fun _ _ h => h.imp Eq.symm Or.symm⟩

theorem apart (h : AllSound source low high ss) {s t : Statement} (hs : s ∈ ss) (ht : t ∈ ss) :
    Apart s t :=
  (h.pairwise.imp fun hle => .inr (.inl hle)).forall_of_forall (fun _ _ => .inl rfl) hs ht

theorem behind (h : AllSound source low high (ss ++ ts)) :
    AllSound source ((ss.getLast?.map (·.span.stop)).getD low) high ts := by
  induction ss generalizing low with
  | nil => exact h
  | cons s ss ih =>
    have hts := ih h.2.2.2
    rw [List.getLast?_cons]
    cases hlast : ss.getLast? <;> simpa [hlast] using hts

end AllSound

namespace Node

mutual

/-- The words of the calls in a node take up room where those of the node do. -/
theorem Worded.calls : ∀ {n : Node}, n.Worded → ∀ m ∈ n.calls, m.Worded
  | call s callee args, h, m, hm => by
    rw [Node.calls, List.mem_cons, List.mem_append] at hm
    obtain rfl | hm | hm := hm
    · exact h
    · exact Worded.calls h.1 m hm
    · exact AllWorded.calls h.2 m hm
  | tagged s tag t, h, m, hm => by
    rw [Node.calls, List.mem_cons, List.mem_append] at hm
    obtain rfl | hm | hm := hm
    · exact h
    · exact Worded.calls h.1 m hm
    · exact Worded.calls h.2 m hm
  | template l parts, h, m, hm => AllWorded.calls (show AllWorded parts from h) m hm
  | other s parts, h, m, hm => AllWorded.calls (show AllWorded parts from h) m hm
  | name _, _, _, hm | string _, _, _, hm | importWord _, _, _, hm => by cases hm

theorem AllWorded.calls : ∀ {ns : List Node}, AllWorded ns → ∀ m ∈ callsOf ns, m.Worded
  | [], _, _, hm => by cases hm
  | n :: ns, h, m, hm => by
    rw [callsOf, List.mem_append] at hm
    obtain hm | hm := hm
    · exact Worded.calls h.1 m hm
    · exact AllWorded.calls h.2 m hm

end

theorem callsOf_append (xs ys : List Node) : callsOf (xs ++ ys) = callsOf xs ++ callsOf ys := by
  induction xs with
  | nil => rfl
  | cons x xs ih => rw [List.cons_append, callsOf, callsOf, ih, List.append_assoc]

end Node

namespace CommonForm

/-! ### The edits of a statement -/

/-- An edit of what stands between two positions, which reaches beyond the first of them. -/
structure Between (source : List Char) (low high : ℕ) (e : Edit) : Prop where
  stands : e.span.Stands source
  low_le : low ≤ e.span.start
  low_lt : low < e.span.stop
  le_high : e.span.stop ≤ high

theorem Between.mono {e : Edit} (h : Between source low high e) (hl : low' ≤ low)
    (hh : high ≤ high') : Between source low' high' e :=
  ⟨h.stands, Nat.le_trans hl h.low_le, Nat.lt_of_le_of_lt hl h.low_lt, Nat.le_trans h.le_high hh⟩

theorem Between.insert {n : ℕ} {text : List Char} (h : IsPlace source n) (hlow : low < n)
    (hhigh : n ≤ high) : Between source low high (Edit.insert n text) :=
  ⟨⟨h, h, Nat.le_refl _⟩, Nat.le_of_lt hlow, hlow, hhigh⟩

theorem dynamicEdits_between {m : Node} (h : m.Within source low high) (hw : m.Worded) :
    ∀ e ∈ dynamicEdits m, Between source low high e := by
  intro e he
  rw [dynamicEdits.eq_def] at he
  split at he
  · rename_i s word args
    obtain ⟨⟨hs, hword, hstart, hstop, -⟩, hlow, hlt, hhigh⟩ := h
    have hwords : word.start < word.stop := hw.1
    rcases List.mem_pair.mp he with rfl | rfl
    · have hle : low ≤ word.start := Nat.le_trans hlow hstart
      exact ⟨hword, hle, Nat.lt_of_le_of_lt hle hwords,
        Nat.le_trans (Nat.le_of_lt hstop) hhigh⟩
    · exact .insert hs.stop (Nat.lt_of_le_of_lt hlow hlt) hhigh
  · cases he

/-- The edits of the dynamic imports in some code. -/
def callEdits (ns : List Node) : List Edit := (Node.callsOf ns).flatMap dynamicEdits

theorem callEdits_append (xs ys : List Node) : callEdits (xs ++ ys) = callEdits xs ++ callEdits ys := by
  rw [callEdits, Node.callsOf_append, List.flatMap_append]
  rfl

theorem callEdits_between {ns : List Node} (h : Node.AllSound source low high ns)
    (hw : Node.AllWorded ns) : ∀ e ∈ callEdits ns, Between source low high e := by
  intro e he
  obtain ⟨m, hm, he⟩ := List.mem_flatMap.mp he
  exact dynamicEdits_between (h.calls_within m hm) (hw.calls m hm) e he

theorem exportEdits_between {span : Span} {form : ExportForm} {ds : List Node}
    (h : (Statement.exporting span form ds).Sound source)
    (hk : (Statement.exporting span form ds).Keyed) :
    ∀ e ∈ exportEdits span form, Between source span.start span.stop e := by
  obtain ⟨hspan, mid, hlow, -, -, hform⟩ := h
  have hwhole (text : List Char) : Between source span.start span.stop ⟨span, text⟩ :=
    ⟨hspan, Nat.le_refl _, hk.1, Nat.le_refl _⟩
  intro e he
  rw [exportEdits.eq_def] at he
  split at he
  case h_5 isDefault word d =>
    obtain ⟨hplace, hmid, hword, hstop, hd⟩ := hform
    have hkeyed : word < d.span.start := hk.2
    have hstart : span.start ≤ word := Nat.le_trans hlow hmid
    rcases List.mem_cons.mp he with rfl | he
    · exact ⟨⟨hplace, hd.1.start, hword⟩, hstart, Nat.lt_of_le_of_lt hstart hkeyed,
        Nat.le_trans hd.1.le hstop⟩
    · split_ifs at he
      · cases he
      · obtain rfl := List.mem_singleton.mp he
        exact .insert hspan.stop hk.1 (Nat.le_refl _)
  case h_6 word n =>
    obtain ⟨hplace, hmid, hword, hstop, hn⟩ := hform
    have hkeyed : word < n.span.start := hk.2
    have hstart : span.start ≤ word := Nat.le_trans hlow hmid
    obtain rfl := List.mem_singleton.mp he
    exact ⟨⟨hplace, hn.span.start, hword⟩, hstart, Nat.lt_of_le_of_lt hstart hkeyed,
      Nat.le_trans hn.span.le hstop⟩
  all_goals
    obtain rfl := List.mem_singleton.mp he
    exact hwhole _

theorem statementEdits_between {s : Statement} (h : s.Sound source) (hk : s.Keyed) :
    ∀ e ∈ statementEdits s, Between source s.span.start s.span.stop e := by
  intro e he
  rw [statementEdits.eq_def] at he
  split at he
  · obtain rfl := List.mem_singleton.mp he
    exact ⟨h.1, Nat.le_refl _, hk, Nat.le_refl _⟩
  · exact exportEdits_between h hk e he
  · cases he

/-! ### The edits of a program -/

variable {p : Program} {e : Edit}

/-- All edits but that of the prelude. -/
def codeEdits (p : Program) : List Edit :=
  p.calls.flatMap dynamicEdits ++ p.body.flatMap statementEdits

theorem edits_eq (p : Program) : edits p = codeEdits p ++ preludeEdits p := rfl

theorem mem_codeEdits :
    e ∈ codeEdits p ↔ ∃ s ∈ p.body, e ∈ callEdits s.parts ∨ e ∈ statementEdits s := by
  simp only [codeEdits, Program.calls, callEdits, List.flatMap_assoc, List.mem_append,
    List.mem_flatMap]
  grind

/-- A directive has no edits. -/
theorem not_isDirective {s : Statement} (h : e ∈ callEdits s.parts ∨ e ∈ statementEdits s) :
    ¬ s.IsDirective := by
  intro hs
  cases s with
  | directive span l => rcases h with h | h <;> cases h
  | _ => exact hs

/-! ### The place of the prelude -/

theorem directivesEnd_eq (start : ℕ) (ss : List Statement) :
    ∃ ds rest, ss = ds ++ rest ∧ (∀ s ∈ ds, s.IsDirective) ∧ (∀ s ∈ rest.head?, ¬ s.IsDirective) ∧
      directivesEnd start ss = (ds.getLast?.map (·.span.stop)).getD start := by
  induction ss generalizing start with
  | nil => exact ⟨[], [], rfl, by simp, by simp, rfl⟩
  | cons s ss ih =>
    by_cases hs : s.IsDirective
    · cases s with
      | directive span l =>
        obtain ⟨ds, rest, rfl, hds, hrest, hstop⟩ := ih span.stop
        refine ⟨.directive span l :: ds, rest, rfl, List.forall_mem_cons.mpr ⟨hs, hds⟩, hrest, ?_⟩
        rw [directivesEnd, hstop, List.getLast?_cons]
        cases ds.getLast? <;> rfl
      | _ => exact hs.elim
    · refine ⟨[], s :: ss, rfl, by simp, by simpa using hs, ?_⟩
      cases s with
      | directive span l => exact absurd trivial hs
      | _ => rfl

/-- The prelude goes between the directives that a program opens with and the statements behind
them. -/
theorem preludePosition_eq (h : p.Sound source) :
    ∃ ds rest, p.body = ds ++ rest ∧ (∀ s ∈ ds, s.IsDirective) ∧
      (∀ s ∈ rest.head?, ¬ s.IsDirective) ∧
      preludePosition p =
        (ds.getLast?.map (·.span.stop)).getD ((p.interpreter.map Span.stop).getD 0) ∧
      IsPlace source (preludePosition p) ∧
      AllSound source (preludePosition p) (Text.size source) rest := by
  obtain ⟨hline, hbody⟩ := h
  obtain ⟨ds, rest, hsplit, hds, hrest, hstop⟩ :=
    directivesEnd_eq ((p.interpreter.map Span.stop).getD 0) p.body
  rw [hsplit] at hbody
  refine ⟨ds, rest, hsplit, hds, hrest, hstop, ?_, ?_⟩
  · rw [preludePosition, hstop]
    cases hlast : ds.getLast? with
    | none =>
      cases hi : p.interpreter with
      | none => exact ⟨[], source, rfl, rfl⟩
      | some s => exact (hline s hi).stop
    | some s =>
      have hs : s ∈ ds ++ rest := List.mem_append_left _ (List.mem_of_getLast? hlast)
      exact (hbody.between s hs).1.span.stop
  · rw [preludePosition, hstop]
    exact hbody.behind

theorem preludePosition_le (h : p.Sound source) {s : Statement} (hs : s ∈ p.body)
    (hd : ¬ s.IsDirective) : preludePosition p ≤ s.span.start := by
  obtain ⟨ds, rest, hsplit, hds, -, -, -, hrest⟩ := preludePosition_eq h
  rw [hsplit, List.mem_append] at hs
  exact (hrest.between s (hs.resolve_left fun hmem => hd (hds s hmem))).2.1

theorem between_of_mem (hp : program source = .ok p) {s : Statement} (hs : s ∈ p.body)
    (he : e ∈ callEdits s.parts ∨ e ∈ statementEdits s) :
    Between source s.span.start s.span.stop e := by
  obtain ⟨hsound, hkeyed⟩ := program_reads hp
  obtain ⟨hkey, hwords⟩ := hkeyed s hs
  obtain ⟨hstands, -, -⟩ := hsound.2.between s hs
  rcases he with he | he
  · exact callEdits_between hstands.parts hwords e he
  · exact statementEdits_between hstands hkey e he

/-- All edits but that of the prelude lie behind its place. -/
theorem codeEdits_between (hp : program source = .ok p) :
    ∀ e ∈ codeEdits p, Between source (preludePosition p) (Text.size source) e := by
  have hsound := program_sound hp
  intro e he
  obtain ⟨s, hs, he⟩ := mem_codeEdits.mp he
  exact (between_of_mem hp hs he).mono (preludePosition_le hsound hs (not_isDirective he))
    (hsound.2.between s hs).2.2

theorem preludeEdits_span (he : e ∈ preludeEdits p) :
    e.span = ⟨preludePosition p, preludePosition p⟩ := by
  rw [preludeEdits] at he
  split at he
  · cases he
  · split_ifs at he with h <;> obtain rfl := List.mem_singleton.mp he
    · rw [h]
      rfl
    · rfl

theorem commonForm_eq (hp : program source = .ok p) : commonForm source = .ok (text source p) := by
  rw [commonForm, hp]
  rfl

/-- All edits stand in the text, and those that are kept are written into it. -/
theorem text_written (hp : program source = .ok p) :
    Edit.Written 0 (Edit.kept 0 (Edit.sort (edits p))) source (text source p) := by
  have hstands : ∀ e ∈ Edit.sort (edits p), e.span.Stands source := by
    intro e he
    rw [(Edit.sort_perm _).mem_iff, edits_eq, List.mem_append] at he
    rcases he with he | he
    · exact (codeEdits_between hp e he).stands
    · obtain ⟨-, -, -, -, -, -, hplace, -⟩ := preludePosition_eq (program_sound hp)
      rw [preludeEdits_span he]
      exact ⟨hplace, hplace, Nat.le_refl _⟩
  have hscan := Edit.scan_kept 0 (Edit.sort (edits p))
  exact (hscan.chained fun e he => (hstands e he).le).written (Cursor.at_start source)
    fun e he => hstands e (hscan.mem e he)

end CommonForm
end Bundler.JavaScript
