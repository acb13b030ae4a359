import Bundler.JavaScript.Tree
import Bundler.Proofs.JavaScript.Cursor

/-! Trees that fit their text. Every span of a sound tree lies between two places of the
text, every lexeme is the text of its span, and the parts of a node stand inside it, one
behind the other. A call ends behind its arguments, so no two calls of a tree have one span. -/
namespace Bundler.JavaScript

variable {source : List Char}

/-- The text of a lexeme is what stands at its span. -/
def Lexeme.Stands (source : List Char) (w : Lexeme) : Prop :=
  ∃ front back, source = front ++ w.text ++ back ∧ Text.size front = w.span.start ∧
    w.span.stop = w.span.start + Text.size w.text

theorem Lexeme.Stands.span {w : Lexeme} (h : w.Stands source) : w.span.Stands source := by
  obtain ⟨front, back, hs, hstart, hstop⟩ := h
  refine ⟨⟨front, w.text ++ back, by simpa using hs, hstart⟩,
    ⟨front ++ w.text, back, hs, by simp [hstart, hstop]⟩, by omega⟩

/-- What two cursors enclose. -/
theorem Lexeme.stands_between {c d : Cursor} (hc : c.At source) (hd : d.At source)
    (h : c.pos ≤ d.pos) :
    (⟨⟨c.pos, d.pos⟩, Text.take (d.pos - c.pos) c.rest⟩ : Lexeme).Stands source := by
  obtain ⟨text, hrest, hpos⟩ := hc.exists_between hd h
  rw [hrest, hpos, Nat.add_sub_cancel_left, Text.take_size_append]
  obtain ⟨front, hsource, hfront⟩ := hc
  exact ⟨front, d.rest, by rw [hsource, hrest, List.append_assoc], hfront, rfl⟩

namespace Node

def IsTemplate (n : Node) : Prop := ∃ l parts, n = template l parts

mutual

/-- A node whose parts stand inside it, in order. -/
def Sound (source : List Char) : Node → Prop
  | name w | string w => w.Stands source
  | template l parts =>
    l.Stands source ∧ l.span.start < l.span.stop ∧
      AllSound source l.span.start (l.span.stop - 1) parts
  | call s callee args =>
    s.Stands source ∧ Sound source callee ∧ s.start ≤ callee.span.start ∧
      callee.span.stop < s.stop ∧ AllSound source callee.span.stop (s.stop - 1) args
  | tagged s tag t =>
    s.Stands source ∧ Sound source tag ∧ Sound source t ∧ s.start ≤ tag.span.start ∧
      tag.span.stop ≤ t.span.start ∧ t.IsTemplate ∧ t.span.stop ≤ s.stop
  | importWord s => s.Stands source
  | other s parts => s.Stands source ∧ AllSound source s.start s.stop parts

/-- Nodes between two positions, in order. -/
def AllSound (source : List Char) (low high : Nat) : List Node → Prop
  | [] => True
  | n :: ns =>
    Sound source n ∧ low ≤ n.span.start ∧ n.span.stop ≤ high ∧ AllSound source n.span.stop high ns

end

theorem Sound.span {n : Node} (h : n.Sound source) : n.span.Stands source := by
  cases n with
  | name w | string w => exact Lexeme.Stands.span h
  | template l parts => exact h.1.span
  | call s callee args | tagged s tag t | other s parts => exact h.1
  | importWord s => exact h

theorem Sound.start_lt_stop {t : Node} (h : t.Sound source) (ht : t.IsTemplate) :
    t.span.start < t.span.stop := by
  obtain ⟨l, parts, rfl⟩ := ht
  exact h.2.1

variable {low low' high high' : ℕ} {xs ys : List Node}

theorem AllSound.mono (h : AllSound source low high xs) (hl : low' ≤ low) (hh : high ≤ high') :
    AllSound source low' high' xs := by
  induction xs generalizing low low' with
  | nil => trivial
  | cons n ns ih =>
    obtain ⟨hn, hstart, hstop, hns⟩ := h
    exact ⟨hn, Nat.le_trans hl hstart, Nat.le_trans hstop hh, ih hns (Nat.le_refl _)⟩

theorem AllSound.append {mid mid' : ℕ} (hx : AllSound source low mid xs)
    (hy : AllSound source mid' high ys) (h : low ≤ mid' ∧ mid ≤ mid' ∧ mid ≤ high) :
    AllSound source low high (xs ++ ys) := by
  induction xs generalizing low with
  | nil => exact hy.mono h.1 (Nat.le_refl _)
  | cons n ns ih =>
    obtain ⟨hn, hstart, hstop, hns⟩ := hx
    exact ⟨hn, hstart, Nat.le_trans hstop h.2.2, ih hns ⟨Nat.le_trans hstop h.2.1, h.2⟩⟩

theorem allSound_singleton {n : Node} :
    AllSound source low high [n] ↔ n.Sound source ∧ low ≤ n.span.start ∧ n.span.stop ≤ high := by
  simp [AllSound]

mutual

/-- A node in which the word of every dynamic import takes up room. -/
def Worded : Node → Prop
  | name _ | string _ => True
  | template _ parts | other _ parts => AllWorded parts
  | call _ callee args => Worded callee ∧ AllWorded args
  | tagged _ tag t => Worded tag ∧ Worded t
  | importWord s => s.start < s.stop

def AllWorded : List Node → Prop
  | [] => True
  | n :: ns => Worded n ∧ AllWorded ns

end

theorem allWorded_append : AllWorded (xs ++ ys) ↔ AllWorded xs ∧ AllWorded ys := by
  induction xs with
  | nil => exact (and_iff_right trivial).symm
  | cons n ns ih => exact (and_congr_right fun _ => ih).trans and_assoc.symm

theorem AllWorded.append (hx : AllWorded xs) (hy : AllWorded ys) : AllWorded (xs ++ ys) :=
  allWorded_append.mpr ⟨hx, hy⟩

/-- Nodes that are there take up room. -/
theorem AllSound.low_le_high {n : Node} (h : AllSound source low high (n :: xs)) : low ≤ high := by
  obtain ⟨hn, hstart, hstop, -⟩ := h
  have := hn.span.le
  omega

end Node

/-! ### Statements -/

/-- A declaration whose parts stand inside it. -/
def Declaration.Sound (source : List Char) (d : Declaration) : Prop :=
  d.span.Stands source ∧ Node.AllSound source d.span.start d.span.stop d.parts

/-- An export between two positions, the first of them in front of the word `export`. -/
def ExportForm.Sound (source : List Char) (low high : ℕ) : ExportForm → Prop
  | .all _ | .namespace _ _ | .names _ _ => True
  | .declaration _ word d =>
    IsPlace source word ∧ low ≤ word ∧ word ≤ d.span.start ∧ d.span.stop ≤ high ∧ d.Sound source
  | .value word n =>
    IsPlace source word ∧ low ≤ word ∧ word ≤ n.span.start ∧ n.span.stop ≤ high ∧ n.Sound source

theorem ExportForm.Sound.parts {low high : ℕ} {form : ExportForm}
    (h : form.Sound source low high) : Node.AllSound source low high form.parts := by
  cases form with
  | declaration isDefault word d =>
    obtain ⟨-, hlow, hword, hstop, -, hparts⟩ := h
    exact hparts.mono (Nat.le_trans hlow hword) hstop
  | value word n =>
    obtain ⟨-, hlow, hword, hstop, hn⟩ := h
    exact Node.allSound_singleton.mpr ⟨hn, Nat.le_trans hlow hword, hstop⟩
  | _ => trivial

namespace Statement

/-- A statement whose parts stand inside it, in order. -/
def Sound (source : List Char) : Statement → Prop
  | importing s _ _ attributes =>
    s.Stands source ∧ Node.AllSound source s.start s.stop attributes
  | exporting s form decorators =>
    s.Stands source ∧ ∃ mid, s.start ≤ mid ∧ mid ≤ s.stop ∧
      Node.AllSound source s.start mid decorators ∧ form.Sound source mid s.stop
  | directive s l => s.Stands source ∧ l.Stands source ∧ s.start ≤ l.span.start ∧ l.span.stop ≤ s.stop
  | declaration d => d.Sound source
  | markupComment s => s.Stands source
  | other s parts => s.Stands source ∧ Node.AllSound source s.start s.stop parts

theorem Sound.span {s : Statement} (h : s.Sound source) : s.span.Stands source := by
  cases s with
  | markupComment s => exact h
  | _ => exact h.1

theorem Sound.parts {s : Statement} (h : s.Sound source) :
    Node.AllSound source s.span.start s.span.stop s.parts := by
  cases s with
  | importing s clause literal attributes => exact h.2
  | exporting s form decorators =>
    obtain ⟨-, mid, hlow, hhigh, hdecorators, hform⟩ := h
    exact hdecorators.append (ExportForm.Sound.parts hform) ⟨hlow, Nat.le_refl _, hhigh⟩
  | directive s l => exact Node.allSound_singleton.mpr h.2
  | declaration d => exact h.2
  | markupComment s => trivial
  | other s parts => exact h.2

end Statement

/-- An export with room in front of what it exports. Only those of declarations and values have
decorators. -/
def ExportForm.Keyed (decorators : List Node) : ExportForm → Prop
  | .all _ | .namespace _ _ | .names _ _ => decorators = []
  | .declaration _ word d => word < d.span.start
  | .value word n => word < n.span.start

/-- A statement whose words take up room, where it is an import or an export. -/
def Statement.Keyed : Statement → Prop
  | .importing s _ _ _ => s.start < s.stop
  | .exporting s form decorators => s.start < s.stop ∧ form.Keyed decorators
  | _ => True

/-- Statements between two positions, in order. -/
def AllSound (source : List Char) (low high : ℕ) : List Statement → Prop
  | [] => True
  | s :: ss =>
    s.Sound source ∧ low ≤ s.span.start ∧ s.span.stop ≤ high ∧ AllSound source s.span.stop high ss

theorem AllSound.mono {low low' high high' : ℕ} {ss : List Statement}
    (h : AllSound source low high ss) (hl : low' ≤ low) (hh : high ≤ high') :
    AllSound source low' high' ss := by
  induction ss generalizing low low' with
  | nil => trivial
  | cons s ss ih =>
    obtain ⟨hs, hstart, hstop, hss⟩ := h
    exact ⟨hs, Nat.le_trans hl hstart, Nat.le_trans hstop hh, ih hss (Nat.le_refl _)⟩

/-- A program whose statements stand one behind the other, behind the interpreter's line. -/
def Program.Sound (source : List Char) (p : Program) : Prop :=
  (∀ s ∈ p.interpreter, s.Stands source) ∧
    AllSound source ((p.interpreter.map Span.stop).getD 0) (Text.size source) p.body

end Bundler.JavaScript
