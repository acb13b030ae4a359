import Bundler.JavaScript.Calls
import Bundler.Proofs.JavaScript.Sound

/-! The calls of a sound tree. They are listed in the order they start, an outer call in front
of the calls inside it, and no two of them have one span. A call of a name that is given a
literal first has no other call in front of the end of that literal. -/
namespace Bundler.JavaScript

variable {source : List Char}

namespace Node

/-- The literal that a node is, when it has a value of its own. -/
def literal? : Node → Option Lexeme
  | string l | template l [] => some l
  | _ => none

/-- The name of a call and the literal that it is given first. -/
def handed? : Node → Option (Lexeme × Lexeme)
  | call _ (name w) (n :: _) => n.literal?.map (w, ·)
  | _ => none

/-- A sound piece of code that is not empty, between two positions. -/
structure Within (source : List Char) (low high : ℕ) (n : Node) : Prop where
  sound : n.Sound source
  low : low ≤ n.span.start
  start_lt_stop : n.span.start < n.span.stop
  high : n.span.stop ≤ high

/-- One node starts no later than another, and either goes on behind it or ends before it. The
other one stands behind the literal that the first is given. -/
structure Precedes (m n : Node) : Prop where
  start : m.span.start ≤ n.span.start
  stop : n.span.stop < m.span.stop ∨ m.span.stop ≤ n.span.start
  literal : ∀ w l, m.handed? = some (w, l) → l.span.stop ≤ n.span.start

variable {low low' high high' : ℕ} {m n : Node} {w l : Lexeme}

theorem literal?_calls (h : n.literal? = some l) : n.calls = [] := by
  cases n with
  | string l => rfl
  | template l parts =>
    cases parts with
    | nil => rfl
    | cons n ns => cases h
  | _ => cases h

theorem Sound.literal?_stands (h : n.Sound source) (hl : n.literal? = some l) :
    l.Stands source ∧ l.span = n.span := by
  cases n with
  | string l => cases hl; exact ⟨h, rfl⟩
  | template l parts =>
    cases parts with
    | nil => cases hl; exact ⟨h.1, rfl⟩
    | cons n ns => cases hl
  | _ => cases hl

theorem handed?_eq_some (h : n.handed? = some (w, l)) :
    ∃ s a as, n = call s (name w) (a :: as) ∧ a.literal? = some l := by
  cases n with
  | call s callee args =>
    cases callee with
    | name v =>
      cases args with
      | nil => cases h
      | cons a as =>
        obtain ⟨l', hl, heq⟩ := Option.map_eq_some_iff.mp h
        cases heq
        exact ⟨s, a, as, rfl, hl⟩
    | _ => cases h
  | _ => cases h

/-- The name of a call and its first literal stand in it, the name in front. -/
theorem Sound.handed?_stands (h : n.Sound source) (hl : n.handed? = some (w, l)) :
    w.Stands source ∧ l.Stands source ∧ n.span.start ≤ w.span.start ∧
      w.span.stop ≤ l.span.start ∧ l.span.stop ≤ n.span.stop := by
  obtain ⟨s, a, as, rfl, ha⟩ := handed?_eq_some hl
  obtain ⟨-, hname, hstart, -, hsound, hlow, hhigh, -⟩ := h
  obtain ⟨hstands, hspan⟩ := hsound.literal?_stands ha
  exact ⟨hname, hstands, hstart, hspan ▸ hlow, hspan ▸ Nat.le_trans hhigh (Nat.sub_le _ _)⟩

theorem Within.mono (h : n.Within source low high) (hl : low' ≤ low) (hh : high ≤ high') :
    n.Within source low' high' :=
  ⟨h.sound, Nat.le_trans hl h.low, h.start_lt_stop, Nat.le_trans h.high hh⟩

theorem Within.precedes {mid : ℕ} (hm : m.Within source low mid) (hn : n.Within source mid high) :
    m.Precedes n := by
  have hbehind : m.span.stop ≤ n.span.start := Nat.le_trans hm.high hn.low
  refine ⟨Nat.le_trans (Nat.le_of_lt hm.start_lt_stop) hbehind, .inr hbehind, fun w l hl => ?_⟩
  exact Nat.le_trans (hm.sound.handed?_stands hl).2.2.2.2 hbehind

theorem Precedes.span_ne (h : m.Precedes n) (hn : n.span.start < n.span.stop) :
    m.span ≠ n.span := by
  intro heq
  have h := heq ▸ h.stop
  omega

mutual

theorem Sound.calls_within : ∀ {n : Node}, n.Sound source →
    ∀ m ∈ n.calls, m.Within source n.span.start n.span.stop
  | call s callee args, h, m, hm => by
    have hsound := h
    obtain ⟨-, hcallee, hstart, hstop, hargs⟩ := h
    have hle := hcallee.span.le
    rw [calls, List.mem_cons, List.mem_append] at hm
    obtain rfl | hm | hm := hm
    · exact ⟨hsound, Nat.le_refl _, by change s.start < s.stop; omega, Nat.le_refl _⟩
    · exact (Sound.calls_within hcallee m hm).mono hstart (Nat.le_of_lt hstop)
    · exact (AllSound.calls_within hargs m hm).mono (Nat.le_trans hstart hle) (Nat.sub_le _ _)
  | tagged s tag t, h, m, hm => by
    have hsound := h
    obtain ⟨-, htag, ht, hstart, hbetween, htemplate, hstop⟩ := h
    have hle := htag.span.le
    have hlt := ht.start_lt_stop htemplate
    rw [calls, List.mem_cons, List.mem_append] at hm
    obtain rfl | hm | hm := hm
    · exact ⟨hsound, Nat.le_refl _, by change s.start < s.stop; omega, Nat.le_refl _⟩
    · exact (Sound.calls_within htag m hm).mono hstart (by change _ ≤ s.stop; omega)
    · exact (Sound.calls_within ht m hm).mono (by change s.start ≤ _; omega) hstop
  | template l parts, h, m, hm =>
    (AllSound.calls_within h.2.2 m hm).mono (Nat.le_refl _) (Nat.sub_le _ _)
  | other s parts, h, m, hm => AllSound.calls_within h.2 m hm
  | name _, _, _, hm | string _, _, _, hm | importWord _, _, _, hm => by cases hm

theorem AllSound.calls_within : ∀ {ns : List Node} {low high : ℕ}, AllSound source low high ns →
    ∀ m ∈ callsOf ns, m.Within source low high
  | [], _, _, _, _, hm => by cases hm
  | n :: ns, low, high, h, m, hm => by
    obtain ⟨hn, hstart, hstop, hns⟩ := h
    rw [callsOf, List.mem_append] at hm
    obtain hm | hm := hm
    · exact (Sound.calls_within hn m hm).mono hstart hstop
    · exact (AllSound.calls_within hns m hm).mono (Nat.le_trans hstart hn.span.le) (Nat.le_refl _)

end

/-- The calls inside a template end in front of its last character. -/
theorem Sound.calls_inside (h : n.Sound source) (hn : n.IsTemplate) :
    ∀ m ∈ n.calls, m.Within source n.span.start (n.span.stop - 1) := by
  obtain ⟨l, parts, rfl⟩ := hn
  exact AllSound.calls_within h.2.2

/-- An outer call precedes what ends in front of its last character, behind its literal. -/
theorem Within.precedes_inner (hn : n.Within source low high) (hlow : m.span.start ≤ low)
    (hhigh : high < m.span.stop)
    (hl : ∀ w l, m.handed? = some (w, l) → l.span.stop ≤ n.span.start) :
    m.Precedes n :=
  ⟨Nat.le_trans hlow hn.low, .inl (Nat.lt_of_le_of_lt hn.high hhigh), hl⟩

/-- The calls in the arguments of a call stand behind the literal that it is given. -/
theorem AllSound.calls_behind {s : Span} {callee : Node} {args : List Node}
    (h : AllSound source low high args) (hl : (call s callee args).handed? = some (w, l)) :
    ∀ m ∈ callsOf args, l.span.stop ≤ m.span.start := by
  obtain ⟨s, a, as, heq, ha⟩ := handed?_eq_some hl
  cases heq
  obtain ⟨hsound, -, -, has⟩ := h
  intro m hm
  rw [callsOf, literal?_calls ha, List.nil_append] at hm
  rw [(hsound.literal?_stands ha).2]
  exact (AllSound.calls_within has m hm).low

mutual

theorem Sound.calls_pairwise : ∀ {n : Node}, n.Sound source → n.calls.Pairwise Precedes
  | call s callee args, h => by
    obtain ⟨-, hcallee, hstart, hstop, hargs⟩ := h
    have hle := hcallee.span.le
    have hlast : s.stop - 1 < s.stop := by omega
    rw [calls, List.pairwise_cons, List.pairwise_append]
    refine ⟨fun m hm => ?_, Sound.calls_pairwise hcallee, AllSound.calls_pairwise hargs,
      fun m hm n hn => (Sound.calls_within hcallee m hm).precedes (AllSound.calls_within hargs n hn)⟩
    rw [List.mem_append] at hm
    obtain hm | hm := hm
    · refine (Sound.calls_within hcallee m hm).precedes_inner hstart hstop fun w l hl => ?_
      -- a callee that is a name holds no call
      obtain ⟨_, _, _, heq, -⟩ := handed?_eq_some hl
      cases heq
      cases hm
    · exact (AllSound.calls_within hargs m hm).precedes_inner (Nat.le_trans hstart hle) hlast
        fun w l hl => hargs.calls_behind hl m hm
  | tagged s tag t, h => by
    obtain ⟨-, htag, ht, hstart, hbetween, htemplate, hstop⟩ := h
    have hle := htag.span.le
    have hlt := ht.start_lt_stop htemplate
    have hinner : tag.span.stop < s.stop := by omega
    have hlast : t.span.stop - 1 < s.stop := by omega
    have hlow : s.start ≤ t.span.start := by omega
    rw [calls, List.pairwise_cons, List.pairwise_append]
    refine ⟨fun m hm => ?_, Sound.calls_pairwise htag, Sound.calls_pairwise ht, fun m hm n hn =>
      (Sound.calls_within htag m hm).precedes
        ((Sound.calls_within ht n hn).mono hbetween (Nat.le_refl _))⟩
    obtain hm | hm := List.mem_append.mp hm
    · exact (Sound.calls_within htag m hm).precedes_inner hstart hinner fun _ _ hl => by cases hl
    · exact (ht.calls_inside htemplate m hm).precedes_inner hlow hlast fun _ _ hl => by cases hl
  | template l parts, h => AllSound.calls_pairwise h.2.2
  | other s parts, h => AllSound.calls_pairwise h.2
  | name _, _ | string _, _ | importWord _, _ => .nil

theorem AllSound.calls_pairwise : ∀ {ns : List Node} {low high : ℕ}, AllSound source low high ns →
    (callsOf ns).Pairwise Precedes
  | [], _, _, _ => .nil
  | n :: ns, low, high, h => by
    obtain ⟨hn, hstart, hstop, hns⟩ := h
    rw [callsOf, List.pairwise_append]
    refine ⟨Sound.calls_pairwise hn, AllSound.calls_pairwise hns, fun m hm n hn' => ?_⟩
    exact (Sound.calls_within hn m hm).precedes (AllSound.calls_within hns n hn')

end

end Node

/-! ### Programs -/

variable {ss : List Statement} {low high : ℕ}

theorem AllSound.calls_within (h : AllSound source low high ss) :
    ∀ m ∈ ss.flatMap fun s => Node.callsOf s.parts, m.Within source low high := by
  induction ss generalizing low with
  | nil => exact fun m hm => by cases hm
  | cons s ss ih =>
    obtain ⟨hs, hstart, hstop, hss⟩ := h
    intro m hm
    rw [List.flatMap_cons, List.mem_append] at hm
    obtain hm | hm := hm
    · exact (hs.parts.calls_within m hm).mono hstart hstop
    · exact (ih hss m hm).mono (Nat.le_trans hstart hs.span.le) (Nat.le_refl _)

theorem AllSound.calls_pairwise (h : AllSound source low high ss) :
    (ss.flatMap fun s => Node.callsOf s.parts).Pairwise Node.Precedes := by
  induction ss generalizing low with
  | nil => exact .nil
  | cons s ss ih =>
    obtain ⟨hs, hstart, hstop, hss⟩ := h
    rw [List.flatMap_cons, List.pairwise_append]
    exact ⟨hs.parts.calls_pairwise, ih hss, fun m hm n hn =>
      (hs.parts.calls_within m hm).precedes (hss.calls_within n hn)⟩

theorem Node.site?_template {l : Lexeme} {parts : List Node} :
    (template l parts).site? source = none := by
  rw [site?, argument]
  split_ifs <;> rfl

theorem Node.site?_span {n : Node} {c : CallSite} (h : n.site? source = some c) :
    c.span = n.span := by
  cases n with
  | call s callee args | tagged s tag t => cases h; rfl
  | template l parts => rw [Node.site?_template] at h; cases h
  | _ => cases h

theorem Node.argument_literal {n : Node} {value : List Char} {span : Span}
    (h : n.argument source = .literal value span) :
    ∃ l, n.literal? = some l ∧ value = Literal.value l.text ∧ span = l.span := by
  cases n with
  | string l => cases h; exact ⟨l, rfl, rfl, rfl⟩
  | template l parts =>
    cases parts with
    | nil => cases h; exact ⟨l, rfl, rfl, rfl⟩
    | cons n ns => cases h
  | _ => cases h

/-- What a call of a name is given, when that starts with a literal. -/
theorem Node.site?_handed {n : Node} {c : CallSite} {w : Lexeme} {value : List Char} {span : Span}
    (h : n.site? source = some c) (hw : c.callee = some w)
    (hfirst : c.arguments.head? = some (.literal value span)) :
    ∃ l, n.handed? = some (w, l) ∧ value = Literal.value l.text ∧ span = l.span := by
  cases n with
  | call s callee args =>
    cases h
    cases callee with
    | name v =>
      cases hw
      cases args with
      | nil => cases hfirst
      | cons a as =>
        obtain ⟨l, hl, hvalue, hspan⟩ := argument_literal (Option.some.inj hfirst)
        exact ⟨l, by rw [handed?, hl, Option.map_some], hvalue, hspan⟩
    | _ => cases hw
  | tagged s tag t => cases h; cases hfirst
  | template l parts => rw [site?_template] at h; cases h
  | _ => cases h

/-- One call stands at another place than the other, and behind the literal that this is given. -/
def CallSite.Precedes (c d : CallSite) : Prop :=
  c.span ≠ d.span ∧ ∀ w value span, c.callee = some w →
    c.arguments.head? = some (.literal value span) → span.stop ≤ d.span.start

theorem Program.Sound.callSites_pairwise {p : Program} (h : p.Sound source) :
    (p.callSites source).Pairwise CallSite.Precedes := by
  rw [Program.callSites, List.pairwise_filterMap]
  refine (List.Pairwise.and_mem.mp h.2.calls_pairwise).imp fun ⟨_, hn, hmn⟩ c hc d hd => ?_
  rw [CallSite.Precedes, Node.site?_span hc, Node.site?_span hd]
  refine ⟨hmn.span_ne (h.2.calls_within _ hn).start_lt_stop, fun w value span hw hfirst => ?_⟩
  obtain ⟨l, hl, -, rfl⟩ := Node.site?_handed hc hw hfirst
  exact hmn.literal w l hl

/-- The name of a call and the literal that it is given stand in the text, the name in front. -/
def CallSite.Stands (source : List Char) (c : CallSite) : Prop :=
  ∀ w value span, c.callee = some w → c.arguments.head? = some (.literal value span) →
    ∃ l : Lexeme, value = Literal.value l.text ∧ span = l.span ∧ w.Stands source ∧
      l.Stands source ∧ c.span.start ≤ w.span.start ∧ w.span.stop ≤ l.span.start

theorem Program.Sound.callSites_stand {p : Program} (h : p.Sound source) :
    ∀ c ∈ p.callSites source, c.Stands source := by
  intro c hc w value span hw hfirst
  obtain ⟨n, hn, hsite⟩ := List.mem_filterMap.mp hc
  obtain ⟨l, hl, hvalue, hspan⟩ := Node.site?_handed hsite hw hfirst
  obtain ⟨hname, hliteral, hstart, hbetween, -⟩ :=
    (h.2.calls_within n hn).sound.handed?_stands hl
  exact ⟨l, hvalue, hspan, hname, hliteral, Node.site?_span hsite ▸ hstart, hbetween⟩

end Bundler.JavaScript
