import Bundler.JavaScript.Grammar
import Bundler.Proofs.JavaScript.Sound
import Bundler.Proofs.JavaScript.Trivia

/-! What the parsers of tokens and lists read. A parser leads from one cursor to a later one,
and the nodes it finds on the way stand between the two, in order. -/
namespace Bundler.JavaScript

variable {source : List Char} {c d e : Cursor} {α β : Type}

/-- The way from `c` to `d` with the nodes that were found on it. -/
structure Spans (source : List Char) (c d : Cursor) (ns : List Node) : Prop where
  stands : d.At source
  pos : c.pos ≤ d.pos
  token : c.token ≤ d.token
  nodes : Node.AllSound source c.token d.pos ns
  words : Node.AllWorded ns

namespace Spans

variable {xs ys : List Node}

theorem refl (h : c.At source) : Spans source c c [] :=
  ⟨h, Nat.le_refl _, Nat.le_refl _, trivial, trivial⟩

theorem append (h : Spans source c d xs) (h' : Spans source d e ys) :
    Spans source c e (xs ++ ys) where
  stands := h'.stands
  pos := Nat.le_trans h.pos h'.pos
  token := Nat.le_trans h.token h'.token
  nodes := h.nodes.append h'.nodes ⟨h.token, d.pos_le_token, h'.pos⟩
  words := h.words.append h'.words

theorem cons {n : Node} (h : Spans source c d [n]) (h' : Spans source d e ys) :
    Spans source c e (n :: ys) := h.append h'

theorem behind (h : Spans source c d []) (h' : Spans source d e ys) : Spans source c e ys :=
  h.append h'

theorem before (h : Spans source c d xs) (h' : Spans source d e []) : Spans source c e xs := by
  simpa using h.append h'

theorem forget (h : Spans source c d xs) : Spans source c d [] :=
  ⟨h.stands, h.pos, h.token, trivial, trivial⟩

theorem moved {n : Node} (h : Spans source c d (n :: xs)) : c.token ≤ d.pos := h.nodes.low_le_high

end Spans

/-- A way on which at least one token was read. -/
structure Reads (source : List Char) (c d : Cursor) (ns : List Node) : Prop
    extends Spans source c d ns where
  moved : c.token ≤ d.pos

namespace Reads

variable {xs ys : List Node}

theorem append (h : Reads source c d xs) (h' : Spans source d e ys) :
    Reads source c e (xs ++ ys) := ⟨h.toSpans.append h', Nat.le_trans h.moved h'.pos⟩

theorem follow (h : Spans source c d xs) (h' : Reads source d e ys) :
    Reads source c e (xs ++ ys) := ⟨h.append h'.toSpans, Nat.le_trans h.token h'.moved⟩

theorem behind (h : Reads source c d []) (h' : Spans source d e ys) : Reads source c e ys :=
  h.append h'

theorem before (h : Reads source c d xs) (h' : Spans source d e []) : Reads source c e xs := by
  simpa using h.append h'

theorem forget (h : Reads source c d xs) : Reads source c d [] := ⟨h.toSpans.forget, h.moved⟩

theorem of_token (h : d.At source) (hd : c.token ≤ d.pos) : Reads source c d [] :=
  ⟨⟨h, Nat.le_trans c.pos_le_token hd, Nat.le_trans hd d.pos_le_token, trivial, trivial⟩, hd⟩

/-- The piece of code that was read. -/
theorem other (hc : c.At source) (h : Reads source c d xs) :
    Reads source c d [.other ⟨c.token, d.pos⟩ xs] where
  toSpans := {
    h.toSpans with
    nodes := ⟨⟨⟨hc.isPlace_token, h.stands.isPlace, h.moved⟩, h.nodes⟩, Nat.le_refl _,
      Nat.le_refl _, trivial⟩
    words := ⟨h.words, trivial⟩ }
  moved := h.moved

theorem settled (hc : c.At source) (hstart : c.token = c.pos) (h : Reads source c d xs) :
    Reads source c d [.other ⟨c.pos, d.pos⟩ xs] := hstart ▸ h.other hc

end Reads

/-- A way to the end of a bracket, which none of the nodes reaches. -/
structure Closes (source : List Char) (c d : Cursor) (ns : List Node) : Prop
    extends Spans source c d ns where
  closed : c.token < d.pos
  inner : Node.AllSound source c.token (d.pos - 1) ns

namespace Closes

variable {xs ys : List Node}

theorem follow (h : Spans source c d xs) (h' : Closes source d e ys) :
    Closes source c e (xs ++ ys) where
  toSpans := h.append h'.toSpans
  closed := Nat.lt_of_le_of_lt h.token h'.closed
  inner := by
    have hd := d.pos_le_token
    have he := h'.closed
    exact h.nodes.append h'.inner ⟨h.token, hd, by omega⟩

theorem of_bracket {n : ℕ} (h : Spans source c d xs) (h' : Spans source d e [])
    (hpos : e.pos = d.token + n) (hn : 0 < n) : Closes source c e xs where
  toSpans := h.before h'
  closed := by
    have := h.token
    omega
  inner := h.nodes.mono (Nat.le_refl _) (by have := d.pos_le_token; omega)

end Closes

theorem Spans.sound_head {n : Node} {ns : List Node} (h : Spans source c d (n :: ns)) :
    n.Sound source ∧ c.token ≤ n.span.start ∧ n.span.stop ≤ d.pos :=
  ⟨h.nodes.1, h.nodes.2.1, h.nodes.2.2.1⟩

/-- A node that starts where its first part starts. -/
theorem Reads.wrap {n : Node} {ns : List Node} (h : Spans source c d (n :: ns)) :
    Reads source c d [.other ⟨n.span.start, d.pos⟩ (n :: ns)] where
  toSpans := by
    obtain ⟨hn, hstart, hstop⟩ := h.sound_head
    have hle := hn.span.le
    refine { h with
      nodes := ⟨⟨⟨hn.span.start, h.stands.isPlace, Nat.le_trans hle hstop⟩, ?_⟩,
        hstart, Nat.le_refl _, trivial⟩
      words := ⟨h.words, trivial⟩ }
    exact ⟨hn, Nat.le_refl _, hstop, h.nodes.2.2.2⟩
  moved := h.moved

theorem Reads.hollow {s : Span} {ns : List Node} (h : Reads source c d [.other s ns]) :
    Reads source c d [.other s []] :=
  ⟨{ h.toSpans with
    nodes := ⟨⟨h.nodes.1.1, trivial⟩, h.nodes.2⟩
    words := ⟨trivial, trivial⟩ }, h.moved⟩

theorem Reads.call {n : Node} {args : List Node} (h : Spans source c d [n])
    (h' : Closes source d e args) :
    Reads source c e [.call ⟨n.span.start, e.pos⟩ n args] where
  toSpans := by
    obtain ⟨hn, hstart, hstop⟩ := h.sound_head
    have hcallee : n.span.stop ≤ d.token := Nat.le_trans hstop d.pos_le_token
    have hclosed : n.span.stop < e.pos := Nat.lt_of_le_of_lt hcallee h'.closed
    have hspan : Span.Stands source ⟨n.span.start, e.pos⟩ :=
      ⟨hn.span.start, h'.stands.isPlace, Nat.le_trans hn.span.le (Nat.le_of_lt hclosed)⟩
    refine { h.append h'.toSpans with
      nodes := ⟨?_, hstart, Nat.le_refl _, trivial⟩
      words := ⟨⟨h.words.1, h'.words⟩, trivial⟩ }
    exact ⟨hspan, hn, Nat.le_refl _, hclosed, h'.inner.mono hcallee (Nat.le_refl _)⟩
  moved := Nat.le_trans h.moved h'.pos

/-- A way inside a token that holds code, such as a template. -/
structure Moves (source : List Char) (c d : Cursor) (ns : List Node) : Prop where
  stands : d.At source
  pos : c.pos ≤ d.pos
  nodes : Node.AllSound source c.pos d.pos ns
  words : Node.AllWorded ns

namespace Moves

variable {xs ys : List Node}

theorem append (h : Moves source c d xs) (h' : Moves source d e ys) :
    Moves source c e (xs ++ ys) where
  stands := h'.stands
  pos := Nat.le_trans h.pos h'.pos
  nodes := h.nodes.append h'.nodes ⟨h.pos, Nat.le_refl _, h'.pos⟩
  words := h.words.append h'.words

theorem behind (h : Moves source c d []) (h' : Moves source d e ys) : Moves source c e ys :=
  h.append h'

end Moves

theorem Spans.moves {ns : List Node} (h : Spans source c d ns) : Moves source c d ns :=
  ⟨h.stands, h.pos, h.nodes.mono c.pos_le_token (Nat.le_refl _), h.words⟩

/-- A token whose inside is read character by character. -/
theorem Reads.inside {xs ys : List Node} (h : Reads source c d xs) (h' : Moves source d e ys) :
    Reads source c e (xs ++ ys) :=
  have hle := Nat.le_trans h.moved h'.pos
  ⟨⟨h'.stands, Nat.le_trans h.pos h'.pos, Nat.le_trans hle e.pos_le_token,
    h.nodes.append h'.nodes ⟨h.moved, Nat.le_refl _, h'.pos⟩, h.words.append h'.words⟩, hle⟩

namespace Parser

/-- What holds of the answer and the cursor wherever a parser succeeds. -/
def Ensures (p : Parser α) (c : Cursor) (Q : α → Cursor → Prop) : Prop :=
  ∀ a d, p c = .ok (a, d) → Q a d

variable {p q : Parser α} {f : α → Parser β} {P Q : α → Cursor → Prop} {R : β → Cursor → Prop}

theorem Ensures.mono (h : Ensures p c P) (hPQ : ∀ a d, P a d → Q a d) : Ensures p c Q :=
  fun a d hp => hPQ a d (h a d hp)

theorem Ensures.bind (h : Ensures p c P) (hf : ∀ a d, P a d → Ensures (f a) d R) :
    Ensures (p >>= f) c R := by
  intro b e hb
  cases hp : p c with
  | error m => simp [Bind.bind, hp] at hb
  | ok r =>
    obtain ⟨a, d⟩ := r
    exact hf a d (h a d hp) b e (by simpa [Bind.bind, hp] using hb)

theorem Ensures.pure {a : α} (h : Q a c) : Ensures (pure a) c Q := by
  rintro _ _ ⟨⟩
  exact h

theorem Ensures.pure_bind {a : α} (h : Ensures (f a) c R) : Ensures (Pure.pure a >>= f) c R := h

theorem Ensures.fail : Ensures (fail : Parser α) c Q := by
  rintro _ _ ⟨⟩

theorem fail_bind : Ensures (Parser.fail >>= f) c R := by
  rintro _ _ ⟨⟩

theorem Ensures.orElse (hp : Ensures p c Q) (hq : Ensures q c Q) : Ensures (orElse p q) c Q := by
  intro a d h
  rw [Parser.orElse] at h
  cases hpc : p c with
  | ok r => exact hp a d (by simpa [hpc] using h)
  | error m =>
    cases hqc : q c with
    | ok r => exact hq a d (by simpa [hpc, hqc] using h)
    | error m' => simp [hpc, hqc] at h

theorem Ensures.ite {b : Prop} [Decidable b] (hp : b → Ensures p c Q) (hq : ¬b → Ensures q c Q) :
    Ensures (if b then p else q) c Q := by
  split
  · exact hp ‹_›
  · exact hq ‹_›

/-! ### Looking ahead -/

/-- A parser that only looks at what comes next. -/
def Peeks (p : Parser α) : Prop := ∀ c a d, p c = .ok (a, d) → d = c

theorem Peeks.bind (hp : Peeks p) (hf : ∀ a, Ensures (f a) c R) : Ensures (p >>= f) c R :=
  Ensures.bind (P := fun _ d => d = c) (fun a d h => hp c a d h) fun a d h => by
    subst h
    exact hf a

theorem cursor_bind {f : Cursor → Parser β} (h : Ensures (f c) c R) : Ensures (cursor >>= f) c R := h

theorem goto_bind {f : Unit → Parser β} (h : Ensures (f ()) d R) : Ensures (goto d >>= f) c R := h

theorem peeks_ahead : Peeks ahead := by
  rintro c _ _ ⟨⟩
  rfl

theorem peeks_isAhead (s : String) : Peeks (isAhead s) := by
  rintro c _ _ ⟨⟩
  rfl

theorem peeks_wordAhead : Peeks wordAhead := by
  rintro c _ _ ⟨⟩
  rfl

theorem peeks_semicolonImplied (b : Bool) : Peeks (semicolonImplied b) := by
  rintro c _ _ ⟨⟩
  rfl

theorem peeks_accepts (p : Parser α) : Peeks (accepts p) := by
  intro c a d h
  rw [accepts] at h
  split at h <;> cases h <;> rfl

theorem peeks_pure (a : α) : Peeks (pure a) := by
  rintro c _ _ ⟨⟩
  rfl

theorem Peeks.seq (hp : Peeks p) (hf : ∀ a, Peeks (f a)) : Peeks (p >>= f) := fun c b d h =>
  Peeks.bind (R := fun _ d => d = c) hp (fun a b d h => hf a c b d h) b d h

/-! ### Tokens -/

theorem skip_spans (hc : c.At source) : Ensures skip c fun _ d =>
    Spans source c d [] ∧ d.token = d.pos := by
  rintro _ _ ⟨⟩
  exact ⟨⟨hc.skip, c.pos_le_token, Nat.le_of_eq c.token_skip.symm, trivial, trivial⟩, c.token_skip⟩

theorem skip_bind {f : Unit → Parser β} (h : Ensures (f ()) c.skip R) : Ensures (skip >>= f) c R := h

theorem skipMarkup_spans (hc : c.At source) : Ensures skipMarkup c fun _ d =>
    Spans source c d [] ∧ d.token = d.pos := by
  rintro _ _ ⟨⟩
  have hle := c.token_le_skipMarkup
  exact ⟨⟨hc.skipMarkup, Nat.le_trans c.pos_le_token hle, by rwa [Cursor.token_skipMarkup], trivial,
    trivial⟩, c.token_skipMarkup⟩

theorem skipMarkup_peek_spans {p : Parser α} (hp : Peeks p) (hc : c.At source) :
    Ensures (do skipMarkup; p) c fun _ d => Spans source c d [] :=
  (skipMarkup_spans hc).bind fun _ d hd a e he => by
    cases hp _ _ _ he
    exact hd.1

theorem symbol_reads {s : String} (hc : c.At source) : Ensures (symbol s) c fun _ d =>
    Reads source c d [] ∧ d.pos = c.token + Text.size s.toList := by
  intro _ d h
  have hskip := hc.skip
  rw [symbol] at h
  split at h
  · rename_i rest hrest
    cases h
    generalize hd : c.skip = d at *
    obtain ⟨cs, pos⟩ := d
    obtain rfl : cs = s.toList ++ rest := after?_eq_some.mp hrest
    have hpos : c.token = pos := by rw [Cursor.token, hd]
    exact ⟨.of_token hskip.append (by simp [hpos]), by rw [hpos]⟩
  · cases h

theorem optional_spans {s : String} (hc : c.At source) : Ensures (optional s) c fun b d =>
    Spans source c d [] ∧ (b = true → d.pos = c.token + Text.size s.toList) := by
  refine (peeks_isAhead s).bind fun b => .ite (fun _ => ?_) fun _ => ?_
  · exact (symbol_reads hc).bind fun _ d hd => .pure ⟨hd.1.toSpans, fun _ => hd.2⟩
  · exact .pure ⟨.refl hc, by simp⟩

theorem take_ensures {n : ℕ} : Ensures (take n) c fun _ d => d = c.advanceBy n := by
  rintro _ _ ⟨⟩
  rfl

theorem take_moves {n : ℕ} (hc : c.At source) : Ensures (take n) c fun _ d =>
    Moves source c d [] := by
  rintro _ _ ⟨⟩
  exact ⟨hc.advanceBy n, Cursor.le_advanceBy n c, trivial, trivial⟩

/-- At the start of a token any number of characters is a token. -/
theorem take_reads {n : ℕ} (hc : c.At source) (h : c.token = c.pos) :
    Ensures (take n) c fun _ d => Reads source c d [] :=
  (take_moves hc).mono fun _ _ hd => .of_token hd.stands (Nat.le_trans (Nat.le_of_eq h) hd.pos)

theorem lexeme_reads {n : ℕ} (hc : c.At source) (h : c.token = c.pos) :
    Ensures (lexeme n) c fun w d => Reads source c d [.name w] ∧ w.span = ⟨c.token, d.pos⟩ := by
  rintro _ _ ⟨⟩
  have hread := take_reads (n := n) hc h () _ rfl
  obtain ⟨front, hsource, hpos⟩ := hc
  refine ⟨⟨{ hread.toSpans with
    nodes := ⟨?_, Nat.le_of_eq h, Nat.le_refl _, trivial⟩
    words := ⟨trivial, trivial⟩ }, hread.moved⟩, by rw [h]⟩
  rw [Cursor.advanceBy_eq]
  exact ⟨front, c.rest.drop n, by simpa using hsource, hpos, rfl⟩

/-- A word takes up room. -/
theorem word?_advances {w : List Char} (h : word? c.rest = some w) : c.pos < (c.advanceBy w.length).pos := by
  rw [word?.eq_def] at h
  split at h
  · cases h
  rename_i x cs hrest
  split_ifs at h
  split at h
  · cases h
  rename_i n hn
  cases h
  obtain ⟨m, hm⟩ := Nat.exists_eq_succ_of_ne_zero hn
  have hx := x.utf8Size_pos
  rw [Cursor.advanceBy_eq, hm, hrest]
  simp
  omega

theorem word_reads (hc : c.At source) :
    Ensures word c fun w d =>
      Reads source c d [.name w] ∧ w.span.stop = d.pos ∧ w.span.start < w.span.stop := by
  refine (skip_spans hc).bind fun _ d hd => cursor_bind ?_
  split
  · rename_i w hw
    rintro v e ⟨⟩
    obtain ⟨hread, -⟩ := lexeme_reads hd.1.stands hd.2 _ _ rfl
    exact ⟨.follow hd.1 hread, rfl, word?_advances hw⟩
  · exact .fail

theorem keyword_moves {s : String} (hc : c.At source) :
    Ensures (keyword s) c fun _ d => Reads source c d [] ∧ c.token < d.pos := by
  refine (peeks_wordAhead.seq fun _ => peeks_pure _).bind fun b => .ite (fun _ => ?_) fun _ => .fail
  refine (word_reads hc).bind fun w d hd => .pure ⟨hd.1.forget, ?_⟩
  obtain ⟨-, hstart, hstop⟩ := hd.1.sound_head
  exact Nat.lt_of_le_of_lt hstart (Nat.lt_of_lt_of_le hd.2.2 hstop)

theorem keyword_reads {s : String} (hc : c.At source) :
    Ensures (keyword s) c fun _ d => Reads source c d [] :=
  (keyword_moves hc).mono fun _ _ hd => hd.1

theorem openingWord_moves {s : String} (hc : c.At source) :
    Ensures (openingWord s) c fun _ d => Reads source c d [] ∧ c.token < d.pos :=
  (keyword_moves hc).bind fun _ _ ⟨hd, hlt⟩ => (skipMarkup_spans hd.stands).mono fun _ _ he =>
    ⟨hd.before he.1, Nat.lt_of_lt_of_le hlt he.1.pos⟩

theorem openingWord_reads {s : String} (hc : c.At source) :
    Ensures (openingWord s) c fun _ d => Reads source c d [] :=
  (openingWord_moves hc).mono fun _ _ hd => hd.1

theorem optionalWord_spans {s : String} (hc : c.At source) :
    Ensures (optionalWord s) c fun _ d => Spans source c d [] := by
  refine (peeks_wordAhead.seq fun _ => peeks_pure _).bind fun b => .ite (fun _ => ?_) fun _ => ?_
  · exact (keyword_reads hc).bind fun w d hd => .pure hd.toSpans
  · exact .pure (.refl hc)

theorem privateName_reads (hc : c.At source) :
    Ensures privateName c fun _ d => Reads source c d [] := by
  refine (symbol_reads hc).bind fun _ d hd => cursor_bind ?_
  split
  · exact (take_moves hd.1.stands).mono fun _ e he => hd.1.inside he
  · exact .fail

theorem stringEnd?_moves {quote : Char} {n : ℕ} (hc : c.At source)
    (h : stringEnd? quote n c = .ok d) : Moves source c d [] := by
  induction n generalizing c with
  | zero => cases h
  | succ n ih =>
    have hstep {e : Cursor} (he : e.At source) (hle : c.pos ≤ e.pos)
        (h : stringEnd? quote n e = .ok d) : Moves source c d [] :=
      Moves.behind ⟨he, hle, trivial, trivial⟩ (ih he h)
    rw [stringEnd?] at h
    split at h
    · cases h
    · split_ifs at h
      · cases h
        exact ⟨hc.advance, c.le_advance, trivial, trivial⟩
      · split at h
        · exact hstep (hc.advanceBy _) (Cursor.le_advanceBy _ c) h
        · cases h
      · have hskip : c.pos ≤ c.skip.pos := c.pos_le_token
        simp only at h
        split_ifs at h
        cases h
        exact ⟨hc.skip.advance, Nat.le_trans hskip (Cursor.le_advance _), trivial, trivial⟩
      · exact hstep hc.advance c.le_advance h

theorem string_reads (hc : c.At source) :
    Ensures string c fun l d => Reads source c d [.string l] := by
  refine (skip_spans hc).bind fun _ d hd => cursor_bind ?_
  split
  · refine .ite (fun _ => ?_) fun _ => .fail
    split
    · rename_i e he
      rintro _ _ ⟨⟩
      have hmove := stringEnd?_moves hd.1.stands.advance he
      have hpos : d.pos ≤ e.pos := Nat.le_trans d.le_advance hmove.pos
      have hread : Reads source d e [] := .of_token hmove.stands (by rwa [hd.2])
      refine .follow hd.1 ⟨{ hread.toSpans with
        nodes := ⟨?_, Nat.le_of_eq hd.2, Nat.le_refl _, trivial⟩
        words := ⟨trivial, trivial⟩ }, hread.moved⟩
      exact Lexeme.stands_between hd.1.stands hmove.stands hpos
    · rintro _ _ ⟨⟩
  · exact .fail

theorem number_reads (hc : c.At source) : Ensures number c fun _ d => Reads source c d [] := by
  refine (skip_spans hc).bind fun _ d hd => cursor_bind ?_
  split
  · exact .fail
  · exact (take_reads hd.1.stands hd.2).mono fun _ e he => .follow hd.1 he

theorem regularExpression_reads (hc : c.At source) :
    Ensures regularExpression c fun _ d => Reads source c d [] := by
  refine (symbol_reads hc).bind fun _ d hd => cursor_bind (.ite (fun _ => .fail) fun _ => ?_)
  exact (take_moves hd.1.stands).mono fun _ e he => hd.1.inside he

/-! ### The ends of statements -/

theorem spans_of_implied {b : Bool} (hc : c.At source) (h : c.impliedSemicolon? b = some d) :
    Spans source c d [] := by
  obtain ⟨hd, hpos, hskip⟩ := Cursor.impliedSemicolon?_spec hc h
  have htoken : c.token = d.token := by rw [Cursor.token, Cursor.token, hskip]
  exact ⟨hd, hpos, Nat.le_of_eq htoken, trivial, trivial⟩

theorem semicolon_spans {b : Bool} (hc : c.At source) :
    Ensures (semicolon b) c fun _ d => Spans source c d [] := by
  intro _ d h
  rw [semicolon] at h
  split at h
  · cases h
    exact spans_of_implied hc ‹_›
  · exact (symbol_reads hc _ _ h).1.toSpans

theorem located_ensures (h : Ensures p c P) :
    Ensures (located p) c fun r d => r.1 = ⟨c.token, d.pos⟩ ∧ P r.2 d := by
  intro r d hr
  rw [located] at hr
  split at hr
  · cases hr
    exact ⟨rfl, h _ _ ‹_›⟩
  · cases hr

theorem piece_reads {p : Parser (List Node)} (hc : c.At source)
    (h : Ensures p c fun ns d => Reads source c d ns) :
    Ensures (piece p) c fun n d => Reads source c d [n] := by
  refine (located_ensures h).bind fun r d hr => .pure ?_
  rw [hr.1]
  exact hr.2.other hc

/-! ### Lists -/

section
variable {stop : Parser Bool} {item : Parser α} {N : α → List Node}

theorem manyUntil_spans (hstop : ∀ {c : Cursor}, c.At source → Ensures stop c fun _ d => Spans source c d [])
    (hitem : ∀ {c : Cursor}, c.At source → Ensures item c fun a d => Spans source c d (N a)) :
    ∀ {n : ℕ} {c : Cursor}, c.At source →
      Ensures (manyUntil stop item n) c fun as d => Spans source c d (as.flatMap N) := by
  intro n
  induction n with
  | zero => exact fun _ => .fail
  | succ n ih =>
    intro c hc
    refine (hstop hc).bind fun b d hd => .ite (fun _ => .pure hd) fun _ => ?_
    refine (hitem hd.stands).bind fun a e he => (ih he.stands).bind fun as g hg => .pure ?_
    simpa using hd.behind (he.append hg)

theorem listTo_closes {close : String} (hclose : 0 < Text.size close.toList)
    (hitem : ∀ {c : Cursor}, c.At source → Ensures item c fun a d => Spans source c d (N a)) :
    ∀ {n : ℕ} {c : Cursor}, c.At source →
      Ensures (listTo close item n) c fun as d => Closes source c d (as.flatMap N) := by
  intro n
  induction n with
  | zero => exact fun _ => .fail
  | succ n ih =>
    intro c hc
    refine (skipMarkup_spans hc).bind fun _ c' hc' => ?_
    refine (optional_spans hc'.1.stands).bind fun b d hd => .ite (fun hb => ?_) fun _ => ?_
    · exact .pure (.of_bracket hc'.1 hd.1 (hd.2 hb) hclose)
    have hcd := hc'.1.behind hd.1
    refine (optional_spans hd.1.stands).bind fun b e he => .ite (fun hb => ?_) fun _ => ?_
    · exact (ih he.1.stands).mono fun as g hg => .follow (hcd.behind he.1) hg
    have hce := hcd.behind he.1
    refine (hitem he.1.stands).bind fun a g hg => ?_
    refine (optional_spans hg.stands).bind fun b i hi => .ite (fun hb => ?_) fun _ => ?_
    · refine (ih hi.1.stands).bind fun as j hj => .pure ?_
      exact .follow (hce.behind (hg.before hi.1)) hj
    · refine (symbol_reads hi.1.stands).bind fun _ j hj => .pure ?_
      simpa using Closes.of_bracket (hce.behind (hg.before hi.1)) hj.1.toSpans hj.2 hclose

theorem strictListTo_closes {close : String} (hclose : 0 < Text.size close.toList)
    (hitem : ∀ {c : Cursor}, c.At source → Ensures item c fun a d => Spans source c d (N a)) :
    ∀ {n : ℕ} {c : Cursor}, c.At source →
      Ensures (strictListTo close item n) c fun as d => Closes source c d (as.flatMap N) := by
  intro n
  induction n with
  | zero => exact fun _ => .fail
  | succ n ih =>
    intro c hc
    refine (skipMarkup_spans hc).bind fun _ c' hc' => ?_
    refine (optional_spans hc'.1.stands).bind fun b d hd => .ite (fun hb => ?_) fun _ => ?_
    · exact .pure (.of_bracket hc'.1 hd.1 (hd.2 hb) hclose)
    refine (hitem hd.1.stands).bind fun a e he => ?_
    have hce := hc'.1.behind (hd.1.behind he)
    refine (optional_spans he.stands).bind fun b i hi => .ite (fun hb => ?_) fun _ => ?_
    · exact (ih hi.1.stands).bind fun as j hj => .pure (.follow (hce.before hi.1) hj)
    · refine (symbol_reads hi.1.stands).bind fun _ j hj => .pure ?_
      simpa using Closes.of_bracket (hce.before hi.1) hj.1.toSpans hj.2 hclose

theorem commaItems_reads
    (hitem : ∀ {c : Cursor}, c.At source → Ensures item c fun a d => Reads source c d (N a)) :
    ∀ {n : ℕ} {c : Cursor}, c.At source →
      Ensures (commaItems item n) c fun as d => Reads source c d (as.flatMap N) := by
  intro n
  induction n with
  | zero => exact fun _ => .fail
  | succ n ih =>
    intro c hc
    refine (hitem hc).bind fun a d hd => ?_
    refine (optional_spans hd.stands).bind fun b e he => .ite (fun hb => ?_) fun _ => .pure ?_
    · refine (ih he.1.stands).bind fun as g hg => .pure ?_
      exact (hd.before he.1).append hg.toSpans
    · simpa using hd.before he.1

end
end Parser

/-! ### One level of the grammar -/

/-- Readers whose nodes stand where they were read. -/
structure Grammar.IsSound (source : List Char) (g : Grammar) : Prop where
  expression : ∀ {cx : Context} {c : Cursor}, c.At source →
    (g.expression cx).Ensures c fun n d => Reads source c d [n]
  operand : ∀ {cx : Context} {c : Cursor}, c.At source →
    (g.operand cx).Ensures c fun n d => Reads source c d [n]
  constructed : ∀ {c : Cursor}, c.At source → g.constructed.Ensures c fun n d => Reads source c d [n]
  pattern : ∀ {c : Cursor}, c.At source → g.pattern.Ensures c fun p d => Reads source c d p.parts
  statement : ∀ {c : Cursor}, c.At source →
    g.statement.Ensures c fun s d => Reads source c d [s.node] ∧ s.Sound source ∧ s.Keyed
  markup : ∀ {c : Cursor}, c.At source → g.markup.Ensures c fun n d => Reads source c d [n]

namespace Grammar
open JavaScript.Parser

theorem refusal_isSound : refusal.IsSound source where
  expression _ := .fail
  operand _ := .fail
  constructed _ := .fail
  pattern _ := .fail
  statement _ := .fail
  markup _ := .fail

variable {g : Grammar}

theorem expressions_reads {cx : Context} (hg : g.IsSound source) (hc : c.At source) :
    Ensures (g.expressions cx) c fun ns d => Reads source c d ns :=
  (commaItems_reads hg.expression hc).mono fun ns d hd => by
    simpa using hd

theorem parenthesized_reads (hg : g.IsSound source) (hc : c.At source) :
    Ensures g.parenthesized c fun ns d => Reads source c d ns := by
  refine (symbol_reads hc).bind fun _ d hd => ?_
  refine (expressions_reads hg hd.1.stands).bind fun ns e he => ?_
  refine (symbol_reads he.stands).bind fun _ f hf => .pure ?_
  exact hd.1.behind (he.toSpans.before hf.1.toSpans)

end Grammar
end Bundler.JavaScript
