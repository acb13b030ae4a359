import Bundler.JavaScript.Expressions
import Bundler.Proofs.JavaScript.Definitions

/-! What expressions read. -/
namespace Bundler.JavaScript

variable {source : List Char} {g : Grammar} {cx : Context} {c d e : Cursor}

/-- A template that is given to a function. -/
theorem Reads.tagged {n t : Node} (h : Spans source c d [n]) (h' : Spans source d e [t])
    (ht : t.IsTemplate) :
    Reads source c e [.tagged ⟨n.span.start, e.pos⟩ n t] where
  toSpans := by
    obtain ⟨hn, hstart, hstop⟩ := h.sound_head
    obtain ⟨hsound, htstart, htstop⟩ := h'.sound_head
    have htag : n.span.stop ≤ t.span.start :=
      Nat.le_trans hstop (Nat.le_trans d.pos_le_token htstart)
    have hle : n.span.start ≤ e.pos :=
      Nat.le_trans hn.span.le (Nat.le_trans htag (Nat.le_trans hsound.span.le htstop))
    refine { h.append h' with
      nodes := ⟨?_, hstart, Nat.le_refl _, trivial⟩
      words := ⟨⟨h.words.1, h'.words.1⟩, trivial⟩ }
    exact ⟨⟨hn.span.start, h'.stands.isPlace, hle⟩, hn, hsound, Nat.le_refl _, htag, ht, htstop⟩
  moved := Nat.le_trans h.moved h'.pos

namespace Syntax
open JavaScript.Parser

/-! ### Primary operands -/

theorem drop_templateText? {cs : List Char} {k : ℕ} (h : templateText? cs = some k) :
    ∃ x xs, cs.drop k = x :: xs := by
  fun_induction templateText? cs generalizing k with
  | case1 => cases h
  | case2 cs => cases h; exact ⟨_, _, rfl⟩
  | case3 => cases h
  | case4 c cs => cases h; exact ⟨c, cs, rfl⟩
  | case5 c cs _ _ _ ih =>
    obtain ⟨k, hk, rfl⟩ := Option.map_eq_some_iff.mp h
    exact ih hk

/-- The last character of a template lies behind its parts. -/
theorem templateRest_moves {n : ℕ} (hg : g.IsSound source) (hc : c.At source) :
    (templateRest g n).Ensures c fun ns d =>
      ∃ e, Moves source c e ns ∧ d.At source ∧ e.pos < d.pos := by
  induction n generalizing c with
  | zero => exact .fail
  | succ n ih =>
    rw [templateRest]
    refine cursor_bind ?_
    split
    · rintro _ _ ⟨⟩
    rename_i k hk
    refine take_ensures.bind fun _ d hd => cursor_bind ?_
    subst hd
    have hmove : Moves source c (c.advanceBy k) [] :=
      ⟨hc.advanceBy k, Cursor.le_advanceBy k c, trivial, trivial⟩
    split
    · refine (take_moves hmove.stands).bind fun _ e he => ?_
      refine (Grammar.expressions_reads hg he.stands).bind fun es f hf => ?_
      refine (symbol_reads hf.stands).bind fun _ i hi => ?_
      refine (ih hi.1.stands).bind fun ns j ⟨b, hb, hj, hlt⟩ => .pure ⟨b, ?_, hj, hlt⟩
      have hes := hmove.behind (he.behind (hf.toSpans.before hi.1.toSpans).moves)
      exact hes.append hb
    · split
      · refine (take_moves hmove.stands).bind fun _ e he => ?_
        refine (ih he.stands).mono fun ns j ⟨b, hb, hj, hlt⟩ => ⟨b, ?_, hj, hlt⟩
        exact hmove.behind (he.behind hb)
      · exact .fail
    · refine take_ensures.bind fun _ e he => .pure ⟨_, hmove, ?_⟩
      subst he
      obtain ⟨x, xs, hrest⟩ := drop_templateText? hk
      refine ⟨hmove.stands.advanceBy 1, ?_⟩
      rw [Cursor.advanceBy_eq k, hrest]
      exact Nat.lt_add_of_pos_right x.utf8Size_pos

theorem template_reads (hg : g.IsSound source) (hc : c.At source) :
    (template g).Ensures c fun t d => Reads source c d [t] ∧ t.IsTemplate := by
  have hparts : Ensures (do symbol "\x60"; templateRest g g.bound) c.skip fun ns d =>
      ∃ e, Reads source c.skip e ns ∧ d.At source ∧ e.pos < d.pos := by
    refine (symbol_reads hc.skip).bind fun _ d hd => ?_
    exact (templateRest_moves hg hd.1.stands).mono fun ns e ⟨f, hf, he, hlt⟩ =>
      ⟨f, hd.1.inside hf, he, hlt⟩
  intro t d h
  simp only [template] at h
  split at h
  · cases h
    obtain ⟨e, he, hd, hlt⟩ := hparts _ _ ‹_›
    have hpos : c.skip.pos < d.pos := Nat.lt_of_le_of_lt he.pos hlt
    have hread : Reads source c d [] := .of_token hd (Nat.le_of_lt hpos)
    refine ⟨⟨{ hread.toSpans with
      nodes := ⟨⟨?_, hpos, ?_⟩, Nat.le_refl _, Nat.le_refl _, trivial⟩
      words := ⟨he.words, trivial⟩ }, hread.moved⟩, _, _, rfl⟩
    · exact Lexeme.stands_between hc.skip hd (Nat.le_of_lt hpos)
    · exact he.nodes.mono (Nat.le_of_eq c.token_skip.symm) (Nat.le_sub_one_of_lt hlt)
  · cases h

theorem arrayLiteral_reads (hg : g.IsSound source) (hc : c.At source) :
    (arrayLiteral g).Ensures c fun ns d => Reads source c d ns := by
  have hitem {c : Cursor} (hc : c.At source) :
      (arrayLiteral.item g).Ensures c fun n d => Spans source c d [n] := by
    refine (optional_spans hc).bind fun _ d hd => ?_
    exact (hg.expression hd.1.stands).mono fun n e he => hd.1.behind he.toSpans
  refine (symbol_reads hc).bind fun _ d hd => ?_
  refine (listTo_closes (by decide) hitem hd.1.stands).mono fun ns e he => ?_
  rw [List.flatMap_singleton'] at he
  exact hd.1.behind he.toSpans

/-- An operand that starts with a token. -/
theorem ended_reads {parts : List Node} {role : Role} (hc : c.At source) (h : c.token = c.pos)
    (hd : Reads source c d parts) :
    (ended c.pos parts role).Ensures d fun o e => Reads source c e [o.node] := by
  rintro _ _ ⟨⟩
  exact hd.settled hc h

/-- An operand that starts where its first part starts. -/
theorem ended_wrap {n : Node} {ns : List Node} {role : Role} (hd : Spans source c d (n :: ns)) :
    (ended n.span.start (n :: ns) role).Ensures d fun o e => Reads source c e [o.node] := by
  rintro _ _ ⟨⟩
  exact .wrap hd

theorem importRest_reads {w : Lexeme} (hg : g.IsSound source) (h : Spans source c d [.name w])
    (hw : w.span.start < w.span.stop) :
    (importRest g w).Ensures d fun o e => Reads source c e [o.node] := by
  have hword : Spans source c d [.importWord w.span] :=
    { h with
      nodes := ⟨h.nodes.1.span, h.nodes.2⟩
      words := ⟨hw, trivial⟩ }
  refine (skipMarkup_spans h.stands).bind fun _ e he => (peeks_isAhead _).bind fun _ => ?_
  refine .ite (fun _ => ?_) fun _ => ?_
  · refine (arguments_closes hg he.1.stands).bind fun ns f hf => cursor_bind (.pure ?_)
    exact .call (hword.before he.1) hf
  · refine (symbol_reads he.1.stands).bind fun _ f hf => ?_
    refine (word_reads hf.1.stands).bind fun p i hi => ?_
    rintro _ _ ⟨⟩
    exact (Reads.wrap (h.before (he.1.behind (hf.1.behind hi.1.forget.toSpans).toSpans))).hollow

theorem newRest_reads (hg : g.IsSound source) (hc : c.At source) (hstart : c.token = c.pos)
    (h : Reads source c d []) :
    (newRest g c.pos).Ensures d fun o e => Reads source c e [o.node] := by
  refine (optional_spans h.stands).bind fun _ e he => .ite (fun _ => ?_) fun _ => ?_
  · refine (keyword_reads he.1.stands).bind fun _ f hf => ?_
    exact ended_reads hc hstart (h.behind (he.1.behind hf.toSpans))
  refine (skipMarkup_spans he.1.stands).bind fun _ f hf => ?_
  refine (hg.constructed hf.1.stands).bind fun n i hi => (peeks_isAhead _).bind fun _ => ?_
  have hci := h.behind (he.1.behind (hf.1.behind hi.toSpans))
  refine .ite (fun _ => ?_) fun _ => ended_reads hc hstart hci
  exact (arguments_closes hg hi.stands).bind fun ns j hj =>
    ended_reads hc hstart (hci.append hj.toSpans)

theorem wordOperand_reads (hg : g.IsSound source) (hc : c.At source) (hstart : c.token = c.pos) :
    (wordOperand g).Ensures c fun o d => Reads source c d [o.node] := by
  have hname : Ensures (do return ⟨.name (← word), .name⟩) c fun (o : Operand) d =>
      Reads source c d [o.node] := (word_reads hc).bind fun w d hd => .pure hd.1
  refine cursor_bind (peeks_wordAhead.bind fun w => ?_)
  split
  · exact (function_reads hg hc).bind fun ns d hd => ended_reads hc hstart hd
  · exact (classLiteral_reads hg hc).bind fun ns d hd => ended_reads hc hstart hd
  · exact (word_reads hc).bind fun w d hd => importRest_reads hg hd.1.toSpans hd.2.2
  · exact (keyword_reads hc).bind fun _ d hd => newRest_reads hg hc hstart hd
  · exact (word_reads hc).bind fun w d hd => ended_reads hc hstart hd.1.forget
  · refine (peeks_accepts _).bind fun _ => .ite (fun _ => ?_) fun _ => hname
    exact (function_reads hg hc).bind fun ns d hd => ended_reads hc hstart hd
  · refine .ite (fun _ => ?_) fun _ => .ite (fun _ => .fail) fun _ => hname
    exact (word_reads hc).bind fun w d hd => ended_reads hc hstart hd.1.forget
  · exact .fail

theorem primary_reads (hg : g.IsSound source) (hc : c.At source) :
    (primary g).Ensures c fun o d => Reads source c d [o.node] := by
  refine (skipMarkup_spans hc).bind fun _ d hd => cursor_bind ?_
  obtain ⟨hcd, hstart⟩ := hd
  refine Ensures.mono (P := fun o e => Reads source d e [o.node]) ?_ fun o e he => .follow hcd he
  have hd := hcd.stands
  split
  · exact (Grammar.parenthesized_reads hg hd).bind fun ns e he => ended_reads hd hstart he
  · exact (arrayLiteral_reads hg hd).bind fun ns e he => ended_reads hd hstart he
  · exact (objectLiteral_reads hg hd).bind fun ns e he => ended_reads hd hstart he
  · exact (string_reads hd).bind fun l e he => .pure he
  · exact (string_reads hd).bind fun l e he => .pure he
  · exact (template_reads hg hd).bind fun t e he => .pure he.1
  · exact (regularExpression_reads hd).bind fun _ e he => ended_reads hd hstart he
  · exact (classLiteral_reads hg hd).bind fun ns e he => ended_reads hd hstart he
  · exact (element_reads hg hd).bind fun n e he => .pure he
  · refine .ite (fun _ => ?_) fun _ => wordOperand_reads hg hd hstart
    exact (number_reads hd).bind fun _ e he => ended_reads hd hstart he

/-! ### Members, calls and updates -/

theorem property_reads (hc : c.At source) : property.Ensures c fun _ d => Reads source c d [] := by
  refine (skipMarkup_spans hc).bind fun _ d hd => (peeks_isAhead _).bind fun _ => ?_
  refine .ite (fun _ => ?_) fun _ => ?_
  · exact (privateName_reads hd.1.stands).mono fun _ e he => .follow hd.1 he
  · exact (word_reads hd.1.stands).bind fun _ e he => .pure (.follow hd.1 he.1.forget)

theorem subscript_reads (hg : g.IsSound source) (hc : c.At source) :
    (subscript g).Ensures c fun ns d => Reads source c d ns := by
  refine (symbol_reads hc).bind fun _ d hd => ?_
  refine (Grammar.expressions_reads hg hd.1.stands).bind fun ns e he => ?_
  exact (symbol_reads he.stands).bind fun _ f hf =>
    .pure (hd.1.behind (he.toSpans.before hf.1.toSpans))

theorem optionalRest_reads {o : Operand} (hg : g.IsSound source) (h : Spans source c d [o.node]) :
    (optionalRest g o).Ensures d fun o' e => Reads source c e [o'.node] := by
  refine peeks_ahead.bind fun cs => ?_
  split
  · exact (subscript_reads hg h.stands).bind fun ns e he => ended_wrap (h.cons he.toSpans)
  · refine .ite (fun _ => fail_bind) fun _ => ?_
    exact (arguments_closes hg h.stands).bind fun ns e he => cursor_bind (.pure (.call h he))
  · exact (property_reads h.stands).bind fun _ e he => ended_wrap (h.before he.toSpans)

theorem update_reads {calls : Bool} {more : Operand → Parser Operand} {o : Operand} {text : String}
    (h : Reads source c d [o.node])
    (hmore : ∀ {o : Operand} {d : Cursor}, Reads source c d [o.node] →
      (more o).Ensures d fun o' e => Reads source c e [o'.node]) :
    (update cx calls more o text).Ensures d fun o' e => Reads source c e [o'.node] := by
  refine (peeks_semicolonImplied _).bind fun _ => .ite (fun _ => .pure h) fun _ => ?_
  refine (symbol_reads h.stands).bind fun _ e he => ?_
  exact (ended_wrap (h.toSpans.before he.1.toSpans)).bind fun o' f hf => hmore hf

theorem postfix_reads {calls : Bool} {n : ℕ} {o : Operand} (hg : g.IsSound source)
    (h : Reads source c d [o.node]) :
    (postfix_ g cx calls n o).Ensures d fun o' e => Reads source c e [o'.node] := by
  induction n generalizing d o with
  | zero => exact .fail
  | succ n ih =>
    rw [postfix_]
    refine peeks_ahead.bind fun cs => ?_
    split
    · refine (symbol_reads h.stands).bind fun _ e he => ?_
      refine (property_reads he.1.stands).bind fun _ f hf => ?_
      have hdf := he.1.behind hf.toSpans
      exact (ended_wrap (h.toSpans.before hdf.toSpans)).bind fun o' i hi => ih hi
    · refine .ite (fun _ => .pure h) fun _ => ?_
      refine (symbol_reads h.stands).bind fun _ e he => ?_
      exact (optionalRest_reads hg (h.toSpans.before he.1.toSpans)).bind fun o' f hf => ih hf
    · refine (subscript_reads hg h.stands).bind fun ns e he => ?_
      exact (ended_wrap (h.toSpans.cons he.toSpans)).bind fun o' f hf => ih hf
    · refine .ite (fun _ => ?_) fun _ => .pure h
      exact (arguments_closes hg h.stands).bind fun ns e he =>
        cursor_bind (ih (.call h.toSpans he))
    · refine .ite (fun _ => .pure h) fun _ => ?_
      exact (template_reads hg h.stands).bind fun t e he =>
        cursor_bind (ih (.tagged h.toSpans he.1.toSpans he.2))
    · exact update_reads h ih
    · exact update_reads h ih
    · exact .pure h

theorem reference_reads (hg : g.IsSound source) (hc : c.At source) :
    (reference g).Ensures c fun o d => Reads source c d [o.node] :=
  (primary_reads hg hc).bind fun _ _ hd => postfix_reads hg hd

theorem constructed_reads (hg : g.IsSound source) (hc : c.At source) :
    (constructed g).Ensures c fun n d => Reads source c d [n] :=
  (primary_reads hg hc).bind fun _ _ hd => (postfix_reads hg hd).bind fun _ _ he => .pure he

theorem target_reads (hg : g.IsSound source) (hc : c.At source) :
    (target g).Ensures c fun p d => Reads source c d p.parts := by
  refine peeks_isDestructuringAhead.bind fun _ => .ite (fun _ => destructuring_reads hg hc) fun _ => ?_
  refine (reference_reads hg hc).bind fun o d hd => ?_
  split
  · exact .pure hd.forget
  · exact .pure hd
  · exact .pure hd
  · exact .fail

theorem pattern_reads (hg : g.IsSound source) (hc : c.At source) :
    (pattern g).Ensures c fun p d => Reads source c d p.parts := by
  refine (skipMarkup_spans hc).bind fun _ d hd => ?_
  refine (optional_spans hd.1.stands).bind fun _ e he => ?_
  have hce := hd.1.behind he.1
  refine .ite (fun _ => ?_) fun _ => ?_
  · exact (target_reads hg he.1.stands).bind fun p f hf => .pure (.follow hce hf)
  · exact (target_reads hg he.1.stands).mono fun p f hf => .follow hce hf

/-! ### Arrow functions and assignments -/

theorem arrowBody_reads (hg : g.IsSound source) (hc : c.At source) :
    (arrowBody g cx).Ensures c fun r d => Reads source c d [r.1] := by
  have hexpression {d : Cursor} (hd : d.At source) :
      (arrowBody.expressionBody g cx).Ensures d fun r e => Reads source d e [r.1] :=
    (hg.expression hd).bind fun n e he => .pure he
  have hbody {d : Cursor} (hd : d.At source) :
      Ensures (do return (← block g true, .primary)) d fun (r : Node × Role) e =>
        Reads source d e [r.1] :=
    (block_reads hg hd).bind fun n e he => .pure he
  refine (skipMarkup_spans hc).bind fun _ d hd => ?_
  refine Ensures.mono (P := fun r e => Reads source d e [r.1]) ?_ fun r e he => .follow hd.1 he
  refine (peeks_isAhead _).bind fun _ => .ite (fun _ => ?_) fun _ => hexpression hd.1.stands
  refine (peeks_accepts _).bind fun _ => .ite (fun _ => ?_) fun _ => hbody hd.1.stands
  exact .orElse (hbody hd.1.stands) (hexpression hd.1.stands)

theorem arrowRest_reads {start : ℕ} {ps : List Node} (hg : g.IsSound source)
    (h : Reads source c d ps)
    (hstart : ∀ {n : Node} {e : Cursor}, Reads source c e (ps ++ [n]) →
      Reads source c e [.other ⟨start, e.pos⟩ (ps ++ [n])]) :
    (arrowRest g cx start ps).Ensures d fun o e => Reads source c e [o.node] := by
  refine (symbol_reads h.stands).bind fun _ e he => ?_
  refine (arrowBody_reads hg he.1.stands).bind fun r f hf => ?_
  rintro _ _ ⟨⟩
  exact hstart (h.append (he.1.behind hf.toSpans).toSpans)

theorem groupOrArrow_reads (hg : g.IsSound source) (hc : c.At source) (hstart : c.token = c.pos) :
    (groupOrArrow g cx).Ensures c fun o d => Reads source c d [o.node] := by
  refine cursor_bind (.orElse ?_ ?_)
  · refine (Grammar.parenthesized_reads hg hc).bind fun ns d hd => ?_
    refine (ended_reads hc hstart hd).bind fun o e he => (peeks_isAhead _).bind fun _ => ?_
    exact .ite (fun _ => fail_bind) fun _ => .pure he
  · exact (parameters_reads hg hc).bind fun ps d hd =>
      arrowRest_reads hg hd (Reads.settled hc hstart)

theorem asyncArrow_reads (hg : g.IsSound source) (hc : c.At source) (hstart : c.token = c.pos) :
    (asyncArrow g cx).Ensures c fun o d => Reads source c d [o.node] := by
  refine cursor_bind ((keyword_reads hc).bind fun _ d hd => (peeks_semicolonImplied _).bind fun _ => ?_)
  refine .ite (fun _ => fail_bind) fun _ => (peeks_isAhead _).bind fun _ => .ite (fun _ => ?_) fun _ => ?_
  · exact (parameters_reads hg hd.stands).bind fun ps e he =>
      arrowRest_reads hg (hd.behind he.toSpans) (Reads.settled hc hstart)
  · exact (word_reads hd.stands).bind fun w e he =>
      arrowRest_reads hg (hd.behind he.1.toSpans) (Reads.settled hc hstart)

theorem literalOrPattern_reads (hg : g.IsSound source) (hc : c.At source)
    (hstart : c.token = c.pos) :
    (literalOrPattern g).Ensures c fun o d => Reads source c d [o.node] := by
  refine cursor_bind (.orElse ?_ ?_)
  · refine (primary_reads hg hc).bind fun o d hd => peeks_isAssignAhead.bind fun _ => ?_
    exact .ite (fun _ => fail_bind) fun _ => .pure hd
  · refine (destructuring_reads hg hc).bind fun p d hd => peeks_isAssignAhead.bind fun _ => ?_
    exact .ite (fun _ => ended_reads hc hstart hd) fun _ => .fail

theorem chained_reads (hg : g.IsSound source) (hc : c.At source) :
    (chained g cx).Ensures c fun o d => Reads source c d [o.node] := by
  refine (skipMarkup_spans hc).bind fun _ d hd => cursor_bind ?_
  obtain ⟨hcd, hstart⟩ := hd
  have hd := hcd.stands
  refine Ensures.mono (P := fun o e => Reads source d e [o.node]) ?_ fun o e he => .follow hcd he
  split
  · exact (groupOrArrow_reads hg hd hstart).bind fun o e he => postfix_reads hg he
  · exact (literalOrPattern_reads hg hd hstart).bind fun o e he => postfix_reads hg he
  · exact (literalOrPattern_reads hg hd hstart).bind fun o e he => postfix_reads hg he
  refine Ensures.bind (.orElse (asyncArrow_reads hg hd hstart) (primary_reads hg hd)) fun o e he => ?_
  split
  · rename_i w hw
    rw [hw] at he
    refine (peeks_isAhead _).bind fun _ => .ite (fun _ => ?_) fun _ => postfix_reads hg (hw ▸ he)
    refine (arrowRest_reads hg he fun h => ?_).bind fun o f hf => postfix_reads hg hf
    exact .wrap (n := .name w) h.toSpans
  · exact postfix_reads hg he

theorem assigned_reads (hg : g.IsSound source) (hc : c.At source) :
    (assigned g cx).Ensures c fun n d => Reads source c d [n] := by
  have hvalue {o : Operand} {d e : Cursor} (hd : Spans source c d [o.node]) (he : Spans source d e []) :
      Ensures (do
        let value ← g.expression cx
        return (← ended o.node.span.start [o.node, value] .other).node) e fun n f =>
        Reads source c f [n] := by
    refine (hg.expression he.stands).bind fun value f hf => ?_
    exact (ended_wrap (hd.cons (he.behind hf.toSpans))).bind fun o i hi => .pure hi
  refine (chained_reads hg hc).bind fun o d hd => peeks_isAssignAhead.bind fun _ => ?_
  refine .ite (fun _ => ?_) fun _ => peeks_ahead.bind fun cs => ?_
  · exact (symbol_reads hd.stands).bind fun _ e he => hvalue hd.toSpans he.1.toSpans
  split
  · refine .ite (fun _ => ?_) fun _ => .pure hd
    refine (skip_spans hd.stands).bind fun _ e he => ?_
    exact (take_reads he.1.stands he.2).bind fun _ f hf =>
      hvalue hd.toSpans (he.1.behind hf.toSpans)
  · exact .pure hd

/-! ### Operators -/

theorem yielded_reads (hg : g.IsSound source) (hc : c.At source) :
    (yielded g cx).Ensures c fun n d => Reads source c d [n] := by
  refine piece_reads hc ((keyword_reads hc).bind fun _ d hd => (peeks_semicolonImplied _).bind fun _ => ?_)
  refine .ite (fun _ => .pure hd) fun _ => ?_
  refine (optional_spans hd.stands).bind fun _ e he => .ite (fun _ => ?_) fun _ => ?_
  · exact (hg.expression he.1.stands).bind fun n f hf => .pure (hd.behind (he.1.behind hf.toSpans))
  refine peeks_ahead.bind fun _ => .ite (fun _ => ?_) fun _ => .pure (hd.before he.1)
  exact (hg.expression he.1.stands).bind fun n f hf => .pure (hd.behind (he.1.behind hf.toSpans))

theorem prefixed_reads {n : ℕ} (hg : g.IsSound source) (hc : c.At source) :
    (prefixed g cx n).Ensures c fun n d => Reads source c d [n] := by
  refine piece_reads hc ((skip_spans hc).bind fun _ d hd => ?_)
  refine (take_reads hd.1.stands hd.2).bind fun _ e he => ?_
  exact (hg.operand he.stands).bind fun n f hf => .pure (.follow hd.1 (he.behind hf.toSpans))

theorem operand_reads (hg : g.IsSound source) (hc : c.At source) :
    (operand g cx).Ensures c fun n d => Reads source c d [n] := by
  refine (skipMarkup_spans hc).bind fun _ d hd => cursor_bind ?_
  obtain ⟨hcd, -⟩ := hd
  have hd := hcd.stands
  refine Ensures.mono (P := fun n e => Reads source d e [n]) ?_ fun o e he => .follow hcd he
  split
  · exact prefixed_reads hg hd
  · exact prefixed_reads hg hd
  · exact prefixed_reads hg hd
  · exact prefixed_reads hg hd
  · exact prefixed_reads hg hd
  · exact prefixed_reads hg hd
  · refine piece_reads hd ((privateName_reads hd).bind fun _ e he => ?_)
    refine (peeks_wordAhead.seq fun _ => peeks_pure _).bind fun _ => ?_
    exact .ite (fun _ => .pure he) fun _ => .fail
  · refine peeks_wordAhead.bind fun w => ?_
    split
    · exact yielded_reads hg hd
    · refine .ite (fun _ => prefixed_reads hg hd) fun _ => ?_
      refine .ite (fun _ => ?_) fun _ => assigned_reads hg hd
      refine (keyword_reads hd).bind fun _ e he => ?_
      exact (assigned_reads hg he.stands).mono fun n f hf => he.behind hf.toSpans
    · exact assigned_reads hg hd

theorem peeks_isTernaryAhead : Peeks isTernaryAhead :=
  peeks_ahead.seq fun cs => by split <;> exact peeks_pure _

theorem expression_reads (hg : g.IsSound source) (hc : c.At source) :
    (expression g cx).Ensures c fun n d => Reads source c d [n] := by
  refine (operand_reads hg hc).bind fun left d hd => peeks_ahead.bind fun cs => ?_
  split
  · refine (skip_spans hd.stands).bind fun _ e he => ?_
    refine (take_reads he.1.stands he.2).bind fun _ f hf => ?_
    refine (hg.expression hf.stands).bind fun right i hi => ?_
    have hdi := he.1.behind (hf.behind hi.toSpans).toSpans
    exact (ended_wrap (hd.toSpans.cons hdi)).bind fun o j hj => .pure hj
  refine peeks_isTernaryAhead.bind fun _ => .ite (fun _ => ?_) fun _ => .pure hd
  refine (symbol_reads hd.stands).bind fun _ e he => ?_
  refine (hg.expression he.1.stands).bind fun yes f hf => ?_
  refine (symbol_reads hf.stands).bind fun _ i hi => ?_
  refine (hg.expression hi.1.stands).bind fun no j hj => ?_
  have hyes := he.1.toSpans.behind (hf.toSpans.before hi.1.toSpans)
  exact (ended_wrap (hd.toSpans.cons (hyes.cons hj.toSpans))).bind fun o k hk => .pure hk

end Syntax
end Bundler.JavaScript
