import Bundler.JavaScript.Definitions
import Bundler.JavaScript.Markup
import Bundler.Proofs.JavaScript.Reads

/-! What patterns, functions, classes and markup read. -/
namespace Bundler.JavaScript.Syntax
open JavaScript.Parser

variable {source : List Char} {g : Grammar} {c d : Cursor}

/-! ### Patterns -/

theorem propertyName_reads (hg : g.IsSound source) (hc : c.At source) :
    (propertyName g).Ensures c fun n d => Reads source c d n.parts := by
  refine (skipMarkup_spans hc).bind fun _ d hd => cursor_bind ?_
  split
  · refine (symbol_reads hd.1.stands).bind fun _ e he => ?_
    refine (hg.expression he.1.stands).bind fun n f hf => ?_
    refine (symbol_reads hf.stands).bind fun _ i hi => .pure ?_
    exact .follow hd.1 (he.1.behind (hf.toSpans.before hi.1.toSpans))
  · exact (string_reads hd.1.stands).bind fun l e he => .pure (.follow hd.1 he.forget)
  · exact (string_reads hd.1.stands).bind fun l e he => .pure (.follow hd.1 he.forget)
  · exact (privateName_reads hd.1.stands).bind fun _ e he => .pure (.follow hd.1 he)
  · refine .ite (fun _ => ?_) fun _ => ?_
    · exact (number_reads hd.1.stands).bind fun _ e he => .pure (.follow hd.1 he)
    · exact (word_reads hd.1.stands).bind fun w e he => .pure (.follow hd.1 he.1.forget)

theorem peeks_isAssignAhead : Peeks isAssignAhead :=
  peeks_ahead.seq fun cs => by split <;> exact peeks_pure _

theorem patternItem_reads (hg : g.IsSound source) (hc : c.At source) :
    (patternItem g).Ensures c fun p d => Reads source c d p.parts := by
  refine (hg.pattern hc).bind fun p d hd => peeks_isAssignAhead.bind fun b => ?_
  refine .ite (fun _ => ?_) fun _ => .pure hd
  refine (symbol_reads hd.stands).bind fun _ e he => ?_
  refine (hg.expression he.1.stands).bind fun n f hf => .pure ?_
  exact hd.append (he.1.behind hf.toSpans).toSpans

theorem nestedMember_reads (hg : g.IsSound source) (hc : c.At source) :
    (nestedMember g).Ensures c fun p d => Reads source c d p.parts := by
  refine (hg.pattern hc).bind fun p d hd => ?_
  refine (symbol_reads hd.stands).bind fun _ e he => ?_
  refine (hg.expression he.1.stands).bind fun n f hf => .pure ?_
  exact hd.append (he.1.behind hf.toSpans).toSpans

theorem namedMember_reads (hg : g.IsSound source) (hc : c.At source) :
    (namedMember g).Ensures c fun p d => Reads source c d p.parts := by
  refine (propertyName_reads hg hc).bind fun name d hd => peeks_ahead.bind fun cs => ?_
  split
  · refine (symbol_reads hd.stands).bind fun _ e he => ?_
    refine (patternItem_reads hg he.1.stands).bind fun p f hf => .pure ?_
    exact hd.append (he.1.behind hf.toSpans).toSpans
  · refine (symbol_reads hd.stands).bind fun _ e he => ?_
    refine (hg.expression he.1.stands).bind fun n f hf => .pure ?_
    exact hd.append (he.1.behind hf.toSpans).toSpans
  · exact .pure hd
  · exact .fail

theorem patternMember_reads (hg : g.IsSound source) (hc : c.At source) :
    (patternMember g).Ensures c fun p d => Reads source c d p.parts := by
  refine peeks_ahead.bind fun cs => ?_
  split
  · exact hg.pattern hc
  · exact nestedMember_reads hg hc
  · exact .orElse (namedMember_reads hg hc) (nestedMember_reads hg hc)
  · exact namedMember_reads hg hc

theorem Pattern.partsOf_eq (ps : List Pattern) : Pattern.partsOf ps = ps.flatMap Pattern.parts := by
  induction ps with
  | nil => rfl
  | cons p ps ih => rw [Pattern.partsOf, ih, List.flatMap_cons]

theorem objectPattern_reads (hg : g.IsSound source) (hc : c.At source) :
    (objectPattern g).Ensures c fun p d => Reads source c d p.parts := by
  refine (symbol_reads hc).bind fun _ d hd => ?_
  refine (listTo_closes (by decide) (fun h => (patternMember_reads hg h).mono fun _ _ h => h.toSpans)
    hd.1.stands).bind fun ps e he => .pure ?_
  rw [Pattern.parts, Pattern.partsOf_eq]
  exact hd.1.behind he.toSpans

theorem arrayPattern_reads (hg : g.IsSound source) (hc : c.At source) :
    (arrayPattern g).Ensures c fun p d => Reads source c d p.parts := by
  refine (symbol_reads hc).bind fun _ d hd => ?_
  refine (listTo_closes (by decide) (fun h => (patternItem_reads hg h).mono fun _ _ h => h.toSpans)
    hd.1.stands).bind fun ps e he => .pure ?_
  rw [Pattern.parts, Pattern.partsOf_eq]
  exact hd.1.behind he.toSpans

theorem destructuring_reads (hg : g.IsSound source) (hc : c.At source) :
    (destructuring g).Ensures c fun p d => Reads source c d p.parts :=
  (peeks_isAhead _).bind fun _ =>
    .ite (fun _ => objectPattern_reads hg hc) fun _ => arrayPattern_reads hg hc

theorem peeks_isDestructuringAhead : Peeks isDestructuringAhead :=
  peeks_ahead.seq fun cs => by split <;> exact peeks_pure _

theorem declared_reads (hg : g.IsSound source) (hc : c.At source) :
    (declared g).Ensures c fun p d => Reads source c d p.parts :=
  peeks_isDestructuringAhead.bind fun _ =>
    .ite (fun _ => destructuring_reads hg hc) fun _ =>
      (word_reads hc).bind fun _ _ hd => .pure hd.1.forget

theorem parameters_reads (hg : g.IsSound source) (hc : c.At source) :
    (parameters g).Ensures c fun ns d => Reads source c d ns := by
  refine (symbol_reads hc).bind fun _ d hd => ?_
  refine (strictListTo_closes (by decide)
    (fun h => (patternItem_reads hg h).mono fun _ _ h => h.toSpans)
    hd.1.stands).bind fun ps e he => .pure ?_
  rw [Pattern.partsOf_eq]
  exact hd.1.behind he.toSpans

/-! ### Functions -/

theorem statementsTo_spans {stop : Parser Bool} (hg : g.IsSound source) (hstop : Peeks stop)
    (hc : c.At source) :
    (statementsTo g stop).Ensures c fun ns d => Spans source c d ns := by
  refine (manyUntil_spans (skipMarkup_peek_spans hstop) (fun h => (hg.statement h).mono fun _ _ h => h.1.toSpans)
    hc).bind fun ss d hd => .pure ?_
  rwa [List.map_eq_flatMap]

theorem closing_spans {b : Bool} (hc : c.At source) :
    (closing b).Ensures c fun _ d => Spans source c d [] := by
  rintro _ _ ⟨⟩
  cases h : c.impliedSemicolon? b with
  | none => exact .refl hc
  | some d => exact spans_of_implied hc h

theorem block_reads {b : Bool} (hg : g.IsSound source) (hc : c.At source) :
    (block g b).Ensures c fun n d => Reads source c d [n] := by
  refine piece_reads hc ((symbol_reads hc).bind fun _ d hd => ?_)
  refine (statementsTo_spans hg (peeks_isAhead _) hd.1.stands).bind fun ns e he => ?_
  refine (symbol_reads he.stands).bind fun _ f hf => ?_
  refine (closing_spans hf.1.stands).bind fun _ i hi => .pure ?_
  exact hd.1.behind (he.before (hf.1.toSpans.behind hi))

theorem functionRest_reads {b : Bool} (hg : g.IsSound source) (hc : c.At source) :
    (functionRest g b).Ensures c fun ns d => Reads source c d ns := by
  refine (parameters_reads hg hc).bind fun ps d hd => ?_
  exact (block_reads hg hd.stands).bind fun n e he => .pure (hd.append he.toSpans)

theorem functionWord_reads (hc : c.At source) :
    functionWord.Ensures c fun _ d => Reads source c d [] := by
  refine (openingWord_reads hc).bind fun _ d hd => ?_
  refine (optional_spans hd.stands).bind fun _ e he => ?_
  exact (skipMarkup_spans he.1.stands).mono fun _ f hf => hd.before (he.1.behind hf.1)

theorem function_reads (hg : g.IsSound source) (hc : c.At source) :
    (function g).Ensures c fun ns d => Reads source c d ns := by
  refine (optionalWord_spans hc).bind fun _ d hd => ?_
  refine (functionWord_reads hd.stands).bind fun _ e he => peeks_wordAhead.bind fun w => ?_
  have hce := Reads.follow hd he
  refine .ite (fun _ => ?_) fun _ => ?_
  · refine (word_reads he.stands).bind fun w f hf => ?_
    exact (functionRest_reads hg hf.1.stands).mono fun ns i hi =>
      hce.behind (hf.1.forget.behind hi.toSpans).toSpans
  · exact (functionRest_reads hg he.stands).mono fun ns f hf => hce.behind hf.toSpans

/-! ### Arguments -/

theorem markupComment_reads (hc : c.At source) :
    markupComment.Ensures c fun _ d => Reads source c d [] := by
  refine (skip_spans hc).bind fun _ d hd => cursor_bind ?_
  exact (take_reads hd.1.stands hd.2).mono fun _ e he => .follow hd.1 he

theorem argument_reads (hg : g.IsSound source) (hc : c.At source) :
    (argument g).Ensures c fun n d => Reads source c d [n] := by
  refine (peeks_isAhead _).bind fun _ => .ite (fun _ => ?_) fun _ => hg.expression hc
  refine piece_reads hc ((symbol_reads hc).bind fun _ d hd => ?_)
  exact (hg.expression hd.1.stands).bind fun n e he => .pure (hd.1.behind he.toSpans)

theorem argumentsTo_closes {n : ℕ} (hg : g.IsSound source) (hc : c.At source) :
    (argumentsTo g n).Ensures c fun ns d => Closes source c d ns := by
  have hclose : 0 < Text.size ")".toList := by decide
  induction n generalizing c with
  | zero => exact .fail
  | succ n ih =>
    rw [argumentsTo]
    refine peeks_ahead.bind fun cs => .ite (fun _ => ?_) fun _ => ?_
    · have hcomment : Ensures (piece do markupComment; return []) c fun m d => Reads source c d [m] :=
        piece_reads hc ((markupComment_reads hc).bind fun _ d hd => .pure hd)
      refine hcomment.bind fun m d hd => ?_
      exact (ih hd.stands).bind fun ns e he => .pure (.follow hd.toSpans he)
    refine (optional_spans hc).bind fun b d hd => .ite (fun hb => ?_) fun _ => ?_
    · exact .pure (.of_bracket (.refl hc) hd.1 (hd.2 hb) hclose)
    refine (optional_spans hd.1.stands).bind fun b e he => .ite (fun hb => ?_) fun _ => ?_
    · exact (ih he.1.stands).mono fun ns f hf => .follow (hd.1.behind he.1) hf
    refine (argument_reads hg he.1.stands).bind fun m f hf => ?_
    have hcf := hd.1.behind (he.1.behind hf.toSpans)
    refine (optional_spans hf.stands).bind fun b i hi => .ite (fun hb => ?_) fun _ => ?_
    · exact (ih hi.1.stands).bind fun ns j hj => .pure (.follow (hcf.before hi.1) hj)
    · refine (symbol_reads hi.1.stands).bind fun _ j hj => .pure ?_
      exact .of_bracket (hcf.before hi.1) hj.1.toSpans hj.2 hclose

theorem arguments_closes (hg : g.IsSound source) (hc : c.At source) :
    (arguments g).Ensures c fun ns d => Closes source c d ns := by
  refine (symbol_reads hc).bind fun _ d hd => ?_
  exact (argumentsTo_closes hg hd.1.stands).mono fun ns e he => .follow hd.1.toSpans he

/-! ### Decorators -/

theorem decoratorTail_reads (hg : g.IsSound source) {n : ℕ} {node : Node}
    (h : Reads source c d [node]) :
    (decoratorTail g node.span.start n node).Ensures d fun m e => Reads source c e [m] := by
  induction n generalizing d node with
  | zero => exact .fail
  | succ n ih =>
    rw [decoratorTail]
    refine (optional_spans h.stands).bind fun b e he => .ite (fun _ => ?_) fun _ => ?_
    · refine (skipMarkup_spans he.1.stands).bind fun _ f hf => ?_
      refine (word_reads hf.1.stands).bind fun w i hi => cursor_bind ?_
      exact ih (.wrap (h.toSpans.before (he.1.behind (hf.1.behind hi.1.forget.toSpans))))
    refine (peeks_isAhead _).bind fun b => .ite (fun _ => ?_) fun _ => .pure (h.before he.1)
    exact (arguments_closes hg he.1.stands).bind fun args f hf =>
      cursor_bind (.pure (.call (h.toSpans.before he.1) hf))

theorem decorator_reads (hg : g.IsSound source) (hc : c.At source) :
    (decorator g).Ensures c fun n d => Reads source c d [n] := by
  refine piece_reads hc ((symbol_reads hc).bind fun _ d hd => ?_)
  refine (skipMarkup_spans hd.1.stands).bind fun _ e he => ?_
  refine (word_reads he.1.stands).bind fun w f hf => ?_
  have hcf := hd.1.behind (he.1.behind hf.1.toSpans)
  exact (decoratorTail_reads hg hcf).bind fun n i hi => .pure hi

theorem decorators_spans (hg : g.IsSound source) (hc : c.At source) :
    (decorators g).Ensures c fun ns d => Spans source c d ns := by
  have hstop {c : Cursor} (hc : c.At source) :
      Ensures (do return !(← isAhead "@")) c fun _ d => Spans source c d [] :=
    (peeks_isAhead _).bind fun _ => .pure (.refl hc)
  refine (manyUntil_spans hstop (fun h => (decorator_reads hg h).mono fun _ _ h => h.toSpans)
    hc).mono fun ns d hd => ?_
  rwa [List.flatMap_singleton'] at hd

/-! ### Members -/

theorem peeks_isMemberName : Peeks isMemberName :=
  peeks_ahead.seq fun cs => by split <;> exact peeks_pure _

theorem modifier_spans {isField : Bool} {text : String} (hc : c.At source) :
    (modifier isField text).Ensures c fun _ d => Spans source c d [] := by
  refine cursor_bind ((peeks_wordAhead.seq fun _ => peeks_pure _).bind fun b => ?_)
  refine .ite (fun _ => ?_) fun _ => .pure (.refl hc)
  refine (keyword_reads hc).bind fun _ d hd => peeks_isMemberName.bind fun _ =>
    (peeks_semicolonImplied _).bind fun _ => ?_
  exact .ite (fun _ => goto_bind (.pure (.refl hc))) fun _ => .pure hd.toSpans

theorem modifiers_spans {isField : Bool} (hc : c.At source) :
    (modifiers isField).Ensures c fun _ d => Spans source c d [] := by
  have hrest {d : Cursor} {isStatic : Bool} (hd : Spans source c d []) : Ensures (do
      let isAsync ← modifier isField "async"
      if ← optional "*" then return true
      if ← modifier isField "get" then return true
      if ← modifier isField "set" then return true
      return isAsync || isStatic && !isField) d fun _ e => Spans source c e [] := by
    refine (modifier_spans hd.stands).bind fun _ e he => ?_
    refine (optional_spans he.stands).bind fun _ f hf => ?_
    have hcf := hd.behind (he.behind hf.1)
    refine .ite (fun _ => .pure hcf) fun _ => ?_
    refine (modifier_spans hf.1.stands).bind fun _ i hi => ?_
    refine .ite (fun _ => .pure (hcf.behind hi)) fun _ => ?_
    refine (modifier_spans hi.stands).bind fun _ j hj => ?_
    have hcj := hcf.behind (hi.behind hj)
    exact .ite (fun _ => .pure hcj) fun _ => .pure hcj
  refine peeks_ahead.bind fun cs => ?_
  split
  · refine (skip_spans hc).bind fun _ d hd => ?_
    exact (take_reads hd.1.stands hd.2).bind fun _ e he => hrest (hd.1.behind he.toSpans)
  · exact (modifier_spans hc).bind fun _ d hd => hrest hd

/-- A member with its decorators and its name. -/
theorem named_reads {isField : Bool} {f : List Node → Bool → PropertyName → Parser (List Node)}
    (hg : g.IsSound source) (hc : c.At source)
    (hf : ∀ ds isMethod name d, Reads source c d (ds ++ name.parts) →
      (f ds isMethod name).Ensures d fun ns e => Reads source c e ns) :
    Ensures (do
      let ds ← decorators g
      let isMethod ← modifiers isField
      let name ← propertyName g
      f ds isMethod name) c fun ns d => Reads source c d ns := by
  refine (decorators_spans hg hc).bind fun ds d hd => ?_
  refine (modifiers_spans hd.stands).bind fun isMethod e he => ?_
  refine (propertyName_reads hg he.stands).bind fun name i hi => ?_
  exact hf ds isMethod name i (.follow (hd.before he) hi)

theorem objectMember_reads (hg : g.IsSound source) (hc : c.At source) :
    (objectMember g).Ensures c fun ns d => Reads source c d ns := by
  refine (optional_spans hc).bind fun _ c' hc' => .ite (fun _ => ?_) fun _ => ?_
  · exact (hg.expression hc'.1.stands).bind fun n d hd => .pure (.follow hc'.1 hd)
  refine (named_reads hg hc'.1.stands fun ds isMethod name d hd => peeks_ahead.bind fun cs => ?_).mono
    fun ns d hd => Reads.follow hc'.1 hd
  have hdecorated {b : Bool} (h : ¬(b || !ds.isEmpty) = true) : ds = [] := by simp_all
  split
  · exact (functionRest_reads hg hd.stands).bind fun ns e he => .pure (hd.append he.toSpans)
  · refine .ite (fun _ => fail_bind) fun h => ?_
    obtain rfl := hdecorated h
    refine (symbol_reads hd.stands).bind fun _ e he => ?_
    refine (hg.expression he.1.stands).bind fun n i hi => .pure ?_
    exact hd.append (he.1.behind hi.toSpans).toSpans
  · exact .ite (fun _ => .fail) fun _ => .pure hd.forget
  · exact .fail

theorem objectLiteral_reads (hg : g.IsSound source) (hc : c.At source) :
    (objectLiteral g).Ensures c fun ns d => Reads source c d ns := by
  refine (symbol_reads hc).bind fun _ d hd => ?_
  refine (listTo_closes (by decide) (fun h => (objectMember_reads hg h).mono fun _ _ h => h.toSpans)
    hd.1.stands).bind fun ps e he => .pure ?_
  rw [List.flatMap_id'] at he
  exact hd.1.behind he.toSpans

theorem field_spans (hg : g.IsSound source) (hc : c.At source) :
    (field g).Ensures c fun ns d => Spans source c d ns := by
  refine (optional_spans hc).bind fun _ d hd => .ite (fun _ => ?_) fun _ => ?_
  · refine (hg.expression hd.1.stands).bind fun n e he => ?_
    refine (semicolon_spans he.stands).bind fun _ f hf => .pure ?_
    exact hd.1.behind (he.toSpans.before hf)
  · exact (semicolon_spans hd.1.stands).bind fun _ e he => .pure (hd.1.behind he)

theorem staticBlock_reads (hg : g.IsSound source) (hc : c.At source) :
    (staticBlock g).Ensures c fun ns d => Reads source c d ns := by
  refine (keyword_reads hc).bind fun _ d hd => ?_
  exact (block_reads hg hd.stands).bind fun n e he => .pure (hd.behind he.toSpans)

theorem classMember_spans (hg : g.IsSound source) (hc : c.At source) :
    (classMember g).Ensures c fun ns d => Spans source c d ns := by
  refine (optional_spans hc).bind fun _ c' hc' => .ite (fun _ => .pure hc'.1) fun _ => ?_
  refine (peeks_accepts _).bind fun _ => .ite (fun _ => ?_) fun _ => ?_
  · exact (staticBlock_reads hg hc'.1.stands).mono fun ns d hd => hc'.1.behind hd.toSpans
  refine (named_reads hg hc'.1.stands fun ds isMethod name d hd => (peeks_isAhead _).bind fun b => ?_).mono
    fun ns d hd => hc'.1.behind hd.toSpans
  refine .ite (fun _ => ?_) fun _ => .ite (fun _ => fail_bind) fun _ => ?_
  · exact (functionRest_reads hg hd.stands).bind fun ns e he => .pure (hd.append he.toSpans)
  · exact (field_spans hg hd.stands).bind fun ns e he => .pure (hd.append he)

theorem classRest_spans (hg : g.IsSound source) (hc : c.At source) :
    (classRest g).Ensures c fun ns d => Spans source c d ns := by
  have hrest {xs : List Node} {e : Cursor} (he : Spans source c e xs) : Ensures (do
      symbol "\x7b"
      let ms ← manyUntil (do skipMarkup; isAhead "\x7d") (classMember g) g.bound
      symbol "\x7d"
      return xs ++ ms.flatten) e fun ns d => Spans source c d ns := by
    refine (symbol_reads he.stands).bind fun _ f hf => ?_
    refine (manyUntil_spans (skipMarkup_peek_spans (peeks_isAhead _)) (classMember_spans hg)
      hf.1.stands).bind fun ms i hi => ?_
    refine (symbol_reads hi.stands).bind fun _ j hj => .pure ?_
    rw [List.flatMap_id'] at hi
    exact he.append (hf.1.toSpans.behind (hi.before hj.1.toSpans))
  refine (optionalWord_spans hc).bind fun b d hd => .ite (fun _ => ?_) fun _ => hrest hd
  exact (hg.expression hd.stands).bind fun n e he => hrest (hd.behind he.toSpans)

theorem peeks_isClassNameAhead : Peeks isClassNameAhead :=
  peeks_wordAhead.seq fun w => by split <;> exact peeks_pure _

theorem classLiteral_reads (hg : g.IsSound source) (hc : c.At source) :
    (classLiteral g).Ensures c fun ns d => Reads source c d ns := by
  refine (decorators_spans hg hc).bind fun ds d hd => ?_
  refine (openingWord_reads hd.stands).bind fun _ e he => peeks_isClassNameAhead.bind fun _ => ?_
  have hce : Reads source c e ds := by simpa using Reads.follow hd he
  refine .ite (fun _ => ?_) fun _ => ?_
  · refine (word_reads he.stands).bind fun w f hf => ?_
    exact (classRest_spans hg hf.1.stands).bind fun ns i hi =>
      .pure (hce.append (hf.1.forget.toSpans.behind hi))
  · exact (classRest_spans hg he.stands).bind fun ns f hf => .pure (hce.append hf)

/-! ### Markup -/

theorem markupWord_reads (hc : c.At source) :
    markupWord.Ensures c fun _ d => Reads source c d [] := by
  refine (skip_spans hc).bind fun _ d hd => cursor_bind ?_
  dsimp only
  split
  · exact (take_reads hd.1.stands hd.2).mono fun _ e he => .follow hd.1 he
  · exact .fail

theorem dottedRest_spans {n : ℕ} (hc : c.At source) :
    (dottedRest n).Ensures c fun _ d => Spans source c d [] := by
  induction n generalizing c with
  | zero => exact .fail
  | succ n ih =>
    refine (optional_spans hc).bind fun _ d hd => .ite (fun _ => ?_) fun _ => .pure hd.1
    refine (word_reads hd.1.stands).bind fun w e he => ?_
    exact (ih he.1.stands).mono fun _ f hf => hd.1.behind (he.1.forget.toSpans.behind hf)

theorem markupName_reads (hc : c.At source) :
    (markupName g).Ensures c fun _ d => Reads source c d [] := by
  refine (markupWord_reads hc).bind fun _ d hd => ?_
  refine (optional_spans hd.stands).bind fun _ e he => .ite (fun _ => ?_) fun _ => ?_
  · exact (markupWord_reads he.1.stands).mono fun _ f hf => hd.behind (he.1.behind hf.toSpans)
  · exact (dottedRest_spans he.1.stands).mono fun _ f hf => hd.behind (he.1.behind hf)

theorem markupCode_reads (hg : g.IsSound source) (hc : c.At source) :
    (markupCode g).Ensures c fun ns d => Reads source c d ns := by
  refine (symbol_reads hc).bind fun _ d hd => ?_
  refine (skipMarkup_spans hd.1.stands).bind fun _ e he => ?_
  refine (optional_spans he.1.stands).bind fun _ f hf => ?_
  have hcf := hd.1.behind (he.1.behind hf.1)
  refine .ite (fun _ => .pure hcf) fun _ => ?_
  refine (optional_spans hf.1.stands).bind fun _ i hi => ?_
  have hci := hcf.behind hi.1
  have hrest {xs : List Node} {j : Cursor} (hj : Spans source i j xs) : Ensures (do
      symbol "\x7d"
      return xs) j fun ns d => Reads source c d ns :=
    (symbol_reads hj.stands).bind fun _ k hk => .pure (hci.behind (hj.before hk.1.toSpans))
  refine .ite (fun _ => ?_) fun _ => ?_
  · exact (hg.expression hi.1.stands).bind fun n j hj => hrest hj.toSpans
  · exact (Grammar.expressions_reads hg hi.1.stands).bind fun ns j hj => hrest hj.toSpans

theorem attributeValue_reads (hg : g.IsSound source) (hc : c.At source) :
    (attributeValue g).Ensures c fun ns d => Reads source c d ns := by
  refine (skip_spans hc).bind fun _ d hd => cursor_bind ?_
  split
  · exact (markupCode_reads hg hd.1.stands).mono fun ns e he => .follow hd.1 he
  · exact (hg.markup hd.1.stands).bind fun n e he => .pure (.follow hd.1 he)
  · refine .ite (fun _ => ?_) fun _ => .fail
    split
    · exact (take_reads hd.1.stands hd.2).bind fun _ e he => .pure (.follow hd.1 he)
    · exact .fail
  · exact .fail

theorem markupAttribute_reads (hg : g.IsSound source) (hc : c.At source) :
    (markupAttribute g).Ensures c fun ns d => Reads source c d ns := by
  refine (peeks_isAhead _).bind fun _ => .ite (fun _ => markupCode_reads hg hc) fun _ => ?_
  have hrest {d : Cursor} (hd : Reads source c d []) : Ensures (do
      if ← optional "=" then attributeValue g
      else return []) d fun ns e => Reads source c e ns := by
    refine (optional_spans hd.stands).bind fun _ e he => .ite (fun _ => ?_) fun _ => ?_
    · exact (attributeValue_reads hg he.1.stands).mono fun ns f hf =>
        hd.behind (he.1.behind hf.toSpans)
    · exact .pure (hd.before he.1)
  refine (markupWord_reads hc).bind fun _ d hd => ?_
  refine (optional_spans hd.stands).bind fun _ e he => ?_
  refine .ite (fun _ => ?_) fun _ => ?_
  · exact (markupWord_reads he.1.stands).bind fun _ f hf =>
      hrest (hd.behind (he.1.behind hf.toSpans))
  · exact hrest (hd.before he.1)

/-- Between tags the text is read character by character. -/
theorem children_moves {n : ℕ} (hg : g.IsSound source) (hc : c.At source) :
    (children g n).Ensures c fun ns d => Moves source c d ns := by
  induction n generalizing c with
  | zero => exact .fail
  | succ n ih =>
    rw [children]
    refine cursor_bind ?_
    dsimp only
    refine .ite (fun _ => ?_) fun _ => peeks_ahead.bind fun cs => ?_
    · refine (take_moves hc).bind fun _ d hd => ?_
      exact (ih hd.stands).mono fun ns e he => hd.behind he
    split
    · have hrest {d : Cursor} (hd : Spans source c d []) : Ensures (do
          symbol ">"
          return []) d fun ns e => Moves source c e ns :=
        (symbol_reads hd.stands).bind fun _ e he => .pure (hd.behind he.1.toSpans).moves
      refine (symbol_reads hc).bind fun _ d hd => (peeks_isAhead _).bind fun _ => ?_
      refine .ite (fun _ => ?_) fun _ => hrest hd.1.toSpans
      exact (markupName_reads hd.1.stands).bind fun _ e he => hrest (hd.1.toSpans.behind he.toSpans)
    · refine (hg.markup hc).bind fun m d hd => ?_
      exact (ih hd.stands).bind fun ns e he => .pure (hd.toSpans.moves.append he)
    · refine (markupCode_reads hg hc).bind fun ms d hd => ?_
      exact (ih hd.stands).bind fun ns e he => .pure (hd.toSpans.moves.append he)
    · split
      · refine (skip_spans hc).bind fun _ d hd => ?_
        refine (take_moves hd.1.stands).bind fun _ e he => ?_
        exact (ih he.stands).mono fun ns f hf => hd.1.moves.behind (he.behind hf)
      · exact .fail

theorem elementRest_spans (hg : g.IsSound source) (hc : c.At source) :
    (elementRest g).Ensures c fun ns d => Spans source c d ns := by
  have hstop {c : Cursor} (hc : c.At source) :
      Ensures (do return (← isAhead ">") || (← isAhead "/")) c fun _ d => Spans source c d [] :=
    (peeks_isAhead _).bind fun _ => (peeks_isAhead _).bind fun _ => .pure (.refl hc)
  refine (manyUntil_spans hstop (fun h => (markupAttribute_reads hg h).mono fun _ _ h => h.toSpans)
    hc).bind fun ms d hd => ?_
  rw [List.flatMap_id'] at hd
  refine (optional_spans hd.stands).bind fun _ e he => ?_
  refine .ite (fun _ => .pure (hd.before he.1)) fun _ => ?_
  refine (symbol_reads he.1.stands).bind fun _ f hf => ?_
  refine (children_moves hg hf.1.stands).bind fun ns i hi => .pure ?_
  exact hd.append (he.1.behind (hf.1.inside hi).toSpans)

theorem element_reads (hg : g.IsSound source) (hc : c.At source) :
    (element g).Ensures c fun n d => Reads source c d [n] := by
  refine piece_reads hc ((symbol_reads hc).bind fun _ d hd => ?_)
  refine (optional_spans hd.1.stands).bind fun _ e he => .ite (fun _ => ?_) fun _ => ?_
  · exact (children_moves hg he.1.stands).mono fun ns f hf => (hd.1.behind he.1).inside hf
  · refine (markupName_reads he.1.stands).bind fun _ f hf => ?_
    exact (elementRest_spans hg hf.stands).mono fun ns i hi =>
      hd.1.behind (he.1.behind (hf.behind hi).toSpans)

end Bundler.JavaScript.Syntax
