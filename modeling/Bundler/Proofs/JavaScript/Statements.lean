import Bundler.JavaScript.Program
import Bundler.Proofs.JavaScript.Expressions

/-! What statements and programs read: every statement of a program is sound, and it stands
behind the one before. -/
namespace Bundler.JavaScript

variable {source : List Char} {g : Grammar} {c d e : Cursor}

namespace Syntax
open JavaScript.Parser

/-! ### Declarations -/

theorem declarator_reads (hg : g.IsSound source) (hc : c.At source) :
    (declarator g).Ensures c fun r d => Reads source c d r.2.1 := by
  refine (skipMarkup_spans hc).bind fun _ d hd => ?_
  refine (declared_reads hg hd.1.stands).bind fun p e he => ?_
  have hce := Reads.follow hd.1 he
  refine peeks_isAssignAhead.bind fun _ => .ite (fun _ => ?_) fun _ => .pure hce
  refine (symbol_reads he.stands).bind fun _ f hf => ?_
  refine (hg.expression hf.1.stands).bind fun n i hi => .pure ?_
  exact hce.append (hf.1.behind hi.toSpans).toSpans

/-- A declaration on the way. -/
def Declares (source : List Char) (c d : Cursor) (x : Declaration) : Prop :=
  Reads source c d [] ∧ x.Sound source ∧ c.token ≤ x.span.start ∧ x.span.stop ≤ d.pos ∧
    Node.AllWorded x.parts

theorem Declares.of_reads {binds : Binds} {ns : List Node} (hc : c.At source)
    (h : Reads source c d ns) : Declares source c d ⟨⟨c.token, d.pos⟩, binds, ns⟩ :=
  ⟨h.forget, ⟨⟨hc.isPlace_token, h.stands.isPlace, h.moved⟩, h.nodes⟩, Nat.le_refl _, Nat.le_refl _,
    h.words⟩

theorem variableDeclaration_declares (hg : g.IsSound source) (hc : c.At source) :
    (variableDeclaration g).Ensures c fun x d => Declares source c d x := by
  refine (located_ensures (P := fun ds d => Reads source c d (ds.flatMap (·.2.1))) ?_).bind
    fun r d hd => .pure ?_
  · refine (word_reads hc).bind fun w d hd => ?_
    refine (commaItems_reads (declarator_reads hg) hd.1.stands).bind fun ds e he => ?_
    refine (semicolon_spans he.stands).bind fun _ f hf => .pure ?_
    exact hd.1.forget.behind (he.toSpans.before hf)
  · rw [hd.1]
    exact .of_reads hc hd.2

theorem functionDeclaration_declares (hg : g.IsSound source) (hc : c.At source) :
    (functionDeclaration g).Ensures c fun x d => Declares source c d x := by
  refine (located_ensures (P := fun r d => Reads source c d r.2) ?_).bind fun r d hd => .pure ?_
  · refine (optionalWord_spans hc).bind fun _ d hd => ?_
    refine (functionWord_reads hd.stands).bind fun _ e he => ?_
    refine (word_reads he.stands).bind fun w f hf => ?_
    refine (functionRest_reads hg hf.1.stands).bind fun ns i hi => .pure ?_
    exact .follow hd (he.behind (hf.1.forget.behind hi.toSpans).toSpans)
  · rw [hd.1]
    exact .of_reads hc hd.2

theorem classDeclaration_declares {ds : List Node} (hg : g.IsSound source) (hc : c.At source)
    (hstart : c.token = c.pos) (h : Spans source c d ds) :
    (classDeclaration g c.pos ds).Ensures d fun x e => Declares source c e x := by
  refine (openingWord_reads h.stands).bind fun _ e he => ?_
  refine (word_reads he.stands).bind fun w f hf => ?_
  refine (classRest_spans hg hf.1.stands).bind fun ns i hi => ?_
  refine (closing_spans hi.stands).bind fun _ j hj => cursor_bind (.pure ?_)
  have hall := Reads.follow h (he.behind (hf.1.forget.behind (hi.before hj)).toSpans)
  rw [← hstart]
  exact .of_reads hc hall

theorem peeks_isFunctionDeclarationAhead : Peeks isFunctionDeclarationAhead := peeks_accepts _

theorem peeks_isClassDeclarationAhead : Peeks isClassDeclarationAhead := peeks_accepts _

theorem peeks_isLetAhead : Peeks isLetAhead := peeks_accepts _

theorem Declares.follow {x : Declaration} (h : Spans source c d []) (h' : Declares source d e x) :
    Declares source c e x :=
  ⟨.follow h h'.1, h'.2.1, Nat.le_trans h.token h'.2.2.1, h'.2.2.2⟩

theorem declaration?_spans (hg : g.IsSound source) (hc : c.At source) :
    (declaration? g).Ensures c fun x d => Spans source c d [] ∧ ∀ y ∈ x, Declares source c d y := by
  refine (skipMarkup_spans hc).bind fun _ d hd => cursor_bind (peeks_wordAhead.bind fun w => ?_)
  obtain ⟨hcd, hstart⟩ := hd
  have hd := hcd.stands
  have hnone : Ensures (pure none) d fun (x : Option Declaration) e =>
      Spans source c e [] ∧ ∀ y ∈ x, Declares source c e y := .pure ⟨hcd, by simp⟩
  have hsome {p : Parser Declaration} (hp : p.Ensures d fun x e => Declares source d e x) :
      Ensures (do return some (← p)) d fun x e =>
        Spans source c e [] ∧ ∀ y ∈ x, Declares source c e y :=
    hp.bind fun x e he => .pure ⟨hcd.behind he.1.toSpans, by simpa using he.follow hcd⟩
  split
  · exact hsome (variableDeclaration_declares hg hd)
  · exact hsome (variableDeclaration_declares hg hd)
  · exact peeks_isLetAhead.bind fun _ => .ite (fun _ => hsome (variableDeclaration_declares hg hd))
      fun _ => hnone
  · exact peeks_isFunctionDeclarationAhead.bind fun _ =>
      .ite (fun _ => hsome (functionDeclaration_declares hg hd)) fun _ => hnone
  · exact peeks_isFunctionDeclarationAhead.bind fun _ =>
      .ite (fun _ => hsome (functionDeclaration_declares hg hd)) fun _ => hnone
  · refine (peeks_isAhead _).bind fun _ => peeks_isClassDeclarationAhead.bind fun _ => ?_
    refine .ite (fun _ => ?_) fun _ => hnone
    refine (decorators_spans hg hd).bind fun ds e he => peeks_isClassDeclarationAhead.bind fun _ => ?_
    refine .ite (fun _ => ?_) fun _ => goto_bind hnone
    refine (classDeclaration_declares hg hd hstart he).bind fun x f hf => .pure ?_
    exact ⟨hcd.behind hf.1.toSpans, by simpa using hf.follow hcd⟩

theorem Declares.parts {x : Declaration} (h : Declares source c d x) : Spans source c d x.parts :=
  { h.1.toSpans with
    nodes := h.2.1.2.mono h.2.2.1 h.2.2.2.1
    words := h.2.2.2.2 }

/-! ### Control flow -/

theorem nested_reads (hg : g.IsSound source) (hc : c.At source) :
    (nested g).Ensures c fun n d => Reads source c d [n] := by
  refine (skipMarkup_spans hc).bind fun _ d hd => ?_
  exact (hg.statement hd.1.stands).bind fun s e he => .pure (.follow hd.1 he.1)

theorem ifStatement_reads (hg : g.IsSound source) (hc : c.At source) :
    (ifStatement g).Ensures c fun ns d => Reads source c d ns := by
  refine (openingWord_reads hc).bind fun _ d hd => ?_
  refine (Grammar.parenthesized_reads hg hd.stands).bind fun ns e he => ?_
  refine (nested_reads hg he.stands).bind fun yes f hf => ?_
  have hcf := hd.behind (he.append hf.toSpans).toSpans
  refine (optionalWord_spans hf.stands).bind fun _ i hi => .ite (fun _ => ?_) fun _ => ?_
  · refine (nested_reads hg hi.stands).bind fun no j hj => .pure ?_
    simpa using hcf.append (hi.behind hj.toSpans)
  · exact .pure (hcf.before hi)

theorem whileStatement_reads (hg : g.IsSound source) (hc : c.At source) :
    (whileStatement g).Ensures c fun ns d => Reads source c d ns := by
  refine (word_reads hc).bind fun w d hd => (skipMarkup_spans hd.1.stands).bind fun _ e he => ?_
  refine (Grammar.parenthesized_reads hg he.1.stands).bind fun ns f hf => ?_
  exact (nested_reads hg hf.stands).bind fun n i hi =>
    .pure (hd.1.forget.behind (he.1.behind (hf.append hi.toSpans).toSpans))

theorem doStatement_reads (hg : g.IsSound source) (hc : c.At source) :
    (doStatement g).Ensures c fun ns d => Reads source c d ns := by
  refine (keyword_reads hc).bind fun _ d hd => ?_
  refine (nested_reads hg hd.stands).bind fun n e he => ?_
  refine (openingWord_reads he.stands).bind fun _ f hf => ?_
  refine (Grammar.parenthesized_reads hg hf.stands).bind fun ns i hi => ?_
  refine (closing_spans hi.stands).bind fun _ j hj => ?_
  refine (optional_spans hj.stands).bind fun _ k hk => .pure ?_
  have hcondition := hf.behind (hi.toSpans.before (hj.behind hk.1))
  exact hd.behind (he.append hcondition.toSpans).toSpans

theorem loopWord_reads (hc : c.At source) : loopWord.Ensures c fun _ d => Reads source c d [] :=
  .orElse (keyword_reads hc) (keyword_reads hc)

theorem loopVariable_reads (hg : g.IsSound source) (hc : c.At source) :
    (loopVariable g).Ensures c fun ns d => Reads source c d ns := by
  have hlexical {d : Cursor} (hd : Reads source c d []) :
      (loopVariable.lexical g).Ensures d fun ns e => Reads source c e ns := by
    refine (declared_reads hg hd.stands).bind fun p e he => ?_
    refine (closing_spans he.stands).bind fun _ f hf => (peeks_accepts _).bind fun _ => ?_
    exact .ite (fun _ => .pure (hd.behind (he.toSpans.before hf))) fun _ => .fail
  have hplace : (loopVariable.place g).Ensures c fun ns d => Reads source c d ns := by
    refine peeks_isDestructuringAhead.bind fun _ => .ite (fun _ => ?_) fun _ => ?_
    · exact (destructuring_reads hg hc).bind fun p d hd => .pure hd
    · exact (reference_reads hg hc).bind fun o d hd => .ite (fun _ => .fail) fun _ => .pure hd
  refine peeks_wordAhead.bind fun w => ?_
  split
  · refine (openingWord_reads hc).bind fun _ d hd => ?_
    refine (declared_reads hg hd.stands).bind fun p e he => ?_
    have hce := hd.behind he.toSpans
    refine peeks_isAssignAhead.bind fun _ => .ite (fun _ => ?_) fun _ => .pure hce
    refine (symbol_reads he.stands).bind fun _ f hf => ?_
    exact (hg.expression hf.1.stands).bind fun n i hi =>
      .pure (hce.append (hf.1.behind hi.toSpans).toSpans)
  · exact .orElse ((keyword_reads hc).bind fun _ d hd => hlexical hd) hplace
  · exact (openingWord_reads hc).bind fun _ d hd => hlexical hd
  · exact hplace

theorem memberHeader_reads (hg : g.IsSound source) (hc : c.At source) :
    (memberHeader g).Ensures c fun ns d => Reads source c d ns := by
  refine (symbol_reads hc).bind fun _ d hd => ?_
  refine (skipMarkup_spans hd.1.stands).bind fun _ e he => ?_
  refine (loopVariable_reads hg he.1.stands).bind fun ns f hf => ?_
  refine (loopWord_reads hf.stands).bind fun _ i hi => ?_
  refine (Grammar.expressions_reads hg hi.stands).bind fun es j hj => ?_
  refine (symbol_reads hj.stands).bind fun _ k hk => .pure ?_
  have hvariable := hd.1.behind (he.1.behind (hf.toSpans.before hi.toSpans))
  exact hvariable.append (hj.toSpans.before hk.1.toSpans)

theorem headerPart_spans (hg : g.IsSound source) (hc : c.At source) :
    (headerPart g).Ensures c fun ns d => Spans source c d ns := by
  refine (skipMarkup_spans hc).bind fun _ d hd => ?_
  refine (optional_spans hd.1.stands).bind fun _ e he => ?_
  have hce := hd.1.behind he.1
  refine .ite (fun _ => .pure hce) fun _ => ?_
  refine (Grammar.expressions_reads hg he.1.stands).bind fun ns f hf => ?_
  exact (symbol_reads hf.stands).bind fun _ i hi =>
    .pure (hce.behind (hf.toSpans.before hi.1.toSpans))

theorem countedHeader_reads (hg : g.IsSound source) (hc : c.At source) :
    (countedHeader g).Ensures c fun ns d => Reads source c d ns := by
  have hclose {xs ys : List Node} {d e : Cursor} (hd : Reads source c d xs)
      (he : Spans source d e ys) : Ensures (do
        symbol ")"
        return xs ++ ys) e fun ns f => Reads source c f ns :=
    (symbol_reads he.stands).bind fun _ f hf => .pure (hd.append (he.before hf.1.toSpans))
  have hrest {xs : List Node} {d : Cursor} (hd : Reads source c d xs) : Ensures (do
      let condition ← headerPart g
      skipMarkup
      let last ← if ← isAhead ")" then pure [] else g.expressions .inner
      symbol ")"
      return xs ++ condition ++ last) d fun ns e => Reads source c e ns := by
    refine (headerPart_spans hg hd.stands).bind fun ns e he => ?_
    refine (skipMarkup_spans he.stands).bind fun _ f hf => (peeks_isAhead _).bind fun _ => ?_
    have hcf := hd.append (he.before hf.1)
    refine .ite (fun _ => .pure_bind (hclose hcf (.refl hf.1.stands))) fun _ => ?_
    exact (Grammar.expressions_reads hg hf.1.stands).bind fun es i hi => hclose hcf hi.toSpans
  refine (symbol_reads hc).bind fun _ d hd => ?_
  refine (declaration?_spans hg hd.1.stands).bind fun x e he => ?_
  split
  · rename_i x
    exact .pure_bind (hrest (hd.1.behind (he.2 x rfl).parts))
  · exact (headerPart_spans hg he.1.stands).bind fun ns f hf => hrest (hd.1.behind (he.1.behind hf))

theorem forStatement_reads (hg : g.IsSound source) (hc : c.At source) :
    (forStatement g).Ensures c fun ns d => Reads source c d ns := by
  have hrest {xs : List Node} {d : Cursor} (hd : Reads source c d xs) :
      Ensures (do return xs ++ [← nested g]) d fun ns e => Reads source c e ns :=
    (nested_reads hg hd.stands).bind fun n e he => .pure (hd.append he.toSpans)
  refine (openingWord_reads hc).bind fun _ d hd => (optionalWord_spans hd.stands).bind fun _ e he => ?_
  have hce := hd.behind he
  refine .ite (fun _ => ?_) fun _ => ?_
  · refine (skipMarkup_spans he.stands).bind fun _ f hf => ?_
    exact (memberHeader_reads hg hf.1.stands).bind fun ns i hi =>
      hrest (hce.behind (hf.1.behind hi.toSpans))
  · refine Ensures.bind (.orElse (memberHeader_reads hg he.stands) (countedHeader_reads hg he.stands))
      fun ns f hf => hrest (hce.behind hf.toSpans)

theorem caseBody_spans (hg : g.IsSound source) (hc : c.At source) :
    (caseBody g).Ensures c fun ns d => Spans source c d ns := by
  refine statementsTo_spans hg ?_ hc
  exact (peeks_isAhead _).seq fun _ => (peeks_wordAhead.seq fun _ => peeks_pure _).seq fun _ =>
    (peeks_wordAhead.seq fun _ => peeks_pure _).seq fun _ => peeks_pure _

theorem switchCase_spans (hg : g.IsSound source) (hc : c.At source) :
    (switchCase g).Ensures c fun ns d => Spans source c d ns := by
  refine (optionalWord_spans hc).bind fun _ d hd => .ite (fun _ => ?_) fun _ => ?_
  · refine (symbol_reads hd.stands).bind fun _ e he => ?_
    exact (caseBody_spans hg he.1.stands).mono fun ns f hf => hd.behind (he.1.toSpans.behind hf)
  · refine (keyword_reads hd.stands).bind fun _ e he => ?_
    refine (Grammar.expressions_reads hg he.stands).bind fun es f hf => ?_
    refine (symbol_reads hf.stands).bind fun _ i hi => ?_
    refine (caseBody_spans hg hi.1.stands).bind fun ns j hj => .pure ?_
    exact hd.behind (he.toSpans.behind (hf.toSpans.append (hi.1.toSpans.behind hj)))

theorem switchStatement_reads (hg : g.IsSound source) (hc : c.At source) :
    (switchStatement g).Ensures c fun ns d => Reads source c d ns := by
  refine (openingWord_reads hc).bind fun _ d hd => ?_
  refine (Grammar.parenthesized_reads hg hd.stands).bind fun ns e he => ?_
  refine (symbol_reads he.stands).bind fun _ f hf => ?_
  refine (manyUntil_spans (skipMarkup_peek_spans (peeks_isAhead _)) (switchCase_spans hg)
    hf.1.stands).bind fun cases_ i hi => ?_
  refine (symbol_reads hi.stands).bind fun _ j hj => .pure ?_
  rw [List.flatMap_id'] at hi
  have hcases := hf.1.toSpans.behind (hi.before hj.1.toSpans)
  exact hd.behind (he.append hcases).toSpans

theorem catchClause_spans (hg : g.IsSound source) (hc : c.At source) :
    (catchClause g).Ensures c fun ns d => Spans source c d ns := by
  have hrest {xs : List Node} {d : Cursor} (hd : Spans source c d xs) :
      Ensures (do return xs ++ [← block g false]) d fun ns e => Spans source c e ns :=
    (block_reads hg hd.stands).bind fun n e he => .pure (hd.append he.toSpans)
  refine (skipMarkup_spans hc).bind fun _ d hd => (optional_spans hd.1.stands).bind fun _ e he => ?_
  have hce := hd.1.behind he.1
  refine .ite (fun _ => ?_) fun _ => hrest hce
  refine (skipMarkup_spans he.1.stands).bind fun _ f hf => ?_
  refine (declared_reads hg hf.1.stands).bind fun p i hi => ?_
  exact (symbol_reads hi.stands).bind fun _ j hj =>
    hrest (hce.behind (hf.1.behind (hi.toSpans.before hj.1.toSpans)))

theorem tryStatement_reads (hg : g.IsSound source) (hc : c.At source) :
    (tryStatement g).Ensures c fun ns d => Reads source c d ns := by
  have hlast {xs : List Node} {d : Cursor} (hd : Reads source c d xs) : Ensures (do
      let last ←
        if ← optionalWord "finally" then
          skipMarkup
          pure [← block g false]
        else pure []
      return xs ++ last) d fun ns e => Reads source c e ns := by
    refine (optionalWord_spans hd.stands).bind fun _ e he => .ite (fun _ => ?_) fun _ => ?_
    · refine (skipMarkup_spans he.stands).bind fun _ f hf => ?_
      exact (block_reads hg hf.1.stands).bind fun n i hi =>
        .pure_bind (.pure (hd.append (he.behind (hf.1.behind hi.toSpans))))
    · exact .pure_bind (.pure (hd.append he))
  refine (openingWord_reads hc).bind fun _ d hd => (block_reads hg hd.stands).bind fun n e he => ?_
  have hce := hd.behind he.toSpans
  refine (optionalWord_spans he.stands).bind fun _ f hf => .ite (fun _ => ?_) fun _ => ?_
  · exact (catchClause_spans hg hf.stands).bind fun ns i hi => hlast (hce.append (hf.behind hi))
  · exact .pure_bind (hlast (hce.append hf))

theorem jumpStatement_reads (hc : c.At source) :
    jumpStatement.Ensures c fun ns d => Reads source c d ns := by
  have hlast {d : Cursor} (hd : Reads source c d []) : Ensures (do
      semicolon false
      return []) d fun ns e => Reads source c e ns :=
    (semicolon_spans hd.stands).bind fun _ e he => .pure (hd.before he)
  refine (word_reads hc).bind fun w d hd => ?_
  refine (peeks_semicolonImplied _).bind fun _ => (peeks_isAhead _).bind fun _ => ?_
  refine .ite (fun _ => ?_) fun _ => hlast hd.1.forget
  exact (word_reads hd.1.stands).bind fun w e he => hlast (hd.1.forget.behind he.1.forget.toSpans)

theorem returnStatement_reads (hg : g.IsSound source) (hc : c.At source) :
    (returnStatement g).Ensures c fun ns d => Reads source c d ns := by
  refine (keyword_reads hc).bind fun _ d hd => ?_
  refine (peeks_semicolonImplied _).bind fun _ => (peeks_isAhead _).bind fun _ => ?_
  refine .ite (fun _ => ?_) fun _ => ?_
  · exact (semicolon_spans hd.stands).bind fun _ e he => .pure (hd.before he)
  · refine (Grammar.expressions_reads hg hd.stands).bind fun es e he => ?_
    exact (semicolon_spans he.stands).bind fun _ f hf => .pure (hd.behind (he.toSpans.before hf))

theorem throwStatement_reads (hg : g.IsSound source) (hc : c.At source) :
    (throwStatement g).Ensures c fun ns d => Reads source c d ns := by
  refine (keyword_reads hc).bind fun _ d hd => ?_
  refine (Grammar.expressions_reads hg hd.stands).bind fun es e he => ?_
  exact (semicolon_spans he.stands).bind fun _ f hf => .pure (hd.behind (he.toSpans.before hf))

/-! ### Imports and exports -/

theorem bindingName_reads (hc : c.At source) :
    bindingName.Ensures c fun _ d => Reads source c d [] := by
  refine (skipMarkup_spans hc).bind fun _ d hd => cursor_bind ?_
  split
  · exact (string_reads hd.1.stands).mono fun l e he => .follow hd.1 he.forget
  · exact (string_reads hd.1.stands).mono fun l e he => .follow hd.1 he.forget
  · exact (word_reads hd.1.stands).mono fun w e he => .follow hd.1 he.1.forget

theorem listItem_reads {alias_ : Parser Lexeme} {onlyWords : Bool}
    (halias : ∀ {c : Cursor}, c.At source → alias_.Ensures c fun _ d => Reads source c d [])
    (hc : c.At source) :
    (listItem alias_ onlyWords).Ensures c fun _ d => Reads source c d [] := by
  refine (bindingName_reads hc).bind fun name d hd => (skipMarkup_spans hd.stands).bind fun _ e he => ?_
  refine (optionalWord_spans he.1.stands).bind fun _ f hf => ?_
  have hcf := hd.before (he.1.behind hf)
  refine .ite (fun _ => ?_) fun _ => .ite (fun _ => fail_bind) fun _ => .pure hcf
  refine (skipMarkup_spans hf.stands).bind fun _ i hi => (halias hi.1.stands).bind fun a j hj => ?_
  exact (skipMarkup_spans hj.stands).bind fun _ k hk =>
    .pure (hcf.behind (hi.1.behind (hj.toSpans.before hk.1)))

theorem listItems_reads {item : Parser ListItem}
    (hitem : ∀ {c : Cursor}, c.At source → item.Ensures c fun _ d => Reads source c d [])
    (hc : c.At source) :
    (listItems g item).Ensures c fun _ d => Reads source c d [] := by
  refine (symbol_reads hc).bind fun _ d hd => (skipMarkup_spans hd.1.stands).bind fun _ e he => ?_
  refine (optional_spans he.1.stands).bind fun _ f hf => ?_
  have hcf := hd.1.behind (he.1.behind hf.1)
  refine .ite (fun _ => ?_) fun _ => ?_
  · refine (skipMarkup_spans hf.1.stands).bind fun _ i hi => ?_
    exact (symbol_reads hi.1.stands).bind fun _ j hj => .pure (hcf.behind (hi.1.behind hj.1.toSpans))
  · refine (strictListTo_closes (N := fun _ => []) (by decide)
      (fun h => (hitem h).mono fun _ _ h => h.toSpans) hf.1.stands).mono fun is i hi => ?_
    exact hcf.behind hi.forget

theorem importList_reads (hc : c.At source) :
    (importList g).Ensures c fun _ d => Reads source c d [] := by
  refine (optional_spans hc).bind fun _ d hd => .ite (fun _ => ?_) fun _ => ?_
  · refine (skipMarkup_spans hd.1.stands).bind fun _ e he => ?_
    refine (openingWord_reads he.1.stands).bind fun _ f hf => ?_
    exact (word_reads hf.stands).bind fun w i hi =>
      .pure (.follow (hd.1.behind he.1) (hf.behind hi.1.forget.toSpans))
  · refine (listItems_reads (fun h => listItem_reads (fun h => ?_) h) hd.1.stands).bind
      fun is e he => .pure (.follow hd.1 he)
    exact (word_reads h).mono fun _ _ h => h.1.forget

theorem importClause_reads (hc : c.At source) :
    (importClause g).Ensures c fun _ d => Reads source c d [] := by
  refine peeks_ahead.bind fun cs => ?_
  split
  · exact (importList_reads hc).bind fun _ d hd => .pure hd
  · exact (importList_reads hc).bind fun _ d hd => .pure hd
  · refine (word_reads hc).bind fun w d hd => (skipMarkup_spans hd.1.stands).bind fun _ e he => ?_
    refine (optional_spans he.1.stands).bind fun _ f hf => ?_
    have hcf := hd.1.forget.behind (he.1.behind hf.1)
    refine .ite (fun _ => ?_) fun _ => .pure hcf
    refine (skipMarkup_spans hf.1.stands).bind fun _ i hi => ?_
    exact (importList_reads hi.1.stands).bind fun _ j hj => .pure (hcf.behind (hi.1.behind hj.toSpans))

/-- A statement on the way. -/
def States (source : List Char) (c d : Cursor) (s : Statement) : Prop :=
  Reads source c d [s.node] ∧ s.Sound source ∧ s.Keyed

theorem importAttributes_spans (hg : g.IsSound source) (hc : c.At source) :
    (importAttributes g).Ensures c fun ns d => Spans source c d ns := by
  refine (peeks_semicolonImplied _).bind fun _ => .ite (fun _ => .pure (.refl hc)) fun _ => ?_
  refine (optionalWord_spans hc).bind fun _ d hd => .ite (fun _ => ?_) fun _ => .pure hd
  refine (skipMarkup_spans hd.stands).bind fun _ e he => ?_
  exact (objectLiteral_reads hg he.1.stands).mono fun ns f hf =>
    hd.behind (he.1.behind hf.toSpans)

theorem States.of_sound {s : Statement} (h : s.Sound source) (hkeyed : s.Keyed)
    (hwords : Node.AllWorded s.parts) (hread : Reads source c d [])
    (hstart : c.token ≤ s.span.start) (hstop : s.span.stop ≤ d.pos) : States source c d s :=
  ⟨{ hread with
    nodes := ⟨⟨h.span, h.parts⟩, hstart, hstop, trivial⟩
    words := ⟨hwords, trivial⟩ }, h, hkeyed⟩

theorem States.follow {s : Statement} (h : Spans source c d []) (h' : States source d e s) :
    States source c e s := ⟨.follow h h'.1, h'.2⟩

theorem importStatement_states (hg : g.IsSound source) (hc : c.At source) :
    (importStatement g).Ensures c fun s d => States source c d s := by
  refine (located_ensures (P := fun r d => Reads source c d r.2.2 ∧ c.token < d.pos) ?_).bind
    fun r d hd => .pure ?_
  · have hrest {clause : Option (List ImportPart)} {d : Cursor} (hd : Reads source c d [])
        (hlt : c.token < d.pos) : Ensures (do
          let literal ← string
          let attributes ← importAttributes g
          semicolon false
          return (clause, literal, attributes)) d fun r e =>
            Reads source c e r.2.2 ∧ c.token < e.pos := by
      refine (string_reads hd.stands).bind fun l e he => ?_
      refine (importAttributes_spans hg he.stands).bind fun ns f hf => ?_
      refine (semicolon_spans hf.stands).bind fun _ i hi => .pure ?_
      have hdi := he.forget.behind (hf.before hi)
      exact ⟨hd.behind hdi.toSpans, Nat.lt_of_lt_of_le hlt hdi.pos⟩
    refine (openingWord_moves hc).bind fun _ d ⟨hd, hlt⟩ => peeks_ahead.bind fun cs => ?_
    split
    · exact .pure_bind (hrest hd hlt)
    · exact .pure_bind (hrest hd hlt)
    · refine (importClause_reads hd.stands).bind fun _ e he => ?_
      refine (skipMarkup_spans he.stands).bind fun _ f hf => ?_
      refine (openingWord_reads hf.1.stands).bind fun _ i hi => ?_
      have hdi := he.behind (hf.1.behind hi.toSpans)
      exact hrest (hd.behind hdi.toSpans) (Nat.lt_of_lt_of_le hlt hdi.pos)
  · have hnode := hd.2.1.other hc
    have hkeyed : r.1.start < r.1.stop := by
      rw [hd.1]
      exact hd.2.2
    rw [← hd.1] at hnode
    exact ⟨hnode, hnode.nodes.1, hkeyed⟩

theorem exportSource_spans (hc : c.At source) :
    exportSource.Ensures c fun _ d => Spans source c d [] := by
  refine (peeks_semicolonImplied _).bind fun _ => .ite (fun _ => .pure (.refl hc)) fun _ => ?_
  refine (optionalWord_spans hc).bind fun _ d hd => .ite (fun _ => ?_) fun _ => .pure hd
  refine (skipMarkup_spans hd.stands).bind fun _ e he => ?_
  exact (string_reads he.1.stands).bind fun l f hf =>
    .pure (hd.behind (he.1.behind hf.forget.toSpans))

/-- An export on the way, behind the word at `low` and the decorators. -/
structure Exports (source : List Char) (low : ℕ) (decorators : List Node) (c d : Cursor)
    (form : ExportForm) : Prop where
  reads : Reads source c d []
  sound : form.Sound source low d.pos
  keyed : form.Keyed decorators
  words : Node.AllWorded form.parts
  moved : low < d.pos

theorem Exports.behind {low : ℕ} {ds : List Node} {form : ExportForm} (h : Reads source c d [])
    (h' : Exports source low ds d e form) : Exports source low ds c e form :=
  { h' with reads := h.behind h'.reads.toSpans }

theorem Declares.exports {low : ℕ} {ds : List Node} {isDefault : Bool} {x : Declaration}
    (h : Declares source c d x) (hplace : IsPlace source low) (hlow : low < c.pos) :
    Exports source low ds c d (.declaration isDefault low x) := by
  have hstart : low < x.span.start :=
    Nat.lt_of_lt_of_le hlow (Nat.le_trans c.pos_le_token h.2.2.1)
  exact ⟨h.1, ⟨hplace, Nat.le_refl _, Nat.le_of_lt hstart, h.2.2.2.1, h.2.1⟩, hstart, h.2.2.2.2,
    Nat.lt_of_lt_of_le hlow h.1.pos⟩

theorem defaultExport_exports {low : ℕ} {ds : List Node} (hg : g.IsSound source) (hc : c.At source)
    (hplace : IsPlace source low) (hlow : low < c.pos) :
    (defaultExport g low).Ensures c fun form d => Exports source low ds c d form := by
  refine (keyword_reads hc).bind fun _ d hd => (declaration?_spans hg hd.stands).bind fun x e he => ?_
  have hld : low < d.pos := Nat.lt_of_lt_of_le hlow hd.pos
  split
  · rename_i x
    exact .pure (((he.2 x rfl).exports hplace hld).behind hd)
  · refine (hg.expression he.1.stands).bind fun n f hf => ?_
    refine (semicolon_spans hf.stands).bind fun _ i hi => .pure ?_
    obtain ⟨hn, hstart, hstop⟩ := hf.sound_head
    have hdi := he.1.behind (hf.forget.before hi).toSpans
    have hword : low < n.span.start :=
      Nat.lt_of_lt_of_le hld (Nat.le_trans he.1.pos (Nat.le_trans e.pos_le_token hstart))
    exact ⟨hd.behind hdi, ⟨hplace, Nat.le_refl _, Nat.le_of_lt hword, Nat.le_trans hstop hi.pos, hn⟩,
      hword, hf.words, Nat.lt_of_lt_of_le hld hdi.pos⟩

/-- Without decorators the rest of the statement is all there is to read. -/
theorem Exports.bare {low : ℕ} {form : ExportForm} (hsound : form.Sound source low d.pos)
    (hkeyed : form.Keyed []) (hwords : Node.AllWorded form.parts) (h : Reads source c d [])
    (hlow : low < c.pos) : Exports source low [] c d form :=
  ⟨h, hsound, hkeyed, hwords, Nat.lt_of_lt_of_le hlow h.pos⟩

theorem starExport_exports {low : ℕ} (hc : c.At source) (hlow : low < c.pos) :
    starExport.Ensures c fun form d => Exports source low [] c d form := by
  have hrest {name : Option Lexeme} {d : Cursor} (hd : Reads source c d []) : Ensures (do
      skipMarkup
      openingWord "from"
      let literal ← string
      semicolon false
      return ExportForm.star name literal) d fun form e => Exports source low [] c e form := by
    refine (skipMarkup_spans hd.stands).bind fun _ e he => ?_
    refine (openingWord_reads he.1.stands).bind fun _ f hf => ?_
    refine (string_reads hf.stands).bind fun l i hi => ?_
    refine (semicolon_spans hi.stands).bind fun _ j hj => .pure ?_
    have hfrom := hf.behind (hi.forget.before hj).toSpans
    have hcj := hd.behind (he.1.behind hfrom.toSpans)
    cases name <;> exact .bare trivial rfl trivial hcj hlow
  refine (symbol_reads hc).bind fun _ d hd => (skipMarkup_spans hd.1.stands).bind fun _ e he => ?_
  refine (optionalWord_spans he.1.stands).bind fun _ f hf => ?_
  have hcf := hd.1.behind (he.1.behind hf)
  refine .ite (fun _ => ?_) fun _ => .pure_bind (hrest hcf)
  exact (bindingName_reads hf.stands).bind fun n i hi => .pure_bind (hrest (hcf.behind hi.toSpans))

theorem namesExport_exports {low : ℕ} (hc : c.At source) (hlow : low < c.pos) :
    (namesExport g).Ensures c fun form d => Exports source low [] c d form := by
  refine (listItems_reads (fun h => listItem_reads bindingName_reads h) hc).bind fun is d hd => ?_
  refine (exportSource_spans hd.stands).bind fun l e he => ?_
  refine (semicolon_spans he.stands).bind fun _ f hf => .pure ?_
  exact .bare trivial rfl trivial (hd.behind (he.behind hf)) hlow

theorem exportForm_exports {ds : List Node} (hg : g.IsSound source) (hc : c.At source) :
    (exportForm g !ds.isEmpty).Ensures c fun form d => Exports source c.token ds c d form := by
  obtain ⟨hskip, htoken⟩ := skip_spans hc () _ rfl
  refine skip_bind (cursor_bind ((openingWord_moves hc.skip).bind fun _ d ⟨hd, hmoved⟩ => ?_))
  have hcd := Reads.follow hskip hd
  have hlow : c.token < d.pos := by rwa [htoken] at hmoved
  have hbare {p : Parser ExportForm}
      (hp : p.Ensures d fun form e => Exports source c.token [] d e form) :
      Ensures (if (!ds.isEmpty) = true then fail else p) d
        fun form e => Exports source c.token ds c e form := by
    refine .ite (fun _ => .fail) fun hds => ?_
    obtain rfl : ds = [] := by simpa using hds
    exact hp.mono fun form e he => he.behind hcd
  refine peeks_ahead.bind fun cs => peeks_wordAhead.bind fun w => ?_
  split
  · exact hbare (starExport_exports hd.stands hlow)
  · exact hbare (namesExport_exports hd.stands hlow)
  · exact (defaultExport_exports hg hd.stands hc.isPlace_token hlow).mono fun form e he =>
      he.behind hcd
  · refine (declaration?_spans hg hd.stands).bind fun x e he => ?_
    split
    · rename_i x
      exact .pure (((he.2 x rfl).exports hc.isPlace_token hlow).behind hcd)
    · exact .fail

theorem exportStatement_states (hg : g.IsSound source) (hc : c.At source) :
    (exportStatement g).Ensures c fun s d => States source c d s := by
  refine (located_ensures (P := fun r d => ∃ e, Spans source c e r.1 ∧
    Exports source e.token r.1 e d r.2) ?_).bind fun r d ⟨hspan, e, he, hform⟩ => .pure ?_
  · refine (decorators_spans hg hc).bind fun ds d hd => ?_
    exact (exportForm_exports hg hd.stands).bind fun form e he => .pure ⟨d, hd, he⟩
  obtain ⟨span, ds, form⟩ := r
  dsimp only at hspan he hform ⊢
  subst hspan
  have hread := Reads.follow he hform.reads
  have hs : (Statement.exporting ⟨c.token, d.pos⟩ form ds).Sound source :=
    ⟨⟨hc.isPlace_token, hform.reads.stands.isPlace, hread.moved⟩, e.token, he.token,
      hform.reads.moved, he.nodes.mono (Nat.le_refl _) e.pos_le_token, hform.sound⟩
  have hkeyed : c.token < d.pos := Nat.lt_of_le_of_lt he.token hform.moved
  exact .of_sound hs ⟨hkeyed, hform.keyed⟩ (he.words.append hform.words) hread.forget
    (Nat.le_refl _) (Nat.le_refl _)

/-! ### All statements -/

theorem expressionStatement_states (hg : g.IsSound source) (hc : c.At source) :
    (expressionStatement g).Ensures c fun s d => States source c d s := by
  refine (located_ensures (P := fun ns d => Reads source c d ns) ?_).bind fun r d ⟨hspan, hd⟩ => ?_
  · refine (Grammar.expressions_reads hg hc).bind fun es d hd => ?_
    exact (semicolon_spans hd.stands).bind fun _ e he => .pure (hd.before he)
  have hnode := hd.other hc
  obtain ⟨span, es⟩ := r
  dsimp only at hspan hd hnode ⊢
  subst hspan
  split
  · exact .pure ⟨hnode, ⟨hnode.nodes.1.1, hd.nodes.1, hd.nodes.2.1, hd.nodes.2.2.1⟩, trivial⟩
  · exact .pure ⟨hnode, hnode.nodes.1, trivial⟩

theorem statementOf_states {p : Parser (List Node)} (hc : c.At source)
    (hp : p.Ensures c fun ns d => Reads source c d ns) :
    (statementOf p).Ensures c fun s d => States source c d s := by
  refine (located_ensures hp).bind fun r d hd => .pure ?_
  have hnode := hd.2.other hc
  rw [← hd.1] at hnode
  exact ⟨hnode, hnode.nodes.1, trivial⟩

theorem bracedStatement_states (hg : g.IsSound source) (hc : c.At source) :
    (bracedStatement g).Ensures c fun s d => States source c d s := by
  have hbody : (statementOf do return [← block g false]).Ensures c fun s d => States source c d s :=
    statementOf_states hc ((block_reads hg hc).bind fun n d hd => .pure hd)
  refine (peeks_accepts _).bind fun _ => .ite (fun _ => ?_) fun _ => hbody
  exact .orElse hbody (expressionStatement_states hg hc)

theorem labelledStatement_reads (hg : g.IsSound source) (hc : c.At source) :
    (labelledStatement g).Ensures c fun ns d => Reads source c d ns := by
  refine (word_reads hc).bind fun w d hd => (symbol_reads hd.1.stands).bind fun _ e he => ?_
  exact (nested_reads hg he.1.stands).bind fun n f hf =>
    .pure (hd.1.forget.behind (he.1.behind hf.toSpans).toSpans)

theorem wordStatement_states {w : String} (hg : g.IsSound source) (hc : c.At source) :
    (wordStatement g w).Ensures c fun s d => States source c d s := by
  unfold wordStatement
  split
  · exact statementOf_states hc (ifStatement_reads hg hc)
  · exact statementOf_states hc (whileStatement_reads hg hc)
  · exact statementOf_states hc (whileStatement_reads hg hc)
  · exact statementOf_states hc (doStatement_reads hg hc)
  · exact statementOf_states hc (forStatement_reads hg hc)
  · exact statementOf_states hc (switchStatement_reads hg hc)
  · exact statementOf_states hc (tryStatement_reads hg hc)
  · exact statementOf_states hc (jumpStatement_reads hc)
  · exact statementOf_states hc (jumpStatement_reads hc)
  · refine statementOf_states hc ((word_reads hc).bind fun w d hd => ?_)
    exact (semicolon_spans hd.1.stands).bind fun _ e he => .pure (hd.1.forget.before he)
  · exact statementOf_states hc (returnStatement_reads hg hc)
  · exact statementOf_states hc (throwStatement_reads hg hc)
  · exact (peeks_accepts _).bind fun _ => .ite (fun _ => expressionStatement_states hg hc)
      fun _ => importStatement_states hg hc
  · refine (peeks_accepts _).bind fun _ => .ite (fun _ => ?_) fun _ => ?_
    · exact statementOf_states hc (labelledStatement_reads hg hc)
    · exact (peeks_accepts _).bind fun _ => .ite (fun _ => exportStatement_states hg hc)
        fun _ => expressionStatement_states hg hc

theorem statement_states (hg : g.IsSound source) (hc : c.At source) :
    (statement g).Ensures c fun s d => States source c d s := by
  refine (skipMarkup_spans hc).bind fun _ d hd => cursor_bind ?_
  obtain ⟨hcd, -⟩ := hd
  have hd := hcd.stands
  refine Ensures.mono (P := fun s e => States source d e s) ?_ fun s e he =>
    ⟨.follow hcd he.1, he.2⟩
  have hdeclared {x : Declaration} {e : Cursor} (h : Declares source d e x) :
      States source d e (.declaration x) :=
    .of_sound h.2.1 trivial h.2.2.2.2 h.1 h.2.2.1 h.2.2.2.1
  have hexpression {e : Cursor} (he : Spans source d e []) :
      (expressionStatement g).Ensures e fun s f => States source d f s :=
    (expressionStatement_states hg he.stands).mono fun s f hf => hf.follow he
  have hword {w : String} {e : Cursor} (he : Spans source d e []) :
      (wordStatement g w).Ensures e fun s f => States source d f s :=
    (wordStatement_states hg he.stands).mono fun s f hf => hf.follow he
  split
  · exact bracedStatement_states hg hd
  · exact statementOf_states hd ((symbol_reads hd).bind fun _ e he => .pure he.1)
  · refine (peeks_accepts _).bind fun _ => .ite (fun _ => exportStatement_states hg hd) fun _ => ?_
    refine (declaration?_spans hg hd).bind fun x e he => ?_
    split
    · exact .pure (hdeclared (he.2 _ rfl))
    · exact hexpression he.1
  · refine peeks_wordAhead.bind fun w => ?_
    split
    · refine (peeks_accepts _).bind fun _ => .ite (fun _ => wordStatement_states hg hd) fun _ => ?_
      refine (declaration?_spans hg hd).bind fun x e he => ?_
      split
      · exact .pure (hdeclared (he.2 _ rfl))
      · exact hword he.1
    · exact expressionStatement_states hg hd

end Syntax

/-! ### Programs -/

namespace Grammar
open Syntax

theorem IsSound.deeper (hg : g.IsSound source) : g.deeper.IsSound source where
  expression := expression_reads hg
  operand := operand_reads hg
  constructed := constructed_reads hg
  pattern := pattern_reads hg
  statement := statement_states hg
  markup := element_reads hg

theorem ofDepth_isSound (source : List Char) (n : ℕ) : (ofDepth n).IsSound source := by
  induction n with
  | zero => exact refusal_isSound
  | succ n ih => exact ih.deeper

end Grammar

namespace Syntax
open JavaScript.Parser

theorem commentStatement_states (hc : c.At source) :
    commentStatement.Ensures c fun s d => States source c d s := by
  refine (located_ensures (markupComment_reads hc)).bind fun r d ⟨hspan, hd⟩ => .pure ?_
  rw [hspan]
  exact .of_sound ⟨hc.isPlace_token, hd.stands.isPlace, hd.moved⟩ trivial trivial hd
    (Nat.le_refl _) (Nat.le_refl _)

/-- The statements of a program stand in order, and their words take up room. -/
theorem programStatements_allSound (hg : g.IsSound source) {n : ℕ} (hc : c.At source) :
    (programStatements g n).Ensures c fun ss d =>
      d.At source ∧ c.pos ≤ d.pos ∧ AllSound source c.pos d.pos ss ∧
        ∀ s ∈ ss, s.Keyed ∧ Node.AllWorded s.parts := by
  induction n generalizing c with
  | zero => exact .fail
  | succ n ih =>
    rw [programStatements]
    refine (skip_spans hc).bind fun _ d hd => cursor_bind (.ite (fun _ => .pure ?_) fun _ => ?_)
    · exact ⟨hd.1.stands, hd.1.pos, trivial, by simp⟩
    have hrest {s : Statement} {e : Cursor} (he : States source d e s) : Ensures (do
        return s :: (← programStatements g n)) e fun ss f =>
        f.At source ∧ c.pos ≤ f.pos ∧ AllSound source c.pos f.pos ss ∧
          ∀ s ∈ ss, s.Keyed ∧ Node.AllWorded s.parts := by
      obtain ⟨-, hstart, hstop⟩ := he.1.sound_head
      refine (ih he.1.stands).bind fun ss f ⟨hf, hpos, hss, hkeyed⟩ => .pure ⟨hf, ?_, ⟨he.2.1, ?_⟩, ?_⟩
      · exact Nat.le_trans hd.1.pos (Nat.le_trans he.1.pos hpos)
      · exact ⟨Nat.le_trans hd.1.pos (Nat.le_trans d.pos_le_token hstart),
          Nat.le_trans hstop hpos, hss.mono hstop (Nat.le_refl _)⟩
      · exact List.forall_mem_cons.mpr ⟨⟨he.2.2, he.1.words.1⟩, hkeyed⟩
    refine .ite (fun _ => ?_) fun _ => ?_
    · exact (commentStatement_states hd.1.stands).bind fun s e he => hrest he
    · exact (hg.statement hd.1.stands).bind fun s e he => hrest he

theorem interpreterLine_stands (hc : c.At source) :
    interpreterLine.Ensures c fun line d => d.At source ∧
      (∀ s ∈ line, s.Stands source) ∧ (line.map Span.stop).getD 0 ≤ d.pos := by
  refine (skip_spans hc).bind fun _ d hd => cursor_bind ?_
  split
  · refine (take_moves hd.1.stands).bind fun _ e he => cursor_bind (.pure ⟨he.stands, ?_, ?_⟩)
    · simpa using ⟨hd.1.stands.isPlace, he.stands.isPlace, he.pos⟩
    · exact Nat.le_refl _
  · exact .pure ⟨hd.1.stands, by simp, Nat.zero_le _⟩

end Syntax

/-- Every tree the parser answers fits the text it was read from, and its words take up room. -/
theorem Program.parse_reads {p : Program} (h : Program.parse source = .ok p) :
    p.Sound source ∧ ∀ s ∈ p.body, s.Keyed ∧ Node.AllWorded s.parts := by
  have hg := Grammar.ofDepth_isSound source (Syntax.depthFor source.length)
  generalize hgrammar : Grammar.ofDepth (Syntax.depthFor source.length) = g at hg
  have hprogram : (Syntax.program g).Ensures ⟨source, 0⟩ fun p _ =>
      p.Sound source ∧ ∀ s ∈ p.body, s.Keyed ∧ Node.AllWorded s.parts := by
    refine (Syntax.interpreterLine_stands (Cursor.at_start source)).bind fun line d hd => ?_
    refine (Syntax.programStatements_allSound hg hd.1).bind fun ss e ⟨he, _, hss, hkeyed⟩ => .pure ?_
    exact ⟨⟨hd.2.1, hss.mono hd.2.2 he.pos_le⟩, hkeyed⟩
  rw [Program.parse, hgrammar] at h
  split at h
  · cases h
    exact hprogram _ _ ‹_›
  · cases h

end Bundler.JavaScript
