import Bundler.JavaScript.FrontEnd
import Bundler.Proofs.JavaScript.Access
import Bundler.Proofs.JavaScript.Bindings
import Bundler.Proofs.JavaScript.Statements
import Mathlib.Data.List.Forall2

/-! The names of exported variables. What is found of a declaration are the names that its text
introduces by the grammar of patterns, in order and each as often as it stands there. Only the word
`undefined` can be missing, as an element of a pattern, and only a name with an escape in it is
given by other characters than those it stands for. -/
namespace Bundler.JavaScript

variable {source : List Char} {g : Grammar} {c d : Cursor}

/-- The words that declare variables. -/
def variableWords : List (List Char) := ["var", "let", "const"].map String.toList

/-- The text of a declaration of variables introduces these names. Behind the last of them there is
at most a semicolon. -/
def Declaration.Introduces (source : List Char) (d : Declaration) (bs : List BoundName) : Prop :=
  ∃ kind mid rest, kind ∈ variableWords ∧ Text.drop d.span.start source = kind ++ mid ∧
    JavaScript.Introduces .declarators mid rest bs ∧
    (Behind rest (Text.drop d.span.stop source) ∨
      Token ";".toList rest (Text.drop d.span.stop source))

/-- The names of a declaration are those that are seen of its text. -/
def Declaration.Bound (source : List Char) (d : Declaration) : Prop :=
  ∀ ps, d.binds = .patterns ps → ∃ bs, d.Introduces source bs ∧ d.binds.names = BoundName.seen bs

/-- Only exported declarations are asked for. -/
def ExportForm.Bound (source : List Char) : ExportForm → Prop
  | .declaration _ _ d => d.Bound source
  | _ => True

def Statement.Bound (source : List Char) : Statement → Prop
  | .exporting _ form _ => form.Bound source
  | _ => True

theorem Cursor.At.drop_pos (h : c.At source) : Text.drop c.pos source = c.rest := by
  obtain ⟨front, rfl, hpos⟩ := h
  rw [← hpos, Text.drop_size_append]

namespace Syntax
open JavaScript.Parser

/-! ### Declarations -/

theorem declared_binding (hg : g.IsFaithful) :
    (declared g).Ensures c fun p d => Binding .declared c d p.names := by
  refine peeks_isDestructuringAhead.bind fun _ => .ite (fun _ => ?_) fun _ => ?_
  · exact (destructuring_binding hg).mono fun p d ⟨bs, hbs, hp⟩ => ⟨bs, .declaredBrackets hbs, hp⟩
  · exact word_token.bind fun w d ⟨_, _, hd⟩ => .pure ⟨_, .declaredName hd, rfl⟩

theorem declarator_binding (hg : g.IsFaithful) :
    (declarator g).Ensures c fun r d => Binding .declarator c d r.1.names := by
  refine skipMarkup_bind ((declared_binding hg).bind fun p d ⟨bs, hbs, hp⟩ => ?_)
  have hbs := hbs.of_behind c.behind_skipMarkup
  refine peeks_isAssignAhead.bind fun _ => ?_
  refine .ite (fun _ => value_bind hg fun n e he => .pure ?_) fun _ => .pure ?_
  · exact ⟨bs, .declarator hbs (.inr he), hp⟩
  · exact ⟨bs, .declarator hbs (.inl rfl), hp⟩

theorem declarators_binding (hg : g.IsFaithful) {n : ℕ} :
    (commaItems (declarator g) n).Ensures c fun ds d =>
      Binding .declarators c d (Pattern.namesOf (ds.map (·.1))) := by
  induction n generalizing c with
  | zero => exact .fail
  | succ n ih =>
    refine (declarator_binding hg).bind fun r d ⟨bs, hbs, hr⟩ => ?_
    refine optional_bind (fun e _ he => ?_) fun _ => .pure ⟨bs, .lastDeclarator hbs, ?_⟩
    · refine ih.bind fun ds i ⟨bs', hbs', hds⟩ => .pure ⟨bs ++ bs', .declarators hbs he hbs', ?_⟩
      rw [List.map_cons, Pattern.namesOf, hr, hds, BoundName.seen_append]
    · rw [List.map_singleton, Pattern.namesOf, Pattern.namesOf, List.append_nil, hr]

theorem semicolon_ends {b : Bool} : (semicolon b).Ensures c fun _ d =>
    Behind c.rest d.rest ∨ Token ";".toList c.rest d.rest := by
  intro _ d h
  rw [semicolon] at h
  split at h
  · cases h
    exact .inl (Cursor.behind_of_impliedSemicolon? ‹_›)
  · exact .inr (symbol_token _ _ h)

theorem variableDeclaration_bound {kind : String} (hsound : g.IsSound source) (hg : g.IsFaithful)
    (hc : c.At source) (hahead : (word? c.skip.rest).map String.ofList = some kind)
    (hkind : kind.toList ∈ variableWords) :
    (variableDeclaration g).Ensures c fun x _ => x.Bound source := by
  -- what is read from the cursor on, before its place in the source is looked at
  have hspan : (variableDeclaration g).Ensures c fun x d => x.span = ⟨c.token, d.pos⟩ ∧
      ∃ mid rest bs, c.skip.rest = kind.toList ++ mid ∧ Introduces .declarators mid rest bs ∧
        (Behind rest d.rest ∨ Token ";".toList rest d.rest) ∧ x.binds.names = BoundName.seen bs := by
    refine (located_ensures (P := fun (ds : List (Pattern × List Node × Bool)) d => ∃ mid rest bs,
      c.skip.rest = kind.toList ++ mid ∧ Introduces .declarators mid rest bs ∧
      (Behind rest d.rest ∨ Token ";".toList rest d.rest) ∧
      Pattern.namesOf (ds.map (·.1)) = BoundName.seen bs) ?_).bind fun r d hd => .pure hd
    refine word_token.bind fun w d ⟨hword, hrest, _⟩ => ?_
    rw [text_eq_of_wordAhead hahead hword] at hrest
    refine (declarators_binding hg).bind fun ds e ⟨bs, hbs, hds⟩ => ?_
    exact semicolon_ends.bind fun _ i hi => .pure ⟨d.rest, e.rest, bs, hrest, hbs, hi, hds⟩
  refine (hspan.and (variableDeclaration_declares hsound hc)).mono fun x d hx => ?_
  obtain ⟨⟨hspan, mid, rest, bs, hmid, hbs, hend, hnames⟩, hdeclares⟩ := hx
  refine fun _ _ => ⟨bs, ⟨_, mid, rest, hkind, ?_, hbs, ?_⟩, hnames⟩
  · rw [hspan, ← hmid]
    exact hc.skip.drop_pos
  · rw [hspan]
    exact hdeclares.1.stands.drop_pos ▸ hend

/-- A function or a class has no pattern. -/
theorem Declaration.bound_definition (span : Span) (name : Lexeme) (parts : List Node) :
    Declaration.Bound source ⟨span, .definition name, parts⟩ := nofun

theorem functionDeclaration_bound : (functionDeclaration g).Ensures c fun x _ => x.Bound source :=
  .any fun ⟨span, name, parts⟩ _ => .pure (Declaration.bound_definition span name parts)

theorem classDeclaration_bound {start : ℕ} {ds : List Node} :
    (classDeclaration g start ds).Ensures c fun x _ => x.Bound source := by
  refine .any fun _ d => .any fun name e => .any fun parts f => .any fun _ i => cursor_bind ?_
  exact .pure (Declaration.bound_definition ⟨start, i.pos⟩ name (ds ++ parts))

theorem declaration?_bound (hsound : g.IsSound source) (hg : g.IsFaithful) (hc : c.At source) :
    (declaration? g).Ensures c fun x _ => ∀ y ∈ x, y.Bound source := by
  refine (skipMarkup_spans hc).bind fun _ d hd => cursor_bind (wordAhead_bind ?_)
  have hd := hd.1.stands
  have hnone : Ensures (pure none) d fun (x : Option Declaration) _ => ∀ y ∈ x, y.Bound source :=
    .pure (by simp)
  have hsome {p : Parser Declaration} {e : Cursor} (hp : p.Ensures e fun x _ => x.Bound source) :
      Ensures (do return some (← p)) e fun x _ => ∀ y ∈ x, y.Bound source :=
    hp.bind fun x e hx => .pure (by simpa using hx)
  have hfunction : Ensures (do
      if ← isFunctionDeclarationAhead then return some (← functionDeclaration g) else return none) d
      fun x _ => ∀ y ∈ x, y.Bound source :=
    peeks_isFunctionDeclarationAhead.bind fun _ =>
      .ite (fun _ => hsome functionDeclaration_bound) fun _ => hnone
  split
  · exact hsome (variableDeclaration_bound hsound hg hd ‹_› (by decide))
  · exact hsome (variableDeclaration_bound hsound hg hd ‹_› (by decide))
  · refine peeks_isLetAhead.bind fun _ => .ite (fun _ => hsome ?_) fun _ => hnone
    exact variableDeclaration_bound hsound hg hd ‹_› (by decide)
  · exact hfunction
  · exact hfunction
  · refine (peeks_isAhead _).bind fun _ => peeks_isClassDeclarationAhead.bind fun _ => ?_
    refine .ite (fun _ => ?_) fun _ => hnone
    refine .any fun ds e => peeks_isClassDeclarationAhead.bind fun _ => ?_
    exact .ite (fun _ => hsome classDeclaration_bound) fun _ => goto_bind hnone

/-! ### Statements -/

theorem defaultExport_bound {start : ℕ} (hsound : g.IsSound source) (hg : g.IsFaithful)
    (hc : c.At source) : (defaultExport g start).Ensures c fun form _ => form.Bound source := by
  refine (keyword_reads hc).bind fun _ d hd => ?_
  refine (declaration?_bound hsound hg hd.stands).bind fun x e hx => ?_
  have hvalue (n : Node) : ExportForm.Bound source (.value start n) := trivial
  cases x with
  | some x => exact .pure (hx x rfl)
  | none => exact .any fun n f => .any fun _ i => .pure (hvalue n)

theorem starExport_bound : starExport.Ensures c fun form _ => form.Bound source := by
  have hform (name : Option Lexeme) (l : Lexeme) : ExportForm.Bound source (.star name l) := by
    cases name <;> trivial
  have hrest {name : Option Lexeme} {d : Cursor} : Ensures (do
      skipMarkup
      openingWord "from"
      let literal ← string
      semicolon false
      return ExportForm.star name literal) d fun form _ => form.Bound source :=
    skipMarkup_bind (.any fun _ e => .any fun l f => .any fun _ i => .pure (hform name l))
  refine .any fun _ d => skipMarkup_bind (.any fun hasName e => ?_)
  cases hasName with
  | true => exact .any fun name f => .pure_bind hrest
  | false => exact .pure_bind hrest

theorem namesExport_bound : (namesExport g).Ensures c fun form _ => form.Bound source := by
  have hform (items : List ListItem) (l : Option Lexeme) :
      ExportForm.Bound source (.names items l) := trivial
  exact .any fun items d => .any fun l e => .any fun _ f => .pure (hform items l)

theorem exportForm_bound {decorated : Bool} (hsound : g.IsSound source) (hg : g.IsFaithful)
    (hc : c.At source) : (exportForm g decorated).Ensures c fun form _ => form.Bound source := by
  refine skip_bind (cursor_bind ((openingWord_reads hc.skip).bind fun _ d hd => ?_))
  have hdeclaration := declaration?_bound hsound hg hd.stands
  refine peeks_ahead.bind fun cs => peeks_wordAhead.bind fun w => ?_
  split
  · exact .ite (fun _ => .fail) fun _ => starExport_bound
  · exact .ite (fun _ => .fail) fun _ => namesExport_bound
  · exact defaultExport_bound hsound hg hd.stands
  · refine hdeclaration.bind fun x e hx => ?_
    cases x with
    | some x => exact .pure (hx x rfl)
    | none => exact .fail

theorem exportStatement_bound (hsound : g.IsSound source) (hg : g.IsFaithful) (hc : c.At source) :
    (exportStatement g).Ensures c fun s _ => s.Bound source := by
  refine (located_ensures (P := fun r _ => ExportForm.Bound source r.2) ?_).bind fun r d hd => ?_
  · refine (decorators_spans hsound hc).bind fun ds d hd => ?_
    exact (exportForm_bound hsound hg hd.stands).bind fun form e hform => .pure hform
  · exact .pure hd.2

theorem importStatement_bound : (importStatement g).Ensures c fun s _ => s.Bound source := by
  have himport (span : Span) (clause : Option (List ImportPart)) (l : Lexeme) (ns : List Node) :
      Statement.Bound source (.importing span clause l ns) := trivial
  exact .any fun ⟨span, clause, l, ns⟩ d => .pure (himport span clause l ns)

theorem statementOf_bound {p : Parser (List Node)} :
    (statementOf p).Ensures c fun s _ => s.Bound source := by
  have hother (span : Span) (ns : List Node) : Statement.Bound source (.other span ns) := trivial
  exact .any fun ⟨span, ns⟩ d => .pure (hother span ns)

theorem expressionStatement_bound : (expressionStatement g).Ensures c fun s _ => s.Bound source := by
  refine .any fun ⟨span, es⟩ d => ?_
  have hother : Statement.Bound source (.other span es) := trivial
  have hdirective (l : Lexeme) : Statement.Bound source (.directive span l) := trivial
  dsimp only
  split
  · exact .pure (hdirective _)
  · exact .pure hother

theorem bracedStatement_bound : (bracedStatement g).Ensures c fun s _ => s.Bound source := by
  have hblock : (statementOf do return [← block g false]).Ensures c fun s _ => s.Bound source :=
    statementOf_bound
  have hobject : (expressionStatement g).Ensures c fun s _ => s.Bound source :=
    expressionStatement_bound
  exact (peeks_accepts _).bind fun _ => .ite (fun _ => .orElse hblock hobject) fun _ => hblock

theorem wordStatement_bound {w : String} (hsound : g.IsSound source) (hg : g.IsFaithful)
    (hc : c.At source) : (wordStatement g w).Ensures c fun s _ => s.Bound source := by
  have hexpression : (expressionStatement g).Ensures c fun s _ => s.Bound source :=
    expressionStatement_bound
  have hexport := exportStatement_bound hsound hg hc
  unfold wordStatement
  split
  -- an import, which may be a call
  case h_13 =>
    refine (peeks_accepts _).bind fun isOperand => ?_
    exact .ite (fun _ => hexpression) fun _ => importStatement_bound
  -- any other word
  case h_14 =>
    refine (peeks_accepts _).bind fun isLabel => .ite (fun _ => statementOf_bound) fun _ => ?_
    exact (peeks_accepts _).bind fun isExport => .ite (fun _ => hexport) fun _ => hexpression
  all_goals exact statementOf_bound

theorem statement_bound (hsound : g.IsSound source) (hg : g.IsFaithful) (hc : c.At source) :
    (statement g).Ensures c fun s _ => s.Bound source := by
  refine (skipMarkup_spans hc).bind fun _ d hd => cursor_bind ?_
  have hd := hd.1.stands
  have hdeclared (x : Declaration) : Statement.Bound source (.declaration x) := trivial
  have hword {w : String} {e : Cursor} (he : e.At source) :
      (wordStatement g w).Ensures e fun s _ => s.Bound source := wordStatement_bound hsound hg he
  have hexport := exportStatement_bound hsound hg hd
  have hdeclaration := declaration?_spans hsound hd
  split
  · exact bracedStatement_bound
  · exact statementOf_bound
  · refine (peeks_accepts _).bind fun isExport => .ite (fun _ => hexport) fun _ => ?_
    refine hdeclaration.bind fun x e he => ?_
    cases x with
    | some x => exact .pure (hdeclared x)
    | none => exact expressionStatement_bound
  · refine peeks_wordAhead.bind fun w => ?_
    cases w with
    | none => exact expressionStatement_bound
    | some w =>
      refine (peeks_accepts _).bind fun isLabel => .ite (fun _ => hword hd) fun _ => ?_
      refine hdeclaration.bind fun x e he => ?_
      cases x with
      | some x => exact .pure (hdeclared x)
      | none => exact hword he.1.stands

end Syntax

/-! ### Programs -/

theorem Grammar.statement_bound {depth : ℕ} (hc : c.At source) :
    (ofDepth depth).statement.Ensures c fun s _ => s.Bound source := by
  cases depth with
  | zero => exact .fail
  | succ depth =>
    exact Syntax.statement_bound (ofDepth_isSound source depth) (ofDepth_isFaithful depth) hc

open JavaScript.Parser in
theorem Syntax.programStatements_bound {depth n : ℕ} (hc : c.At source) :
    (programStatements (.ofDepth depth) n).Ensures c fun ss _ => ∀ s ∈ ss, s.Bound source := by
  induction n generalizing c with
  | zero => exact .fail
  | succ n ih =>
    rw [programStatements]
    refine (skip_spans hc).bind fun _ d hd => cursor_bind (.ite (fun _ => .pure (by simp)) fun _ => ?_)
    have hrest {s : Statement} {e : Cursor} (he : e.At source) (hs : s.Bound source) : Ensures (do
        return s :: (← programStatements (.ofDepth depth) n)) e fun ss _ =>
        ∀ s ∈ ss, s.Bound source :=
      (ih he).bind fun ss f hss => .pure (List.forall_mem_cons.mpr ⟨hs, hss⟩)
    refine .ite (fun _ => ?_) fun _ => ?_
    · have hcomment (span : Span) : Statement.Bound source (.markupComment span) := trivial
      have hbound : commentStatement.Ensures d fun s _ => s.Bound source :=
        .any fun r e => .pure (hcomment r.1)
      refine ((commentStatement_states hd.1.stands).and hbound).bind fun s e he => ?_
      exact hrest he.1.1.stands he.2
    · refine (((Grammar.ofDepth_isSound source depth).statement hd.1.stands).and
        (Grammar.statement_bound hd.1.stands)).bind fun s e he => ?_
      exact hrest he.1.1.stands he.2

theorem Program.parse_bound {p : Program} (h : Program.parse source = .ok p) :
    ∀ s ∈ p.body, s.Bound source := by
  have hprogram : (Syntax.program (.ofDepth (Syntax.depthFor source.length))).Ensures ⟨source, 0⟩
      fun p _ => ∀ s ∈ p.body, s.Bound source := by
    refine (Syntax.interpreterLine_stands (Cursor.at_start source)).bind fun line d hd => ?_
    exact (Syntax.programStatements_bound hd.1).bind fun ss e hss => .pure hss
  rw [Program.parse] at h
  split at h
  · cases h
    exact hprogram _ _ ‹_›
  · cases h

theorem program_bound {p : Program} (h : program source = .ok p) : ∀ s ∈ p.body, s.Bound source := by
  rw [program] at h
  split at h
  · cases h
    exact Program.parse_bound ‹_›
  · cases h

/-! ### What the names stand for -/

theorem Spells.forall_iff {ws : List (List Char)} {units : List (List ℕ)}
    (h : List.Forall₂ Spells ws units) : ws.map utf16 = units ↔ ∀ w ∈ ws, '\\' ∉ w := by
  induction h with
  | nil => simp
  | cons hw _ ih => rw [List.map_cons, List.cons.injEq, hw.utf16_eq_iff, ih, List.forall_mem_cons]

/-- The characters of the names that are found are what all names stand for if and only if each of
them is found and none is written with an escape. -/
theorem BoundName.spells_seen_iff {bs : List BoundName} {units : List (List ℕ)}
    (h : List.Forall₂ Spells (bs.map word) units) :
    (seen bs).map utf16 = units ↔ ∀ b ∈ bs, b.isSeen ∧ '\\' ∉ b.word := by
  have hall : (∀ b ∈ bs, b.isSeen ∧ '\\' ∉ b.word) ↔
      (∀ b ∈ bs, b.isSeen) ∧ ∀ w ∈ bs.map word, '\\' ∉ w := by
    simp [forall_and]
  rw [hall, ← Spells.forall_iff h]
  constructor
  · intro heq
    have hlength := h.length_eq
    rw [← heq, List.length_map, List.length_map] at hlength
    have hseen := isSeen_of_length hlength.symm
    exact ⟨hseen, seen_eq_iff.mpr hseen ▸ heq⟩
  · rintro ⟨hseen, heq⟩
    rw [seen_eq_iff.mpr hseen, heq]

/-- The names of an exported declaration of variables are those that its text introduces, in order,
but for an element `undefined` of a pattern. They are what the names stand for just where none is
such an element and none is written with an escape. -/
theorem declaration_introduces {p : Program} (hp : program source = .ok p) {span : Span}
    {isDefault : Bool} {word : ℕ} {d : Declaration} {ds : List Node} {ps : List Pattern}
    (hs : .exporting span (.declaration isDefault word d) ds ∈ p.body)
    (hd : d.binds = .patterns ps) :
    ∃ bs, d.Introduces source bs ∧ d.binds.names = BoundName.seen bs ∧
      (d.binds.names = bs.map BoundName.word ↔ ∀ b ∈ bs, b.isSeen) ∧
      ∀ units, List.Forall₂ Spells (bs.map BoundName.word) units →
        (d.binds.names.map utf16 = units ↔ ∀ b ∈ bs, b.isSeen ∧ '\\' ∉ b.word) := by
  obtain ⟨bs, hbs, hnames⟩ := program_bound hp _ hs ps hd
  rw [hnames]
  exact ⟨bs, hbs, rfl, BoundName.seen_eq_iff, fun _ => BoundName.spells_seen_iff⟩

/-- Keys, values and holes between the names of a pattern. -/
def nestedExport : List Char :=
  "export const \x7b a, b: [c = f(x), , ...d], [k]: e = u \x7d = v, undefined = 1;".toList

theorem program_nestedExport : (program nestedExport).toOption.any (fun p => match p.body with
    | [.exporting _ (.declaration false _ ⟨⟨7, _⟩, .patterns ps, _⟩) _] =>
      Pattern.namesOf ps == ["a", "c", "d", "e", "undefined"].map String.toList
    | _ => false) = true := by
  decide +kernel

theorem declaration_introduces_nested :
    ∃ p span word d ds bs, program nestedExport = .ok p ∧
      .exporting span (.declaration false word d) ds ∈ p.body ∧ d.Introduces nestedExport bs ∧
      BoundName.seen bs = ["a", "c", "d", "e", "undefined"].map String.toList := by
  have hprogram := program_nestedExport
  cases hp : program nestedExport with
  | error e => simp [hp, Except.toOption] at hprogram
  | ok p =>
    rw [hp, Except.toOption, Option.any_some] at hprogram
    split at hprogram
    · rename_i span word stop ps parts ds hbody
      obtain ⟨bs, hbs, hnames, -⟩ :=
        declaration_introduces hp (hbody ▸ List.mem_singleton_self _) rfl
      exact ⟨p, span, word, _, ds, bs, rfl, hbody ▸ List.mem_singleton_self _, hbs,
        hnames.symm.trans (beq_iff_eq.mp hprogram)⟩
    · cases hprogram

/-- An element of a pattern that has the name of a value. -/
def elementExport : List Char := "export const [undefined] = [1];".toList

theorem program_elementExport : (program elementExport).toOption.any (fun p => match p.body with
    | [.exporting _ (.declaration false _ ⟨⟨7, 31⟩, .patterns ps, _⟩) _] => Pattern.namesOf ps == []
    | _ => false) = true := by
  decide +kernel

/-- The value `[1]` is read up to the semicolon. -/
theorem isValue_elementExport : IsValue .statement " [1];".toList ";".toList := by
  have hvalue : ((Grammar.ofDepth 4).expression .statement ⟨" [1];".toList, 0⟩).toOption.any
      (fun r => r.2.rest == ";".toList) = true := by decide +kernel
  cases hr : (Grammar.ofDepth 4).expression .statement ⟨" [1];".toList, 0⟩ with
  | error e =>
    rw [hr] at hvalue
    cases hvalue
  | ok r =>
    rw [hr, Except.toOption, Option.any_some, beq_iff_eq] at hvalue
    exact ⟨4, 0, r.1, r.2.pos, hvalue ▸ hr⟩

theorem introduces_elementExport : Introduces .declarators " [undefined] = [1];".toList ";".toList
    [⟨BoundName.undefined, true⟩] := by
  have hblank {token cs rest : List Char} (h : cs = ' ' :: (token ++ rest)) : Token token cs rest :=
    h ▸ .blank rfl (.refl _)
  have hword : Word BoundName.undefined "undefined] = [1];".toList "] = [1];".toList :=
    ⟨Behind.refl _, by decide +kernel⟩
  have hclose : Token Bracket.square.closing.toList "] = [1];".toList " = [1];".toList := Behind.refl _
  have hitems : Introduces (.items .square) "undefined] = [1];".toList " = [1];".toList
      [⟨BoundName.undefined, true⟩] :=
    .last (.element (by decide) (Introduces.name hword) (.inl rfl)) hclose
  have hopen : Token Bracket.square.opening.toList " [undefined] = [1];".toList
      "undefined] = [1];".toList := hblank (by decide)
  have hequals : Token "=".toList " = [1];".toList " [1];".toList := hblank (by decide)
  have hvalue : MayHaveValue .statement " = [1];".toList ";".toList :=
    .inr ⟨_, hequals, isValue_elementExport⟩
  exact .lastDeclarator (.declarator (.declaredBrackets (.brackets hopen hitems)) hvalue)

/-- A name that a pattern introduces need not be found. -/
theorem not_declaration_introduces :
    ¬ ∀ (source : List Char) (p : Program), program source = .ok p →
      ∀ span isDefault word d ds ps, .exporting span (.declaration isDefault word d) ds ∈ p.body →
        d.binds = .patterns ps → ∀ bs, d.Introduces source bs →
          d.binds.names = bs.map BoundName.word := by
  intro h
  have hprogram := program_elementExport
  cases hp : program elementExport with
  | error e => simp [hp, Except.toOption] at hprogram
  | ok p =>
    rw [hp, Except.toOption, Option.any_some] at hprogram
    split at hprogram
    · rename_i span word ps parts ds hbody
      have htext : Text.drop 7 elementExport = "const".toList ++ " [undefined] = [1];".toList ∧
          ";".toList = ";".toList ++ Text.drop 31 elementExport := by decide +kernel
      have hend : Token ";".toList ";".toList (Text.drop 31 elementExport) := by
        rw [Token, ← htext.2]
        exact .refl _
      have hintroduces : Declaration.Introduces elementExport ⟨⟨7, 31⟩, .patterns ps, parts⟩
          [⟨BoundName.undefined, true⟩] :=
        ⟨_, _, _, by decide, htext.1, introduces_elementExport, .inr hend⟩
      have hnames := h _ p hp span false word _ ds ps (hbody ▸ List.mem_singleton_self _) rfl _ hintroduces
      rw [Binds.names, beq_iff_eq.mp hprogram] at hnames
      cases hnames
    · cases hprogram

end Bundler.JavaScript
