import Bundler.JavaScript.Program
import Bundler.Proofs.JavaScript.Definitions
import Bundler.Proofs.JavaScript.Gaps

/-! The names that declarations of variables introduce. A grammar of patterns over plain texts
tells them in order, and every pattern that is read is one of this grammar: its names are those
that the text introduces, but the word `undefined` is seen as a value where an element of a
pattern can be any place to assign to. -/
namespace Bundler.JavaScript

variable {α β : Type}

/-! ### What stands inside a pattern -/

/-- The parser reads the text `cs` up to `rest`. -/
def Parser.Leaves (p : Parser α) (cs rest : List Char) : Prop :=
  ∃ pos a stop, p ⟨cs, pos⟩ = .ok (a, ⟨rest, stop⟩)

/-- An expression without commas outside brackets. -/
def IsValue (cx : Context) (cs rest : List Char) : Prop :=
  ∃ depth, ((Grammar.ofDepth depth).expression cx).Leaves cs rest

/-- A value behind an equals sign. -/
def HasValue (cx : Context) (cs rest : List Char) : Prop :=
  ∃ mid, Token "=".toList cs mid ∧ IsValue cx mid rest

def MayHaveValue (cx : Context) (cs rest : List Char) : Prop := rest = cs ∨ HasValue cx cs rest

/-- A member of a value, such as `a.b`, which is a place to assign to and introduces no name. -/
def IsMember (cs rest : List Char) : Prop :=
  ∃ depth pos node stop,
    Syntax.reference (Grammar.ofDepth depth) ⟨cs, pos⟩ = .ok (⟨node, .member⟩, ⟨rest, stop⟩)

/-- The key of a property. -/
inductive IsKey : List Char → List Char → Prop
  | word {w cs rest : List Char} (h : Word w cs rest) : IsKey cs rest
  | string {cs mid rest : List Char} (hb : Behind cs mid) (h : Parser.string.Leaves mid rest) :
      IsKey cs rest
  | number {cs mid rest : List Char} (hb : Behind cs mid) (h : Parser.number.Leaves mid rest) :
      IsKey cs rest
  | privateName {cs mid rest : List Char} (hb : Behind cs mid)
      (h : Parser.privateName.Leaves mid rest) : IsKey cs rest
  | computed {cs mid mid' rest : List Char} (hopen : Token "[".toList cs mid)
      (h : IsValue .inner mid mid') (hclose : Token "]".toList mid' rest) : IsKey cs rest

/-! ### The grammar of patterns -/

/-- A name that a pattern introduces. -/
structure BoundName where
  word : List Char
  /-- Whether it stands where a pattern could have any place to assign to: as an element of a list,
  behind a key or behind three dots. -/
  isElement : Bool
deriving DecidableEq

namespace BoundName

/-- The word for the value that nothing has. -/
def undefined : List Char := "undefined".toList

/-- Whether a name is told from a value. -/
def isSeen (b : BoundName) : Bool := !(b.isElement && b.word == undefined)

/-- The names that are found. -/
def seen (bs : List BoundName) : List (List Char) := (bs.filter isSeen).map word

@[simp] theorem seen_nil : seen [] = [] := rfl

@[simp] theorem seen_append (bs bs' : List BoundName) : seen (bs ++ bs') = seen bs ++ seen bs' := by
  simp [seen]

theorem isSeen_of_length {bs : List BoundName} (h : (seen bs).length = bs.length) :
    ∀ b ∈ bs, b.isSeen := by
  rw [seen, List.length_map] at h
  exact List.length_filter_eq_length_iff.mp h

/-- Only where every name is seen none is missing. -/
theorem seen_eq_iff {bs : List BoundName} : seen bs = bs.map word ↔ ∀ b ∈ bs, b.isSeen := by
  refine ⟨fun h => isSeen_of_length (by rw [h, List.length_map]), fun h => ?_⟩
  rw [seen, List.filter_eq_self.mpr h]

end BoundName

/-- The brackets of a pattern. -/
inductive Bracket where
  | brace
  | square
deriving DecidableEq

def Bracket.opening : Bracket → String
  | .brace => "\x7b"
  | .square => "["

def Bracket.closing : Bracket → String
  | .brace => "\x7d"
  | .square => "]"

/-- The constructs of a declaration of variables. -/
inductive Form where
  /-- An object pattern or an array pattern. -/
  | brackets
  /-- A name, or a place to assign to. -/
  | plain
  /-- The rest of the items, behind three dots. -/
  | spread
  /-- An item of an array pattern, or what stands behind a key. -/
  | element
  /-- An item of an object pattern. -/
  | member
  /-- Items up to the closing bracket. -/
  | items (b : Bracket)
  | declared
  | declarator
  | declarators
deriving DecidableEq

def Bracket.item : Bracket → Form
  | .brace => .member
  | .square => .element

/-- The text from `cs` up to `rest` has the form and introduces these names, in the order of the
text. Keys and values are read over. -/
inductive Introduces : Form → List Char → List Char → List BoundName → Prop
  | brackets {b : Bracket} {cs mid rest : List Char} {bs : List BoundName}
      (hopen : Token b.opening.toList cs mid) (h : Introduces (.items b) mid rest bs) :
      Introduces .brackets cs rest bs
  | name {w cs rest : List Char} (h : Word w cs rest) : Introduces .plain cs rest [⟨w, true⟩]
  | place {cs mid rest : List Char} (hb : Behind cs mid) (h : IsMember mid rest) :
      Introduces .plain cs rest []
  | spread {form : Form} {cs mid rest : List Char} {bs : List BoundName}
      (hform : form ∈ [.brackets, .plain]) (hdots : Token "...".toList cs mid)
      (h : Introduces form mid rest bs) : Introduces .spread cs rest bs
  | element {form : Form} {cs mid rest : List Char} {bs : List BoundName}
      (hform : form ∈ [.brackets, .plain, .spread]) (h : Introduces form cs mid bs)
      (hvalue : MayHaveValue .inner mid rest) : Introduces .element cs rest bs
  | memberSpread {cs rest : List Char} {bs : List BoundName} (h : Introduces .spread cs rest bs) :
      Introduces .member cs rest bs
  | memberBrackets {cs mid rest : List Char} {bs : List BoundName}
      (h : Introduces .brackets cs mid bs) (hvalue : HasValue .inner mid rest) :
      Introduces .member cs rest bs
  | memberKey {cs mid mid' rest : List Char} {bs : List BoundName} (hkey : IsKey cs mid)
      (hcolon : Token ":".toList mid mid') (h : Introduces .element mid' rest bs) :
      Introduces .member cs rest bs
  | memberName {w cs mid rest : List Char} (h : Word w cs mid)
      (hvalue : MayHaveValue .inner mid rest) : Introduces .member cs rest [⟨w, false⟩]
  | close {b : Bracket} {cs rest : List Char} (h : Token b.closing.toList cs rest) :
      Introduces (.items b) cs rest []
  | hole {b : Bracket} {cs mid rest : List Char} {bs : List BoundName}
      (hcomma : Token ",".toList cs mid) (h : Introduces (.items b) mid rest bs) :
      Introduces (.items b) cs rest bs
  | item {b : Bracket} {cs mid mid' rest : List Char} {bs bs' : List BoundName}
      (h : Introduces b.item cs mid bs) (hcomma : Token ",".toList mid mid')
      (h' : Introduces (.items b) mid' rest bs') : Introduces (.items b) cs rest (bs ++ bs')
  | last {b : Bracket} {cs mid rest : List Char} {bs : List BoundName}
      (h : Introduces b.item cs mid bs) (hclose : Token b.closing.toList mid rest) :
      Introduces (.items b) cs rest bs
  | declaredName {w cs rest : List Char} (h : Word w cs rest) :
      Introduces .declared cs rest [⟨w, false⟩]
  | declaredBrackets {cs rest : List Char} {bs : List BoundName}
      (h : Introduces .brackets cs rest bs) : Introduces .declared cs rest bs
  | declarator {cs mid rest : List Char} {bs : List BoundName}
      (h : Introduces .declared cs mid bs) (hvalue : MayHaveValue .statement mid rest) :
      Introduces .declarator cs rest bs
  | lastDeclarator {cs rest : List Char} {bs : List BoundName}
      (h : Introduces .declarator cs rest bs) : Introduces .declarators cs rest bs
  | declarators {cs mid mid' rest : List Char} {bs bs' : List BoundName}
      (h : Introduces .declarator cs mid bs) (hcomma : Token ",".toList mid mid')
      (h' : Introduces .declarators mid' rest bs') : Introduces .declarators cs rest (bs ++ bs')

theorem Word.of_behind {w cs mid rest : List Char} (h : Behind cs mid) (hw : Word w mid rest) :
    Word w cs rest := ⟨h.trans hw.1, hw.2⟩

theorem IsKey.of_behind {cs mid rest : List Char} (h : Behind cs mid) (hk : IsKey mid rest) :
    IsKey cs rest := by
  cases hk with
  | word hw => exact .word (hw.of_behind h)
  | string hb hs => exact .string (h.trans hb) hs
  | number hb hs => exact .number (h.trans hb) hs
  | privateName hb hs => exact .privateName (h.trans hb) hs
  | computed hopen hv hclose => exact .computed (h.trans hopen) hv hclose

/-- Every form starts with a token. -/
theorem Introduces.of_behind {form : Form} {cs mid rest : List Char} {bs : List BoundName}
    (hb : Behind cs mid) (h : Introduces form mid rest bs) : Introduces form cs rest bs := by
  induction h generalizing cs with
  | brackets hopen h => exact .brackets (hb.trans hopen) h
  | name h => exact .name (h.of_behind hb)
  | place hb' h => exact .place (hb.trans hb') h
  | spread hform hdots h => exact .spread hform (hb.trans hdots) h
  | element hform _ hvalue ih => exact .element hform (ih hb) hvalue
  | memberSpread _ ih => exact .memberSpread (ih hb)
  | memberBrackets _ hvalue ih => exact .memberBrackets (ih hb) hvalue
  | memberKey hkey hcolon h => exact .memberKey (hkey.of_behind hb) hcolon h
  | memberName h hvalue => exact .memberName (h.of_behind hb) hvalue
  | close h => exact .close (hb.trans h)
  | hole hcomma h => exact .hole (hb.trans hcomma) h
  | item _ hcomma h' ih => exact .item (ih hb) hcomma h'
  | last _ hclose ih => exact .last (ih hb) hclose
  | declaredName h => exact .declaredName (h.of_behind hb)
  | declaredBrackets _ ih => exact .declaredBrackets (ih hb)
  | declarator _ hvalue ih => exact .declarator (ih hb) hvalue
  | lastDeclarator _ ih => exact .lastDeclarator (ih hb)
  | declarators _ hcomma h' ih => exact .declarators (ih hb) hcomma h'

/-! ### What is read of it -/

/-- On the way from `c` to `d` a text of this form was read, and of its names these are seen. -/
def Binding (form : Form) (c d : Cursor) (names : List (List Char)) : Prop :=
  ∃ bs, Introduces form c.rest d.rest bs ∧ names = BoundName.seen bs

theorem Binding.of_behind {form : Form} {c d e : Cursor} {names : List (List Char)}
    (h : Behind c.rest d.rest) (hb : Binding form d e names) : Binding form c e names := by
  obtain ⟨bs, hintroduces, hnames⟩ := hb
  exact ⟨bs, hintroduces.of_behind h, hnames⟩

/-- How a place to assign to starts. -/
def Form.ofTarget : List Char → Form
  | '{' :: _ | '[' :: _ => .brackets
  | _ => .plain

/-- How a pattern starts. -/
def Form.ofPattern (cs : List Char) : Form :=
  if startsWith "...".toList cs then .spread else .ofTarget cs

theorem Form.ofTarget_mem (cs : List Char) : ofTarget cs ∈ [.brackets, .plain] := by
  unfold ofTarget
  split <;> decide

theorem Form.ofPattern_mem (cs : List Char) : ofPattern cs ∈ [.brackets, .plain, .spread] := by
  rw [ofPattern]
  split_ifs
  · decide
  · exact List.mem_append_left [.spread] (ofTarget_mem cs)

/-- Readers of values and patterns that keep to the grammar. -/
structure Grammar.IsFaithful (g : Grammar) : Prop where
  expression : ∀ {cx : Context} {c : Cursor},
    (g.expression cx).Ensures c fun _ d => IsValue cx c.rest d.rest
  reference : ∀ {c : Cursor},
    (Syntax.reference g).Ensures c fun o d => o.role = .member → IsMember c.rest d.rest
  pattern : ∀ {c : Cursor},
    g.pattern.Ensures c fun p d => Binding (.ofPattern c.skipMarkup.rest) c d p.names

namespace Syntax
open JavaScript.Parser

variable {g : Grammar} {cx : Context} {c d e : Cursor}

/-! ### Operands that are words -/

/-- Of an operand between two cursors that may be a single word: that it is one. -/
def Operand.Spelled (o : Operand) (c d : Cursor) : Prop :=
  (∀ w, o.node = .name w → o.role = .name →
    Word w.text c.rest d.rest ∧ w.text ≠ BoundName.undefined) ∧
  (o.role = .undefinedName → Word BoundName.undefined c.rest d.rest)

/-- The roles of single words. -/
def Role.isWord : Role → Bool
  | .name | .undefinedName => true
  | _ => false

theorem Operand.Spelled.of_not_isWord {o : Operand} (h : o.role.isWord = false) :
    o.Spelled c d := by
  refine ⟨fun w _ hrole => ?_, fun hrole => ?_⟩ <;>
  · rw [hrole] at h
    cases h

theorem Operand.Spelled.of_behind {o : Operand} (h : Behind c.rest d.rest) (ho : o.Spelled d e) :
    o.Spelled c e :=
  ⟨fun w hnode hrole => ⟨(ho.1 w hnode hrole).1.of_behind h, (ho.1 w hnode hrole).2⟩,
    fun hrole => (ho.2 hrole).of_behind h⟩

/-- A reader of operands that are no words. -/
theorem spelled_of_role {p : Parser Operand} (h : p.Ensures d fun o _ => o.role.isWord = false) :
    p.Ensures d fun o e => o.Spelled c e :=
  h.mono fun _ _ ho => .of_not_isWord ho

theorem ended_ensures {start : ℕ} {ns : List Node} {role : Role} :
    (ended start ns role).Ensures c fun o d => o.role = role ∧ d = c := by
  rintro _ _ ⟨⟩
  exact ⟨rfl, rfl⟩

theorem ended_role {start : ℕ} {ns : List Node} {role : Role} (h : role.isWord = false) :
    (ended start ns role).Ensures c fun o _ => o.role.isWord = false :=
  ended_ensures.mono fun o _ ho => by rw [ho.1, h]

theorem importRest_role {w : Lexeme} :
    (importRest g w).Ensures c fun o _ => o.role.isWord = false := by
  refine skipMarkup_bind (isAhead_bind (.ite (fun _ => ?_) fun _ => ?_))
  · exact .any fun _ _ => .any fun _ _ => .pure rfl
  · exact .any fun _ _ => .any fun _ _ => ended_role (by split_ifs <;> rfl)

theorem newRest_role {start : ℕ} :
    (newRest g start).Ensures c fun o _ => o.role.isWord = false := by
  refine .any fun b _ => .ite (fun _ => .any fun _ _ => ended_role rfl) fun _ => ?_
  refine .any fun _ _ => .any fun _ _ => .any fun _ _ => .ite (fun _ => ?_) fun _ => ?_
  · exact .any fun _ _ => ended_role rfl
  · exact .pure_bind (ended_role rfl)

/-- A word ahead is the one that is read. -/
theorem text_eq_of_wordAhead {cs w : List Char} {s : String} (hs : (word? cs).map String.ofList = some s)
    (hw : word? cs = some w) : w = s.toList := by
  rw [hw, Option.map_some, Option.some_inj] at hs
  rw [← hs, String.toList_ofList]

theorem wordOperand_spelled : (wordOperand g).Ensures c fun o d => o.Spelled c d := by
  have hprimary {start : ℕ} {ns : List Node} {d : Cursor} :
      (ended start ns .primary).Ensures d fun o e => o.Spelled c e := spelled_of_role (ended_role rfl)
  have hname {s : String} (hs : (word? c.skip.rest).map String.ofList = some s)
      (hne : s ≠ "undefined") :
      Ensures (do return ⟨.name (← word), .name⟩) c fun o d => Operand.Spelled o c d := by
    refine word_token.bind fun w d ⟨hw, _, htoken⟩ => .pure ⟨?_, by simp⟩
    rintro _ ⟨⟩ -
    refine ⟨htoken, fun htext => hne ?_⟩
    rw [text_eq_of_wordAhead hs hw] at htext
    exact String.toList_inj.mp htext
  refine cursor_bind (wordAhead_bind ?_)
  split
  · exact .any fun _ _ => hprimary
  · exact .any fun _ _ => hprimary
  · exact .any fun _ _ => spelled_of_role importRest_role
  · exact .any fun _ _ => spelled_of_role newRest_role
  · rename_i hs
    refine word_token.bind fun w d ⟨hw, _, htoken⟩ => ended_ensures.mono fun o e ⟨hrole, he⟩ => ?_
    rw [text_eq_of_wordAhead hs hw] at htoken
    rw [Operand.Spelled, hrole, he]
    exact ⟨fun _ _ h => absurd h (by decide), fun _ => htoken⟩
  · rename_i hs
    refine (peeks_accepts _).bind fun _ => .ite (fun _ => .any fun _ _ => hprimary) fun _ => ?_
    exact hname hs (by decide)
  · rename_i w _ _ _ _ hne _ hs
    refine .ite (fun _ => .any fun _ _ => hprimary) fun _ => .ite (fun _ => .fail) fun _ => ?_
    exact hname hs hne
  · exact .fail

theorem primary_spelled : (primary g).Ensures c fun o d => o.Spelled c d := by
  have hended {start : ℕ} {role : Role} {ns : List Node} {d : Cursor} (hrole : role.isWord = false) :
      (ended start ns role).Ensures d fun o e => o.Spelled c e := spelled_of_role (ended_role hrole)
  refine skipMarkup_bind (cursor_bind ?_)
  split
  · exact .any fun _ _ => hended rfl
  · exact .any fun _ _ => hended rfl
  · exact .any fun _ _ => hended rfl
  · exact .any fun _ _ => .pure (.of_not_isWord rfl)
  · exact .any fun _ _ => .pure (.of_not_isWord rfl)
  · exact .any fun _ _ => .pure (.of_not_isWord rfl)
  · exact .any fun _ _ => hended rfl
  · exact .any fun _ _ => hended rfl
  · exact .any fun _ _ => .pure (.of_not_isWord rfl)
  · refine .ite (fun _ => .any fun _ _ => hended rfl) fun _ => ?_
    exact wordOperand_spelled.mono fun o e ho => ho.of_behind c.behind_skipMarkup

theorem optionalRest_role {o : Operand} :
    (optionalRest g o).Ensures c fun o' _ => o'.role.isWord = false := by
  refine .any fun cs _ => ?_
  split
  · exact .any fun _ _ => ended_role rfl
  · exact .ite (fun _ => fail_bind) fun _ => .any fun _ _ => .any fun _ _ => .pure rfl
  · exact .any fun _ _ => ended_role rfl

/-- What may follow an operand makes another one of it, which is no word. -/
theorem postfix_ensures {calls : Bool} {n : ℕ} {o : Operand} :
    (postfix_ g cx calls n o).Ensures c fun o' d => o' = o ∧ d = c ∨ o'.role.isWord = false := by
  induction n generalizing c o with
  | zero => exact .fail
  | succ n ih =>
    have hmore {o' : Operand} {d : Cursor} (h : o'.role.isWord = false) :
        (postfix_ g cx calls n o').Ensures d fun o' d => o' = o ∧ d = c ∨ o'.role.isWord = false :=
      ih.mono fun o'' e ho => .inr (ho.elim (fun heq => heq.1 ▸ h) id)
    have hended {start : ℕ} {ns : List Node} {role : Role} {d : Cursor} (h : role.isWord = false) :
        Ensures (do postfix_ g cx calls n (← ended start ns role)) d fun o' d =>
          o' = o ∧ d = c ∨ o'.role.isWord = false :=
      (ended_role h).bind fun o' e ho => hmore ho
    have hstay : Ensures (pure o) c fun o' d => o' = o ∧ d = c ∨ o'.role.isWord = false :=
      .pure (.inl ⟨rfl, rfl⟩)
    have hupdate {text : String} : (update cx calls (postfix_ g cx calls n) o text).Ensures c
        fun o' d => o' = o ∧ d = c ∨ o'.role.isWord = false :=
      (peeks_semicolonImplied _).bind fun _ => .ite (fun _ => hstay) fun _ =>
        .any fun _ _ => hended rfl
    rw [postfix_]
    refine peeks_ahead.bind fun cs => ?_
    split
    · exact .any fun _ _ => .any fun _ _ => hended rfl
    · refine .ite (fun _ => hstay) fun _ => .any fun _ _ => ?_
      exact optionalRest_role.bind fun o' _ ho => hmore ho
    · exact .any fun _ _ => hended rfl
    · exact .ite (fun _ => .any fun _ _ => .any fun _ _ => hmore rfl) fun _ => hstay
    · exact .ite (fun _ => hstay) fun _ => .any fun _ _ => .any fun _ _ => hmore rfl
    · exact hupdate
    · exact hupdate
    · exact hstay

theorem reference_spelled : (reference g).Ensures c fun o d => o.Spelled c d := by
  refine primary_spelled.bind fun o d hd => postfix_ensures.mono fun o' e ho => ?_
  rcases ho with ⟨rfl, rfl⟩ | hrole
  · exact hd
  · exact .of_not_isWord hrole

/-! ### Patterns -/

theorem isDestructuringAhead_bind {β : Type} {f : Bool → Parser β} {R : β → Cursor → Prop}
    (h : Ensures (f (Form.ofTarget c.skip.rest = .brackets)) c R) :
    Ensures (isDestructuringAhead >>= f) c R := by
  have hahead : isDestructuringAhead c = .ok (decide (Form.ofTarget c.skip.rest = .brackets), c) := by
    simp only [isDestructuringAhead, ahead, Bind.bind]
    generalize c.skip.rest = cs
    unfold Form.ofTarget
    split
    · rfl
    · rfl
    · simp_all
      rfl
  intro b d hb
  exact h b d (by simpa [Bind.bind, hahead] using hb)

/-- A value behind an equals sign. -/
theorem value_bind {β : Type} {f : Node → Parser β} {R : β → Cursor → Prop} (hg : g.IsFaithful)
    (h : ∀ n d, HasValue cx c.rest d.rest → Ensures (f n) d R) : Ensures (do
      symbol "="
      let n ← g.expression cx
      f n) c R :=
  symbol_token.bind fun _ _ hd => hg.expression.bind fun n e he => h n e ⟨_, hd, he⟩

theorem leaves {α : Type} {p : Parser α} : p.Ensures c fun _ d => p.Leaves c.rest d.rest :=
  fun a d h => ⟨c.pos, a, d.pos, h⟩

theorem propertyName_ensures (hg : g.IsFaithful) : (propertyName g).Ensures c fun n d =>
    IsKey c.rest d.rest ∧ ∀ w, n = .word w → Word w.text c.rest d.rest := by
  have hd := c.behind_skipMarkup
  refine skipMarkup_bind (cursor_bind ?_)
  split
  · refine symbol_token.bind fun _ e he => hg.expression.bind fun n i hi => ?_
    refine symbol_token.bind fun _ j hj => .pure ⟨.of_behind hd (.computed he hi hj), by simp⟩
  · exact leaves.bind fun _ e he => .pure ⟨.string hd he, by simp⟩
  · exact leaves.bind fun _ e he => .pure ⟨.string hd he, by simp⟩
  · exact leaves.bind fun _ e he => .pure ⟨.privateName hd he, by simp⟩
  · refine .ite (fun _ => leaves.bind fun _ e he => .pure ⟨.number hd he, by simp⟩) fun _ => ?_
    refine word_token.bind fun w e ⟨_, _, he⟩ => .pure ⟨.word (he.of_behind hd), ?_⟩
    rintro _ ⟨⟩
    exact he.of_behind hd

theorem target_binding (hg : g.IsFaithful)
    (hbrackets : (destructuring g).Ensures c fun p d => Binding .brackets c d p.names) :
    (target g).Ensures c fun p d => Binding (.ofTarget c.skip.rest) c d p.names := by
  refine isDestructuringAhead_bind (.ite (fun h => ?_) fun h => ?_)
  · rwa [of_decide_eq_true h]
  have hplain : Form.ofTarget c.skip.rest = .plain := by
    have hmem := Form.ofTarget_mem c.skip.rest
    simpa [of_decide_eq_false (Bool.eq_false_iff.mpr h)] using hmem
  rw [hplain]
  refine (hg.reference.and reference_spelled).bind fun o d ⟨hmember, hspelled⟩ => ?_
  split
  · rename_i w hnode hrole
    obtain ⟨hword, hne⟩ := hspelled.1 w hnode hrole
    exact .pure ⟨_, .name hword, by simp [BoundName.seen, BoundName.isSeen, hne, Pattern.names]⟩
  · rename_i hrole
    exact .pure ⟨_, .place (.refl _) (hmember hrole), rfl⟩
  -- the word `undefined` is a place as well, and no name is seen
  · rename_i hrole
    exact .pure ⟨_, .name (hspelled.2 hrole), rfl⟩
  · exact .fail

theorem pattern_binding (hg : g.IsFaithful)
    (hbrackets : ∀ {c : Cursor}, (destructuring g).Ensures c fun p d => Binding .brackets c d p.names) :
    (pattern g).Ensures c fun p d => Binding (.ofPattern c.skipMarkup.rest) c d p.names := by
  have hstart : c.skipMarkup.skip.rest = c.skipMarkup.rest := by rw [Cursor.skip_skipMarkup]
  have hbehind := c.behind_skipMarkup
  refine skipMarkup_bind (optional_bind (fun d hdots hd => ?_) fun hdots => ?_) <;>
    rw [hstart] at hdots
  · refine (target_binding hg hbrackets).bind fun p e ⟨bs, hbs, hp⟩ => .pure ⟨bs, ?_, hp⟩
    rw [Form.ofPattern, if_pos hdots]
    exact (Introduces.spread (Form.ofTarget_mem _) hd hbs).of_behind hbehind
  · refine (target_binding hg hbrackets).mono fun p e hp => ?_
    rw [Form.ofPattern, if_neg (by rw [hdots]; decide), ← hstart]
    exact Binding.of_behind hbehind hp

theorem patternItem_binding (hg : g.IsFaithful) :
    (patternItem g).Ensures c fun p d => Binding .element c d p.names := by
  refine hg.pattern.bind fun p d ⟨bs, hbs, hp⟩ => peeks_isAssignAhead.bind fun _ => ?_
  refine .ite (fun _ => value_bind hg fun n e he => .pure ?_) fun _ => .pure ?_
  · exact ⟨bs, .element (Form.ofPattern_mem _) hbs (.inr he), hp⟩
  · exact ⟨bs, .element (Form.ofPattern_mem _) hbs (.inl rfl), hp⟩

theorem nestedMember_binding (hg : g.IsFaithful)
    (h : Form.ofPattern c.skipMarkup.rest = .brackets) :
    (nestedMember g).Ensures c fun p d => Binding .member c d p.names := by
  refine hg.pattern.bind fun p d ⟨bs, hbs, hp⟩ => value_bind hg fun n e he => .pure ?_
  rw [h] at hbs
  exact ⟨bs, .memberBrackets hbs he, hp⟩

theorem namedMember_binding (hg : g.IsFaithful) :
    (namedMember g).Ensures c fun p d => Binding .member c d p.names := by
  refine (propertyName_ensures hg).bind fun name d ⟨hkey, hword⟩ => ahead_bind ?_
  split
  · refine symbol_token.bind fun _ e he => ?_
    refine (patternItem_binding hg).bind fun p i ⟨bs, hbs, hp⟩ => .pure ?_
    exact ⟨bs, .memberKey hkey he hbs, hp⟩
  · exact value_bind hg fun n e he => .pure ⟨_, .memberName (hword _ rfl) (.inr he), rfl⟩
  · exact .pure ⟨_, .memberName (hword _ rfl) (.inl rfl), rfl⟩
  · exact .fail

theorem patternMember_binding (hg : g.IsFaithful) :
    (patternMember g).Ensures c fun p d => Binding .member c d p.names := by
  -- the form of a pattern is told behind comments in the form of markup, and none of them is here
  have hstart {x : Char} {cs : List Char} (hcs : c.skip.rest = x :: cs) (hx : x ∉ ['<', '-']) :
      c.skipMarkup.rest = x :: cs := by
    rw [Cursor.skipMarkup_eq_skip, hcs]
    simp only [List.mem_cons, List.not_mem_nil, or_false, not_or] at hx
    simp [hcs, opensMarkupComment, startsWith, after?, Ne.symm hx.1, Ne.symm hx.2]
  refine ahead_bind ?_
  split
  · rename_i hcs
    refine hg.pattern.mono fun p d hp => ?_
    obtain ⟨bs, hbs, hp⟩ := hp
    rw [hstart hcs (by decide)] at hbs
    exact ⟨bs, .memberSpread hbs, hp⟩
  · rename_i hcs
    exact nestedMember_binding hg (by rw [hstart hcs (by decide)]; rfl)
  · rename_i hcs
    refine .orElse (namedMember_binding hg) (nestedMember_binding hg ?_)
    rw [hstart hcs (by decide)]
    rfl
  · exact namedMember_binding hg

/-- The items of a pattern up to its closing bracket. -/
theorem listTo_binding {b : Bracket} {item : Parser Pattern}
    (hitem : ∀ {c : Cursor}, item.Ensures c fun p d => Binding b.item c d p.names) {n : ℕ} :
    (listTo b.closing item n).Ensures c fun ps d => Binding (.items b) c d (Pattern.namesOf ps) := by
  induction n generalizing c with
  | zero => exact .fail
  | succ n ih =>
    refine skipMarkup_bind (Ensures.mono (P := fun ps d =>
      Binding (.items b) c.skipMarkup d (Pattern.namesOf ps)) ?_ fun ps d hd =>
        Binding.of_behind c.behind_skipMarkup hd)
    refine optional_bind (fun d _ hd => .pure ⟨[], .close hd, rfl⟩) fun _ => ?_
    refine optional_bind (fun d _ hd => ?_) fun _ => ?_
    · exact ih.mono fun ps e ⟨bs, hbs, hps⟩ => ⟨bs, .hole hd hbs, hps⟩
    refine hitem.bind fun p d ⟨bs, hbs, hp⟩ => optional_bind (fun e _ he => ?_) fun _ => ?_
    · refine ih.bind fun ps i ⟨bs', hbs', hps⟩ => .pure ⟨bs ++ bs', .item hbs he hbs', ?_⟩
      rw [Pattern.namesOf, hp, hps, BoundName.seen_append]
    · refine symbol_token.bind fun _ e he => .pure ⟨bs, .last hbs he, ?_⟩
      rw [Pattern.namesOf, Pattern.namesOf, List.append_nil, hp]

theorem destructuring_binding (hg : g.IsFaithful) :
    (destructuring g).Ensures c fun p d => Binding .brackets c d p.names := by
  refine (peeks_isAhead _).bind fun _ => .ite (fun _ => ?_) fun _ => ?_
  · refine symbol_token.bind fun _ d hd => ?_
    refine (listTo_binding (b := .brace) (patternMember_binding hg)).bind fun ps e ⟨bs, hbs, hps⟩ => ?_
    exact .pure ⟨bs, .brackets (b := .brace) hd hbs, hps⟩
  · refine symbol_token.bind fun _ d hd => ?_
    refine (listTo_binding (b := .square) (patternItem_binding hg)).bind fun ps e ⟨bs, hbs, hps⟩ => ?_
    exact .pure ⟨bs, .brackets (b := .square) hd hbs, hps⟩

end Syntax

namespace Grammar

theorem isFaithful_of_pattern {depth : ℕ} (h : ∀ {c : Cursor}, (ofDepth depth).pattern.Ensures c
    fun p d => Binding (.ofPattern c.skipMarkup.rest) c d p.names) : (ofDepth depth).IsFaithful where
  expression {_ c} := fun n d h => ⟨depth, c.pos, n, d.pos, h⟩
  reference {c} := fun ⟨node, role⟩ d h hrole => by
    obtain rfl : role = .member := hrole
    exact ⟨depth, c.pos, node, d.pos, h⟩
  pattern := h

theorem ofDepth_isFaithful (depth : ℕ) : (ofDepth depth).IsFaithful := by
  induction depth with
  | zero => exact isFaithful_of_pattern .fail
  | succ depth ih =>
    exact isFaithful_of_pattern (Syntax.pattern_binding ih (Syntax.destructuring_binding ih))

end Grammar
end Bundler.JavaScript
