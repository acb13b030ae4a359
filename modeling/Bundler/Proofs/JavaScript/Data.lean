import Bundler.Proofs.JavaScript.Takes
import Bundler.Proofs.Json.Text

/-! The text of a JSON value is an expression without calls. -/
namespace Bundler.JavaScript.Syntax
open Bundler.JavaScript.Parser

variable {g : Grammar} {cx : Context} {cs t r : List Char}

/-! ### What stands around a value -/

/-- What follows a value: a comma, the end of a list or an object, or the end of its statement. -/
inductive Ends : List Char → Prop
  | comma (cs : List Char) : Ends (',' :: cs)
  | bracket (cs : List Char) : Ends (']' :: cs)
  | brace (cs : List Char) : Ends ('}' :: cs)
  | semicolon (cs : List Char) : Ends (';' :: cs)

/-- No operator stands in front of what comes next, and if that is a word, it is one of these. -/
structure Plain (cs : List Char) : Prop where
  solid : Solid cs
  head : ∀ c ∈ cs.head?, c ∉ ['!', '~', '+', '-', '#', '(', ',', ']', '}', '.']
  word : ∀ w ∈ word? cs, String.ofList w ∈ ["null", "true", "false", "module"]

/-- None of the characters that stand between values comes next. -/
structure Opens (cs : List Char) : Prop where
  solid : Solid cs
  head : ∀ c ∈ cs.head?, c ∉ [',', ']', '}', '.']

/-- The words that are values. -/
inductive Constant : String → Prop
  | null : Constant "null"
  | true : Constant "true"
  | false : Constant "false"

theorem Constant.mem {w : String} (hw : Constant w) : w ∈ ["null", "true", "false"] := by
  cases hw <;> decide

namespace Ends

variable (h : Ends r)
include h

theorem solid : Solid r := by cases h <;> exact ⟨fun _ => rfl, fun _ => rfl⟩

theorem numberEnds : NumberEnds r := by cases h <;> rintro _ ⟨⟩ <;> decide

theorem sees_isAssignAhead : Sees isAssignAhead r false := by cases h <;> exact fun _ => rfl

theorem sees_isTernaryAhead : Sees isTernaryAhead r false := by cases h <;> exact fun _ => rfl

theorem augmentedLength? : augmentedLength? r = none := by cases h <;> rfl

theorem binaryLength? : binaryLength? cx r = none := by cases h <;> rfl

theorem startsWith_arrow : startsWith "=>".toList r = false := by cases h <;> rfl

theorem word? {w : String} (hw : Constant w) : word? (w.toList ++ r) = some w.toList := by
  cases hw <;> cases h <;> rfl

/-- Nothing that follows belongs to the operand. -/
theorem sees_postfix {n : ℕ} (hn : 0 < n) (o : Operand) : Sees (postfix_ g cx true n o) r o := by
  obtain ⟨n, rfl⟩ := Nat.exists_eq_add_one.2 hn
  cases h <;> exact fun _ => rfl

end Ends

namespace Plain

theorem wordAhead_ne (h : Plain cs) {s : String} (hs : s ∉ ["null", "true", "false", "module"]) :
    (word? cs).map String.ofList ≠ some s := by
  intro heq
  obtain ⟨w, hw, rfl⟩ := Option.map_eq_some_iff.1 heq
  exact hs (h.word w hw)

theorem opens (h : Plain cs) : Opens cs :=
  ⟨h.solid, fun c hc hmem => h.head c hc (by simp_all)⟩

theorem cons {c : Char}
    (hc : c ∈ ['"', '[', '{', '0', '1', '2', '3', '4', '5', '6', '7', '8', '9']) : Plain (c :: cs) := by
  simp only [List.mem_cons, List.not_mem_nil, or_false] at hc
  rcases hc with rfl | rfl | rfl | rfl | rfl | rfl | rfl | rfl | rfl | rfl | rfl | rfl | rfl <;>
    refine ⟨⟨fun _ => rfl, fun _ => rfl⟩, ?_, ?_⟩ <;> rintro _ ⟨⟩ <;> decide

theorem numeral (n : Json.Numeral) : Plain (n.text ++ r) := by
  obtain ⟨c, cs, htext, hc⟩ := n.exists_text_cons
  rw [htext, List.cons_append]
  exact cons (List.mem_cons_of_mem _ (List.mem_cons_of_mem _ (List.mem_cons_of_mem _
    (isDigit_cases hc))))

theorem constant {w : String} (hw : Constant w) (hr : Ends r) : Plain (w.toList ++ r) := by
  have hword := hr.word? hw
  refine ⟨?_, ?_, ?_⟩
  · cases hw <;> exact ⟨fun _ => rfl, fun _ => rfl⟩
  · cases hw <;> rintro _ ⟨⟩ <;> decide
  · rw [hword]
    rintro _ ⟨⟩
    cases hw <;> decide

end Plain

namespace Opens

theorem startsWith {p : Char} {ps : List Char} (h : Opens cs) (hp : p ∈ [',', ']', '}', '.']) :
    startsWith (p :: ps) cs = false := startsWith_of_head fun hc => h.head p hc hp

theorem negative (n : Json.Numeral) : Opens ('-' :: n.text ++ r) := by
  obtain ⟨c, cs, htext, hc⟩ := n.exists_text_cons
  have hmem := isDigit_cases hc
  rw [htext]
  simp only [List.mem_cons, List.not_mem_nil, or_false] at hmem
  rcases hmem with rfl | rfl | rfl | rfl | rfl | rfl | rfl | rfl | rfl | rfl <;>
    refine ⟨⟨fun _ => rfl, fun _ => rfl⟩, ?_⟩ <;> rintro _ ⟨⟩ <;> decide

theorem number (h : Json.IsNumber t) : Opens (t ++ r) := by
  obtain ⟨n, rfl | rfl⟩ := h
  · exact (Plain.numeral n).opens
  · exact negative n

theorem text (v : Json) (hr : Ends r) : Opens (v.text ++ r) := by
  cases v with
  | null => exact (Plain.constant .null hr).opens
  | bool b =>
    cases b
    · exact (Plain.constant .false hr).opens
    · exact (Plain.constant .true hr).opens
  | integer n => exact number (Json.isNumber_integerText n)
  | decimal x =>
    rcases Json.decimalText_cases x with h | h
    · rw [Json.text, h]
      exact (Plain.constant .null hr).opens
    · exact number h
  | string s => exact (Plain.cons (by decide)).opens
  | array vs => exact (Plain.cons (by decide)).opens
  | object ms => exact (Plain.cons (by decide)).opens

end Opens

/-! ### From the operand to the expression -/

/-- An operand without calls that cannot be assigned to. -/
def Inert (o : Operand) : Prop := o.node.calls = [] ∧ o.role = .primary

theorem refuses_asyncArrow (h : Plain cs) : Refuses (asyncArrow g cx) cs :=
  fun pos => (h.solid.refuses_keyword (h.wordAhead_ne (by decide))).bind pos

theorem literalOrPattern_takes (hr : Ends r) (h : Takes (primary g) t r Inert) :
    Takes (literalOrPattern g) t r Inert := by
  refine .cursor fun c _ => .orElse_left (h.before fun o ho => ?_)
  exact .look hr.sees_isAssignAhead (.pure ho)

theorem chained_takes (hplain : Plain (t ++ r)) (hr : Ends r) (hg : 0 < g.bound)
    (h : Takes (primary g) t r Inert) : Takes (chained g cx) t r Inert := by
  have hmore (o : Operand) (ho : Inert o) : Takes (postfix_ g cx true g.bound o) [] r Inert :=
    fun pos => ⟨o, pos, hr.sees_postfix hg o pos, ho⟩
  refine .look hplain.solid.sees_skipMarkup (.cursor fun c hc => ?_)
  rw [hc]
  split
  · rename_i heq
    exact absurd (hplain.head '(' (by rw [heq]; rfl)) (by decide)
  · exact (literalOrPattern_takes hr h).before hmore
  · exact (literalOrPattern_takes hr h).before hmore
  · refine .before (.orElse_right (refuses_asyncArrow hplain) h) fun o ho => ?_
    split
    · refine .look hr.solid.sees_isAhead ?_
      rw [hr.startsWith_arrow]
      exact hmore o ho
    · exact hmore o ho

theorem assigned_takes (hr : Ends r) (h : Takes (chained g cx) t r Inert) :
    Takes (assigned g cx) t r fun m => m.calls = [] := by
  refine h.before fun o ⟨hcalls, _⟩ => .look hr.sees_isAssignAhead ?_
  rw [Bool.and_false]
  refine .look hr.solid.sees_ahead ?_
  rw [hr.augmentedLength?]
  exact .pure hcalls

theorem operand_takes (hplain : Plain (t ++ r)) {Q : Node → Prop} (h : Takes (assigned g cx) t r Q) :
    Takes (operand g cx) t r Q := by
  refine .look hplain.solid.sees_skipMarkup (.cursor fun c hc => ?_)
  rw [hc]
  have hhead {c : Char} {cs : List Char} (hcs : t ++ r = c :: cs) :
      c ∉ ['!', '~', '+', '-', '#', '(', ',', ']', '}', '.'] := hplain.head c (by rw [hcs]; rfl)
  split
  iterate 7
    rename_i heq
    exact absurd (hhead heq) (by decide)
  refine .look hplain.solid.sees_wordAhead ?_
  split
  · rename_i heq
    exact absurd heq (hplain.wordAhead_ne (by decide))
  · rename_i w _ heq
    obtain ⟨w, hw, rfl⟩ := Option.map_eq_some_iff.1 heq
    have hmem := hplain.word w hw
    simp only [List.mem_cons, List.not_mem_nil, or_false] at hmem
    rcases hmem with hw | hw | hw | hw <;> rw [hw] <;> exact h
  · exact h

theorem expression_takes {Q : Node → Prop} (hr : Ends r) (h : Takes (operand g cx) t r Q) :
    Takes (expression g cx) t r Q := by
  refine h.before fun m hm => .look hr.solid.sees_ahead ?_
  rw [hr.binaryLength?]
  exact .look hr.sees_isTernaryAhead (.pure hm)

/-! ### Words, strings and numbers -/

theorem primary_string (s : List Char) : Takes (primary g) (Json.literal s) r Inert := by
  have hsolid : Solid (Json.literal s ++ r) := ⟨fun _ => rfl, fun _ => rfl⟩
  refine .look hsolid.sees_skipMarkup (.cursor fun c hc => ?_)
  rw [hc]
  exact (string_takes s).before fun l _ => .pure ⟨rfl, rfl⟩

theorem ended_takes (start : ℕ) {ns : List Node} (h : Node.callsOf ns = []) :
    Takes (ended start ns .primary) [] r Inert := fun pos => ⟨_, pos, rfl, h, rfl⟩

theorem primary_number (n : Json.Numeral) (hr : Ends r) : Takes (primary g) n.text r Inert := by
  obtain ⟨c, cs, htext, hc⟩ := n.exists_text_cons
  have hcs : n.text ++ r = c :: (cs ++ r) := by rw [htext]; rfl
  have hlength : 0 < numberLength (n.text ++ r) := by
    rw [numberLength_append n hr.numberEnds, htext]
    exact Nat.succ_pos _
  have hsolid : Solid (n.text ++ r) := (Plain.numeral n).solid
  refine .look hsolid.sees_skipMarkup (.cursor fun d hd => ?_)
  rw [hd]
  split
  iterate 9
    rename_i heq
    rw [hcs] at heq
    rw [(List.cons.inj heq).1] at hc
    exact absurd hc (by decide)
  rw [if_pos hlength]
  exact (number_takes n hr.numberEnds hsolid).before fun _ _ => ended_takes d.pos rfl

theorem wordOperand_takes {w : String} (hw : Constant w) (hr : Ends r) :
    Takes (wordOperand g) w.toList r Inert := by
  have hsolid := (Plain.constant hw hr).solid
  have hword := hr.word? hw
  refine .cursor fun c _ => .look hsolid.sees_wordAhead ?_
  rw [hword, Option.map_some, String.ofList_toList]
  split
  iterate 6
    rename_i heq
    rw [Option.some.inj heq] at hw
    exact absurd hw.mem (by decide)
  · rename_i heq
    obtain rfl := Option.some.inj heq
    have hlist : ["this", "super", "true", "false", "null"].contains w = true := by
      cases hw <;> decide
    rw [if_pos hlist]
    exact (word_takes hsolid hword).before fun _ _ => ended_takes c.pos rfl
  · rename_i heq
    cases heq

theorem primary_of_word {Q : Operand → Prop} (hsolid : Solid (t ++ r))
    (hhead : ∀ c ∈ (t ++ r).head?, c ∉ ['(', '[', '{', '"', '\x27', '\x60', '/', '@', '<'])
    (hnumber : numberLength (t ++ r) = 0) (h : Takes (wordOperand g) t r Q) :
    Takes (primary g) t r Q := by
  refine .look hsolid.sees_skipMarkup (.cursor fun c hc => ?_)
  rw [hc]
  split
  iterate 9
    rename_i heq
    exact absurd (hhead _ (by rw [heq]; rfl)) (by decide)
  rw [hnumber]
  exact h

theorem primary_constant {w : String} (hw : Constant w) (hr : Ends r) :
    Takes (primary g) w.toList r Inert := by
  refine primary_of_word (Plain.constant hw hr).solid ?_ ?_ (wordOperand_takes hw hr)
  · cases hw <;> rintro _ ⟨⟩ <;> decide
  · cases hw <;> rfl

/-! ### Lists and objects -/

section ListTo

variable {α : Type} {close : String} {item : Parser α} {Q : α → Prop} {n : ℕ}
  (hclose : close ∈ ["]", "\x7d"])
include hclose

/-- An item is read before anything else is. -/
theorem listTo_cons {ds : List Char} {R : List α → Prop} (hopens : Opens (t ++ (ds ++ r)))
    (hitem : Takes item t (ds ++ r) Q)
    (hrest : ∀ a, Q a → Takes (do
      if ← optional "," then return a :: (← listTo close item n)
      symbol close
      return [a]) ds r R) : Takes (listTo close item (n + 1)) (t ++ ds) r R := by
  have hstart : startsWith close.toList (t ++ (ds ++ r)) = false := by
    simp only [List.mem_cons, List.not_mem_nil, or_false] at hclose
    rcases hclose with rfl | rfl <;> exact hopens.startsWith (by decide)
  rw [← List.append_assoc] at hopens hstart
  refine .look hopens.solid.sees_skipMarkup (.look (hopens.solid.sees_optional hstart) ?_)
  refine .look (hopens.solid.sees_optional (hopens.startsWith (by decide))) ?_
  exact hitem.bind hrest

/-- Items between commas are taken one after the other. -/
theorem listTo_takes {ts : List (List Char)}
    (hitem : ∀ t ∈ ts, ∀ r, Ends r → Opens (t ++ r) ∧ Takes item t r Q) (hn : ts.length < n) :
    Takes (listTo close item n) ([','].intercalate ts ++ close.toList) r fun as => ∀ a ∈ as, Q a := by
  obtain ⟨hends, hcomma⟩ : Ends (close.toList ++ r) ∧
      startsWith ",".toList (close.toList ++ r) = false := by
    simp only [List.mem_cons, List.not_mem_nil, or_false] at hclose
    rcases hclose with rfl | rfl
    · exact ⟨.bracket r, rfl⟩
    · exact ⟨.brace r, rfl⟩
  obtain ⟨n, rfl⟩ := Nat.exists_eq_add_one.2 (Nat.zero_lt_of_lt hn)
  induction ts generalizing n with
  | nil =>
    refine .look hends.solid.sees_skipMarkup ((optional_takes hends.solid).before fun b hb => ?_)
    rw [hb]
    exact .pure (by simp)
  | cons t ts ih =>
    have hfirst := hitem t (List.mem_cons_self ..)
    cases ts with
    | nil =>
      obtain ⟨hopens, htake⟩ := hfirst _ hends
      rw [List.intercalate_singleton]
      refine listTo_cons hclose hopens htake fun a ha => .look (hends.solid.sees_optional hcomma) ?_
      exact (symbol_takes hends.solid).before fun _ _ => .pure (by simpa using ha)
    | cons u us =>
      have hlater : Ends (',' :: ([','].intercalate (u :: us) ++ close.toList) ++ r) := .comma _
      obtain ⟨hopens, htake⟩ := hfirst _ hlater
      obtain ⟨n, rfl⟩ := Nat.exists_eq_add_one.2 (Nat.zero_lt_of_lt (Nat.lt_of_succ_lt_succ hn))
      have hrec := ih (fun t ht => hitem t (List.mem_cons_of_mem _ ht)) n (Nat.lt_of_succ_lt_succ hn)
      rw [List.intercalate_cons_cons, List.append_assoc, List.append_assoc]
      refine listTo_cons hclose hopens htake fun a ha => ?_
      change Takes _ (",".toList ++ ([','].intercalate (u :: us) ++ close.toList)) r _
      refine (optional_takes hlater.solid).bind fun b hb => ?_
      rw [hb]
      exact hrec.before fun as has => .pure (by simpa using ⟨ha, has⟩)

end ListTo

/-- Expressions without calls. -/
def TakesValue (p : Context → Parser Node) (t : List Char) : Prop :=
  ∀ cx r, Ends r → Takes (p cx) t r fun m => m.calls = []

theorem callsOf_eq_nil {ns : List Node} (h : ∀ m ∈ ns, m.calls = []) : Node.callsOf ns = [] := by
  induction ns with
  | nil => rfl
  | cons m ns ih =>
    rw [Node.callsOf, h m (List.mem_cons_self ..), List.nil_append]
    exact ih fun m hm => h m (List.mem_cons_of_mem _ hm)

theorem primary_array {ts : List (List Char)} (hopens : ∀ t ∈ ts, ∀ r, Ends r → Opens (t ++ r))
    (hvalue : ∀ t ∈ ts, TakesValue g.expression t) (hn : ts.length < g.bound) :
    Takes (primary g) ('[' :: [','].intercalate ts ++ [']']) r Inert := by
  have hsolid : Solid ('[' :: [','].intercalate ts ++ [']'] ++ r) := ⟨fun _ => rfl, fun _ => rfl⟩
  have hitem (t : List Char) (ht : t ∈ ts) (r : List Char) (hr : Ends r) :
      Opens (t ++ r) ∧ Takes (arrayLiteral.item g) t r fun m => m.calls = [] := by
    have h := hopens t ht r hr
    exact ⟨h, .look (h.solid.sees_optional (h.startsWith (by decide))) (hvalue t ht .inner r hr)⟩
  have hlist : Takes (arrayLiteral g) ("[".toList ++ ([','].intercalate ts ++ "]".toList)) r
      fun ms => ∀ m ∈ ms, m.calls = [] :=
    (symbol_takes hsolid).bind fun _ _ => listTo_takes (by decide) hitem hn
  refine .look hsolid.sees_skipMarkup (.cursor fun c hc => ?_)
  rw [hc]
  exact hlist.before fun ms hms => ended_takes c.pos (callsOf_eq_nil hms)

theorem propertyName_takes (s : List Char) :
    Takes (propertyName g) (Json.literal s) r fun name => name.parts = [] := by
  have hsolid : Solid (Json.literal s ++ r) := ⟨fun _ => rfl, fun _ => rfl⟩
  refine .look hsolid.sees_skipMarkup (.cursor fun c hc => ?_)
  rw [hc]
  exact (string_takes s).before fun _ _ => .pure rfl

theorem objectMember_takes (s : List Char) (hvalue : TakesValue g.expression t) (hr : Ends r)
    (hg : 0 < g.bound) :
    Takes (objectMember g) (Json.literal s ++ ':' :: t) r fun ms => ∀ m ∈ ms, m.calls = [] := by
  have hdecorators : Sees (decorators g) (Json.literal s ++ ':' :: t ++ r) [] := by
    obtain ⟨n, hn⟩ := Nat.exists_eq_add_one.2 hg
    intro pos
    rw [decorators, hn]
    rfl
  refine .look (fun _ => rfl) (.look hdecorators (.look (fun _ => rfl) ?_))
  refine (propertyName_takes s).bind fun name hname => ?_
  have hsolid : Solid (':' :: t ++ r) := ⟨fun _ => rfl, fun _ => rfl⟩
  refine .look hsolid.sees_ahead ?_
  change Takes _ (":".toList ++ t) r _
  refine (symbol_takes hsolid).bind fun _ _ => ?_
  refine (hvalue .inner r hr).before fun m hm => .pure ?_
  rw [hname]
  simpa using hm

theorem primary_object {ms : List (List Char × List Char)}
    (hvalue : ∀ m ∈ ms, TakesValue g.expression m.2) (hn : ms.length < g.bound) :
    Takes (primary g) ('{' :: [','].intercalate (ms.map Json.memberText) ++ ['}']) r Inert := by
  have hsolid : Solid ('{' :: [','].intercalate (ms.map Json.memberText) ++ ['}'] ++ r) :=
    ⟨fun _ => rfl, fun _ => rfl⟩
  have hitem (t : List Char) (ht : t ∈ ms.map Json.memberText) (r : List Char) (hr : Ends r) :
      Opens (t ++ r) ∧ Takes (objectMember g) t r fun ms => ∀ m ∈ ms, m.calls = [] := by
    obtain ⟨m, hm, rfl⟩ := List.mem_map.1 ht
    refine ⟨⟨⟨fun _ => rfl, fun _ => rfl⟩, ?_⟩, ?_⟩
    · rintro _ ⟨⟩
      decide
    · exact objectMember_takes m.1 (hvalue m hm) hr (Nat.zero_lt_of_lt hn)
  have hlist : Takes (objectLiteral g)
      ("\x7b".toList ++ ([','].intercalate (ms.map Json.memberText) ++ "\x7d".toList)) r
      fun ms => ∀ m ∈ ms, m.calls = [] := by
    refine (symbol_takes hsolid).bind fun _ _ => ?_
    refine (listTo_takes (by decide) hitem (by simpa using hn)).before fun mss hmss => .pure ?_
    intro m hm
    obtain ⟨ms, hms, hm⟩ := List.mem_flatten.1 hm
    exact hmss ms hms m hm
  refine .look hsolid.sees_skipMarkup (.cursor fun c hc => ?_)
  rw [hc]
  exact hlist.before fun ms hms => ended_takes c.pos (callsOf_eq_nil hms)

/-! ### Values -/

theorem operand_of_primary (hr : Ends r) (hplain : Plain (t ++ r)) (hg : 0 < g.bound)
    (h : Takes (primary g) t r Inert) : Takes (operand g cx) t r fun m => m.calls = [] :=
  operand_takes hplain (assigned_takes hr (chained_takes hplain hr hg h))

theorem takesValue_of_primary (hplain : ∀ r, Ends r → Plain (t ++ r)) (hg : 0 < g.bound)
    (h : ∀ r, Ends r → Takes (primary g) t r Inert) : TakesValue (expression g) t :=
  fun _ r hr => expression_takes hr (operand_of_primary hr (hplain r hr) hg (h r hr))

theorem operand_negative {n : Json.Numeral}
    (h : Takes (g.operand cx) n.text r fun m => m.calls = []) :
    Takes (operand g cx) ('-' :: n.text) r fun m => m.calls = [] := by
  obtain ⟨c, cs, htext, hc⟩ := n.exists_text_cons
  have hsolid : Solid ('-' :: n.text ++ r) := (Opens.negative n).solid
  refine .look hsolid.sees_skipMarkup (.cursor fun d hd => ?_)
  have hprefixed : Takes (prefixed g cx 1) ('-' :: n.text) r fun m => m.calls = [] := by
    refine .piece (.look hsolid.sees_skip ?_)
    change Takes _ (['-'] ++ n.text) r _
    refine (take_takes ['-'] (n.text ++ r)).bind fun _ _ => h.before fun m hm => .pure ?_
    rw [Node.callsOf, hm]
    rfl
  rw [htext] at hprefixed
  rw [hd, htext]
  dsimp only [List.cons_append]
  split
  case h_4 heq =>
    cases heq
    cases hc
  case h_6 => exact hprefixed
  case h_8 hminus _ => exact absurd rfl (hminus (c :: (cs ++ r)))
  all_goals
    rename_i heq
    cases heq

@[simp] theorem bound_ofDepth (n : ℕ) : (Grammar.ofDepth n).bound = n := by
  induction n with
  | zero => rfl
  | succ n ih => exact congrArg (· + 1) ih

theorem takesValue_number {cs : List Char} {n : ℕ} (h : Json.IsNumber cs) (hn : cs.length < n) :
    TakesValue (Grammar.ofDepth n).expression cs := by
  obtain ⟨n, rfl⟩ := Nat.exists_eq_add_one.2 (Nat.zero_lt_of_lt hn)
  have hbound (n : ℕ) (hn : 0 < n) : 0 < (Grammar.ofDepth n).bound := by rwa [bound_ofDepth]
  obtain ⟨m, hcs⟩ := h
  have hlength : 0 < m.text.length := by
    obtain ⟨c, ds, htext, -⟩ := m.exists_text_cons
    rw [htext]
    exact Nat.succ_pos _
  rcases hcs with rfl | rfl
  · exact takesValue_of_primary (fun r _ => Plain.numeral m) (hbound n (by omega))
      fun r hr => primary_number m hr
  · rw [List.length_cons] at hn
    obtain ⟨n, rfl⟩ := Nat.exists_eq_add_one_of_ne_zero (show n ≠ 0 by omega)
    exact fun cx r hr => expression_takes hr (operand_negative (operand_of_primary hr
      (Plain.numeral m) (hbound n (by omega)) (primary_number m hr)))

theorem takesValue_constant {w : String} (hw : Constant w) {n : ℕ} (hn : w.toList.length < n) :
    TakesValue (Grammar.ofDepth n).expression w.toList := by
  have hpos : 0 < w.toList.length := by cases hw <;> decide
  obtain ⟨n, rfl⟩ := Nat.exists_eq_add_one.2 (Nat.zero_lt_of_lt hn)
  refine takesValue_of_primary (fun r => Plain.constant hw) ?_ fun r => primary_constant hw
  rw [bound_ofDepth]
  omega

/-- The text of a value is an expression without calls, at any level that is deep enough. -/
theorem takesValue_text (v : Json) {n : ℕ} (hn : v.text.length < n) :
    TakesValue (Grammar.ofDepth n).expression v.text := by
  induction v using Json.inductionOn generalizing n with
  | null => exact takesValue_constant .null hn
  | bool b =>
    cases b with
    | true => exact takesValue_constant .true hn
    | false => exact takesValue_constant .false hn
  | integer k => exact takesValue_number (Json.isNumber_integerText k) hn
  | decimal x =>
    rcases Json.decimalText_cases x with h | h
    · rw [Json.text, h] at hn ⊢
      exact takesValue_constant .null hn
    · exact takesValue_number h hn
  | string s =>
    obtain ⟨n, rfl⟩ := Nat.exists_eq_add_one.2 (Nat.zero_lt_of_lt hn)
    refine takesValue_of_primary (fun r _ => Plain.cons (by decide)) ?_ fun r _ => primary_string _
    rw [bound_ofDepth]
    simp only [Json.text, Json.literal, List.length_append, List.length_cons] at hn
    omega
  | array vs ih =>
    obtain ⟨n, rfl⟩ := Nat.exists_eq_add_one.2 (Nat.zero_lt_of_lt hn)
    simp only [Json.text, List.length_append, List.length_cons] at hn
    have hcount := Json.length_le_itemsText vs
    have hvalue : ∀ t ∈ vs.map Json.text, TakesValue (Grammar.ofDepth n).expression t := by
      intro t ht
      obtain ⟨v, hv, rfl⟩ := List.mem_map.1 ht
      have := Json.length_text_le hv
      exact ih v hv (by omega)
    have hopens : ∀ t ∈ vs.map Json.text, ∀ r, Ends r → Opens (t ++ r) := by
      intro t ht r hr
      obtain ⟨v, -, rfl⟩ := List.mem_map.1 ht
      exact Opens.text v hr
    refine takesValue_of_primary (fun r _ => Plain.cons (by decide)) ?_ fun r _ => ?_
    · rw [bound_ofDepth]
      omega
    · rw [Json.text, Json.itemsText_eq]
      refine primary_array hopens hvalue ?_
      rw [bound_ofDepth, List.length_map]
      omega
  | object ms ih =>
    obtain ⟨n, rfl⟩ := Nat.exists_eq_add_one.2 (Nat.zero_lt_of_lt hn)
    simp only [Json.text, List.length_append, List.length_cons] at hn
    have hcount := Json.length_le_membersText ms
    have hvalue : ∀ m ∈ ms.map fun m => (m.1.toList, m.2.text),
        TakesValue (Grammar.ofDepth n).expression m.2 := by
      intro t ht
      obtain ⟨m, hm, rfl⟩ := List.mem_map.1 ht
      have := Json.length_member_le hm
      exact ih m hm (by omega)
    refine takesValue_of_primary (fun r _ => Plain.cons (by decide)) ?_ fun r _ => ?_
    · rw [bound_ofDepth]
      omega
    · rw [Json.text, Json.membersText_eq]
      refine primary_object hvalue ?_
      rw [bound_ofDepth, List.length_map]
      omega

end Bundler.JavaScript.Syntax
