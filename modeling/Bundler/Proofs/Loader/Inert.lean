import Bundler.Loader.Builtin
import Bundler.Proofs.JavaScript.Data
import Bundler.Proofs.JavaScript.Prelude
import Bundler.Proofs.Rewrite

/-! Modules that are made of data. What the loaders of data write is one assignment, whose value is
read without calls whatever the data is. So a module of data is rewritten to itself and loads
nothing. -/
namespace Bundler

namespace JavaScript

namespace Syntax

open Bundler.JavaScript.Parser

variable {g : Grammar} {cx : Context} {cs t r : List Char}

/-! ### The target -/

theorem word?_module : word? ("module".toList ++ '.' :: cs) = some "module".toList := rfl

theorem plain_module : Plain ("module".toList ++ '.' :: cs) := by
  refine ⟨⟨fun _ => rfl, fun _ => rfl⟩, ?_, ?_⟩
  · rintro _ ⟨⟩
    decide
  · rw [word?_module]
    rintro _ ⟨⟩
    decide

theorem wordOperand_module : Takes (wordOperand g) "module".toList ('.' :: cs)
    fun o => ∃ w, o = ⟨.name w, .name⟩ := by
  refine .cursor fun c _ => .look plain_module.solid.sees_wordAhead ?_
  rw [word?_module, Option.map_some, String.ofList_toList]
  split
  iterate 6
    rename_i heq
    exact absurd heq (by decide)
  · rename_i w _ _ _ _ _ _ heq
    obtain rfl := Option.some.inj heq
    rw [if_neg (by decide), if_neg (by decide)]
    exact (word_takes plain_module.solid word?_module).before fun w _ => .pure ⟨w, rfl⟩
  · rename_i heq
    cases heq

theorem primary_module : Takes (primary g) "module".toList ('.' :: cs)
    fun o => ∃ w, o = ⟨.name w, .name⟩ := by
  refine primary_of_word plain_module.solid ?_ rfl wordOperand_module
  rintro _ ⟨⟩
  decide

/-- The property behind the name, up to the sign of the assignment. -/
theorem postfix_exports {n : ℕ} (hn : 1 < n) (w : Lexeme) :
    Takes (postfix_ g cx true n ⟨.name w, .name⟩) ('.' :: "exports".toList) (" =".toList ++ cs)
      fun o => o.node.calls = [] ∧ o.role = .member := by
  obtain ⟨n, rfl⟩ := Nat.exists_eq_add_of_le' hn
  have hproperty : Takes property "exports".toList (" =".toList ++ cs) fun _ => True := by
    have hsolid : Solid ("exports".toList ++ (" =".toList ++ cs)) := ⟨fun _ => rfl, fun _ => rfl⟩
    refine .look hsolid.sees_skipMarkup (.look hsolid.sees_isAhead ?_)
    exact (word_takes hsolid rfl).before fun _ _ => .pure trivial
  refine .look (fun _ => rfl) ?_
  change Takes _ (".".toList ++ "exports".toList) _ _
  refine (symbol_takes ⟨fun _ => rfl, fun _ => rfl⟩).bind fun _ _ => hproperty.before fun _ _ => ?_
  exact fun pos => ⟨_, pos, rfl, rfl, rfl⟩

theorem chained_exports (hg : 1 < g.bound) :
    Takes (chained g cx) ("module".toList ++ '.' :: "exports".toList) (" =".toList ++ cs)
      fun o => o.node.calls = [] ∧ o.role = .member := by
  have hname : Takes (orElse (asyncArrow g cx) (primary g)) "module".toList
      ('.' :: "exports".toList ++ (" =".toList ++ cs)) fun o => ∃ w, o = ⟨.name w, .name⟩ :=
    .orElse_right (refuses_asyncArrow plain_module) primary_module
  refine .look (fun _ => rfl) (.cursor fun c hc => ?_)
  rw [hc]
  refine hname.bind fun o ⟨w, ho⟩ => ?_
  rw [ho]
  exact .look (a := false) (fun _ => rfl) (postfix_exports hg w)

/-! ### The assignment -/

/-- A blank in front of an expression is skipped. -/
theorem expression_blank {Q : Node → Prop} (ht : Takes (expression g cx) t r Q) :
    Takes (expression g cx) (' ' :: t) r Q := by
  intro pos
  have hskip : (⟨' ' :: (t ++ r), pos⟩ : Cursor).skipMarkup = (⟨t ++ r, pos + 1⟩ : Cursor).skipMarkup := by
    rw [Cursor.skipMarkup, skipFrom_blank_cons]
    exact skipFrom_start true rfl ..
  obtain ⟨m, stop, hm, hQ⟩ := ht (pos + 1)
  refine ⟨m, stop, ?_, hQ⟩
  rw [← hm]
  exact bind_congr (bind_congr (congrArg (fun c => Except.ok ((), c)) hskip))

/-- The text of the assignment, up to its semicolon. -/
def assignmentText (t : List Char) : List Char :=
  "module".toList ++ '.' :: "exports".toList ++ (" =".toList ++ ' ' :: t)

/-- A node that is neither a string nor a call, with no call inside. -/
def IsQuiet (m : Node) : Prop := ∃ span parts, m = .other span parts ∧ Node.callsOf parts = []

/-- A statement that is no declaration, import, export or directive, with no call inside. -/
def IsQuietStatement (s : Statement) : Prop :=
  ∃ span parts, s = .other span parts ∧ Node.callsOf parts = []

theorem expression_assignment (hg : 1 < g.bound)
    (h : Takes (g.expression cx) (' ' :: t) (';' :: r) fun m => m.calls = []) :
    Takes (expression g cx) (assignmentText t) (';' :: r) IsQuiet := by
  have htarget : Takes (chained g cx) ("module".toList ++ '.' :: "exports".toList)
      (" =".toList ++ ' ' :: t ++ ';' :: r) fun o => o.node.calls = [] ∧ o.role = .member := by
    rw [List.append_assoc]
    exact chained_exports hg
  have hassigned : Takes (assigned g cx) (assignmentText t) (';' :: r) IsQuiet := by
    refine htarget.bind fun o ⟨hcalls, hrole⟩ => .look (a := true) (fun _ => rfl) ?_
    rw [hrole]
    have hsign : Takes (symbol "=") " =".toList (' ' :: t ++ ';' :: r) fun _ => True :=
      fun pos => ⟨(), pos + 2, rfl, trivial⟩
    refine hsign.bind fun _ _ => h.before fun m hm => fun pos => ⟨_, pos, rfl, _, _, rfl, ?_⟩
    simp [Node.callsOf, hcalls, hm]
  have hplain : Plain (assignmentText t ++ ';' :: r) := plain_module
  exact expression_takes (.semicolon r) (operand_takes hplain hassigned)

section Ahead

variable (t) (r)

theorem plain_assignment : Plain (assignmentText t ++ r) := plain_module

theorem word?_assignment : word? (assignmentText t ++ r) = some "module".toList := word?_module

theorem refuses_label : Refuses (do let _ ← word; symbol ":") (assignmentText t ++ r) := by
  have hpoint : Solid ('.' :: "exports".toList ++ (" =".toList ++ ' ' :: t) ++ r) :=
    ⟨fun _ => rfl, fun _ => rfl⟩
  have hword : Takes word "module".toList ('.' :: "exports".toList ++ (" =".toList ++ ' ' :: t) ++ r)
      fun _ => True := word_takes (plain_assignment t r).solid (word?_assignment t r)
  exact hword.refuses fun _ _ => hpoint.refuses_symbol rfl

theorem sees_declaration? : Sees (declaration? g) (assignmentText t ++ r) none := by
  have hplain := plain_assignment t r
  have hclass : Sees isClassDeclarationAhead (assignmentText t ++ r) false :=
    sees_accepts (hplain.solid.refuses_keyword (hplain.wordAhead_ne (by decide))).bind.bind
  refine hplain.solid.sees_skipMarkup.bind (.cursor fun c _ => hplain.solid.sees_wordAhead.bind ?_)
  rw [word?_assignment, Option.map_some, String.ofList_toList]
  split
  iterate 5
    rename_i heq
    exact absurd heq (by decide)
  exact hplain.solid.sees_isAhead.bind (hclass.bind fun _ => rfl)

theorem sees_isExportAhead : Sees isExportAhead (assignmentText t ++ r) false :=
  have hplain := plain_assignment t r
  sees_accepts (hplain.solid.refuses_keyword (hplain.wordAhead_ne (by decide))).bind

end Ahead

/-! ### The statement and the program -/

theorem expressions_takes {Q : Node → Prop} (hg : 0 < g.bound) (hr : Ends r)
    (hcomma : startsWith ",".toList r = false) (h : Takes (g.expression cx) t r Q) :
    Takes (g.expressions cx) t r fun ms => ∃ m, ms = [m] ∧ Q m := by
  obtain ⟨n, hn⟩ := Nat.exists_eq_add_one.2 hg
  rw [Grammar.expressions, hn]
  exact h.before fun m hm => .look (hr.solid.sees_optional hcomma) (.pure ⟨m, rfl, hm⟩)

theorem expressionStatement_takes (hg : 0 < g.bound)
    (h : Takes (g.expression .statement) t (';' :: r) IsQuiet) :
    Takes (expressionStatement g) (t ++ [';']) r IsQuietStatement := by
  have hsemicolon : Takes (semicolon true) [';'] r fun _ => True :=
    fun pos => ⟨(), pos + 1, rfl, trivial⟩
  have hlist : Takes (do
      let es ← g.expressions .statement
      semicolon true
      return es) (t ++ [';']) r fun ms => ∃ m, ms = [m] ∧ IsQuiet m := by
    have hends : Ends ([';'] ++ r) := .semicolon r
    exact (expressions_takes hg hends rfl h).bind fun ms hms => hsemicolon.before fun _ _ => .pure hms
  refine hlist.located.before fun a ⟨m, ha, span, parts, hm, hparts⟩ => ?_
  obtain ⟨outer, ms⟩ := a
  obtain rfl : ms = [.other span parts] := by rw [← hm]; exact ha
  refine .pure ⟨outer, _, rfl, ?_⟩
  simpa [Node.callsOf, Node.calls] using hparts

theorem statement_assignment (hg : 0 < g.bound)
    (h : Takes (g.expression .statement) (assignmentText t) (';' :: r) IsQuiet) :
    Takes (statement g) (assignmentText t ++ [';']) r IsQuietStatement := by
  have happend : assignmentText t ++ ';' :: r = assignmentText t ++ [';'] ++ r := by simp
  have hsolid := (plain_assignment t (';' :: r)).solid
  have hlabel := sees_accepts (refuses_label t (';' :: r))
  have hahead := hsolid.sees_wordAhead
  have hdeclaration := sees_declaration? (g := g) t (';' :: r)
  have hexport := sees_isExportAhead t (';' :: r)
  rw [word?_assignment, Option.map_some, String.ofList_toList] at hahead
  rw [happend] at hsolid hlabel hahead hdeclaration hexport
  have hplain : Takes (wordStatement g "module") (assignmentText t ++ [';']) r IsQuietStatement := by
    rw [wordStatement.eq_def]
    split
    iterate 13
      rename_i heq
      exact absurd heq (by decide)
    refine .look hlabel ?_
    rw [Bool.and_false]
    exact .look hexport (expressionStatement_takes hg h)
  refine .look hsolid.sees_skipMarkup (.cursor fun c hc => ?_)
  rw [hc]
  exact .look hahead (.look hlabel (.look hdeclaration hplain))

theorem program_assignment (hg : 1 < g.bound)
    (h : Takes g.statement (assignmentText t ++ [';']) [] IsQuietStatement) :
    Takes (program g) (assignmentText t ++ [';']) [] fun p =>
      ∃ s, p = ⟨none, [s]⟩ ∧ IsQuietStatement s := by
  have hline : Sees interpreterLine (assignmentText t ++ [';'] ++ []) none := fun _ => rfl
  obtain ⟨n, hn⟩ := Nat.exists_eq_add_of_le' hg
  refine .look hline ?_
  rw [hn]
  have hend : Takes (programStatements g (n + 1)) [] [] (· = []) := fun pos => ⟨[], pos, rfl, rfl⟩
  have hbody : Takes (programStatements g (n + 2)) (assignmentText t ++ [';']) []
      fun ss => ∃ s, ss = [s] ∧ IsQuietStatement s := by
    refine .look (fun _ => rfl) (.cursor fun c hc => ?_)
    rw [hc]
    refine Takes.before h fun s hs => hend.before fun ss hss => .pure ⟨s, ?_, hs⟩
    rw [hss]
  exact hbody.before fun ss ⟨s, hss, hs⟩ => .pure ⟨s, by rw [hss], hs⟩

/-- A module of data is one statement without calls. -/
theorem program_exporting (v : Json) :
    ∃ s, JavaScript.program (Loader.exporting v.text) = .ok ⟨none, [s]⟩ ∧ IsQuietStatement s := by
  have htext : Loader.exporting v.text = assignmentText v.text ++ [';'] := rfl
  have hle : v.text.length ≤ (Loader.exporting v.text).length :=
    List.IsInfix.length_le ⟨"module.exports = ".toList, [';'], rfl⟩
  -- The statement, the assignment and its value take one level of nesting each.
  obtain ⟨n, hdepth, hn⟩ : ∃ n, depthFor (Loader.exporting v.text).length = n + 3 ∧
      v.text.length < n := ⟨4 * (Loader.exporting v.text).length + 13, rfl, by omega⟩
  have hvalue : Takes ((Grammar.ofDepth (n + 1)).expression .statement) (' ' :: v.text) [';']
      fun m => m.calls = [] :=
    expression_blank (takesValue_text v (Nat.lt_add_right 1 hn) .statement [';'] (.semicolon []))
  have hassignment := expression_assignment (g := Grammar.ofDepth (n + 1))
    (by rw [bound_ofDepth]; omega) hvalue
  have hstatement := statement_assignment (g := Grammar.ofDepth (n + 2))
    (by rw [bound_ofDepth]; omega) hassignment
  obtain ⟨p, stop, hp, s, rfl, hs⟩ := program_assignment (g := Grammar.ofDepth (n + 3))
    (by rw [bound_ofDepth]; omega) hstatement 0
  refine ⟨s, ?_, hs⟩
  rw [List.append_nil, ← htext] at hp
  rw [JavaScript.program, Program.parse, hdepth, hp]

end Syntax
end JavaScript

namespace Loader

open JavaScript

/-- The source is one statement that is no import or export, there is no call in it, and it is
rewritten to itself without dependencies. -/
structure IsInert (root : Path) (key : Key) (source : List Char) : Prop where
  statement : ∃ s, program source = .ok ⟨none, [s]⟩ ∧ ¬ s.IsModular
  calls : callSites source = .ok []
  rewritten : rewrite .javaScript root key source = .ok ⟨source, []⟩

theorem isInert_exporting (root : Path) (key : Key) (v : Json) :
    IsInert root key (exporting v.text) := by
  obtain ⟨s, hprogram, span, parts, rfl, hparts⟩ := Syntax.program_exporting v
  have hnone : Program.calls ⟨none, [.other span parts]⟩ = [] := by
    rw [Program.calls, List.flatMap_singleton]
    exact hparts
  have hmodular : ¬ (Statement.other span parts).IsModular := id
  have hedits : CommonForm.edits ⟨none, [.other span parts]⟩ = [] :=
    CommonForm.edits_nil (by simpa using hmodular) (by simp [hnone])
  have hnormal : FrontEnd.javaScript.normalize (exporting v.text) = .ok (exporting v.text) := by
    rw [FrontEnd.javaScript]
    dsimp only
    rw [CommonForm.commonForm_eq hprogram, CommonForm.text, hedits]
    rfl
  have hsites : callSites (exporting v.text) = .ok [] := by
    rw [callSites, hprogram, Except.map, Program.callSites, hnone]
    rfl
  refine ⟨⟨_, hprogram, hmodular⟩, hsites, ?_⟩
  have hparsed := javaScript_parsed hprogram
  rw [Program.callSites, hnone] at hparsed
  rw [rewrite, hnormal]
  dsimp only
  rw [hparsed]
  rfl

/-- The loaders of data make modules that load nothing: the one for text of any content, the one for
JSON of any content it accepts. -/
theorem isInert_data (root : Path) (key : Key) (cx : LoaderContext) (content : List Char) :
    (∃ out, raw cx content = .ok out ∧ IsInert root key out) ∧
      ∀ out, json cx content = .ok out → IsInert root key out := by
  constructor
  · refine ⟨_, rfl, ?_⟩
    have h := isInert_exporting root key (.string (String.ofList content))
    rwa [Json.text, String.toList_ofList] at h
  · intro out h
    rw [json] at h
    split at h
    · cases h
      exact isInert_exporting root key _
    · cases h

/-- An object that holds the text of a program. -/
def crafted : List Char := "\x7b\"a\": [\"require('./b')\", -1, \"*/ import c from 'c'\"]\x7d".toList

def craftedModule : List Char :=
  "module.exports = \x7b\"a\":[\"require('./b')\",-1,\"*/ import c from 'c'\"]\x7d;".toList

theorem isInert_data_crafted :
    (∃ out, raw ⟨"./a.json", ⟨"/p/a.json"⟩, .null⟩ crafted = .ok out ∧
      IsInert ⟨"/p"⟩ "./a.json" out) ∧
    json ⟨"./a.json", ⟨"/p/a.json"⟩, .null⟩ crafted = .ok craftedModule ∧
    IsInert ⟨"/p"⟩ "./a.json" craftedModule := by
  have hjson : json ⟨"./a.json", ⟨"/p/a.json"⟩, .null⟩ crafted = .ok craftedModule := by
    decide +kernel
  have h := isInert_data ⟨"/p"⟩ "./a.json" ⟨"./a.json", ⟨"/p/a.json"⟩, .null⟩ crafted
  exact ⟨h.1, hjson, h.2 _ hjson⟩

end Loader
end Bundler
