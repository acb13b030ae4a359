import Bundler.Proofs.Edit.Insertion
import Bundler.Proofs.JavaScript.Edits

/-! Where the definitions of a common form stand. The text up to the last directive of a program
stays; then come the definitions that the program needs, each one once, and then what the other
edits make of the rest. -/
namespace Bundler.JavaScript

/-- Whether a program has an export. -/
def Program.Exports (p : Program) : Prop := ∃ span form ds, .exporting span form ds ∈ p.body

/-- Whether an import of a program binds the default export of its module. -/
def Program.ImportsDefault (p : Program) : Prop :=
  ∃ span parts source attributes name, .importing span (some parts) source attributes ∈ p.body ∧
    ImportPart.default name ∈ parts

/-- An import or an export. -/
def Statement.IsModular : Statement → Prop
  | importing .. | exporting .. => True
  | _ => False

instance : DecidablePred Statement.IsModular
  | .importing .. | .exporting .. => inferInstanceAs (Decidable True)
  | .directive .. | .declaration _ | .markupComment _ | .other .. =>
    inferInstanceAs (Decidable False)

def Node.IsDynamicImport : Node → Prop
  | call _ (importWord _) _ => True
  | _ => False

instance : DecidablePred Node.IsDynamicImport
  | .call _ (.importWord _) _ => inferInstanceAs (Decidable True)
  | .call _ (.name _) _ | .call _ (.string _) _ | .call _ (.template ..) _ | .call _ (.call ..) _
  | .call _ (.tagged ..) _ | .call _ (.other ..) _ | .name _ | .string _ | .template .. | .tagged ..
  | .importWord _ | .other .. => inferInstanceAs (Decidable False)

namespace CommonForm

/-- The line that marks the exports as those of a module. -/
def flagLine : List Char :=
  "Object.defineProperty(exports, \"__esModule\", \x7b value: true \x7d);".toList

/-- The line that defines the helper for default exports. -/
def helperLine : List Char :=
  "function _interopRequireDefault(obj) \x7b return obj && obj.__esModule ? obj : \x7b default: obj \x7d; \x7d".toList

/-- Lines behind a text: at the start of a file each one ends, and behind something else each one
starts, with a line feed. -/
def lines (front : List Char) (definitions : List (List Char)) : List Char :=
  if front = [] then definitions.flatMap (· ++ ['\n']) else definitions.flatMap ('\n' :: ·)

/-- A common form in three parts: the line of the interpreter and the directives of the source,
the definitions that the program needs, and what all other edits make of the rest. -/
structure Opens (source : List Char) (p : Program) (front : List Char)
    (definitions : List (List Char)) (body : List Char) : Prop where
  front_prefix : ∃ back, source = front ++ back
  /-- The front ends where the last directive of the prologue does, or else the interpreter's
  line, and everything behind it starts behind it. -/
  prologue : ∃ ds rest, p.body = ds ++ rest ∧ (∀ s ∈ ds, s.IsDirective) ∧
    (∀ s ∈ rest.head?, ¬ s.IsDirective) ∧ (∀ s ∈ rest, Text.size front ≤ s.span.start) ∧
    Text.size front =
      (ds.getLast?.map (·.span.stop)).getD ((p.interpreter.map Span.stop).getD 0)
  /-- Each definition comes once, the flag in front of the helper. -/
  once : definitions.Sublist [flagLine, helperLine]
  flag : flagLine ∈ definitions ↔ p.Exports
  helper : helperLine ∈ definitions ↔ p.ImportsDefault
  /-- All other replacements, so every use of the helper, stand in the body. -/
  uses : ∀ e ∈ codeEdits p, Text.size front ≤ e.span.start
  others : Edit.apply source (codeEdits p) = front ++ body

/-! ### The definitions that a program needs -/

variable {source : List Char} {p : Program}

theorem hasExports_iff : hasExports p = true ↔ p.Exports := by
  rw [hasExports, List.any_eq_true, Program.Exports]
  constructor
  · rintro ⟨s, hs, h⟩
    split at h
    · exact ⟨_, _, _, hs⟩
    · cases h
  · rintro ⟨span, form, ds, hs⟩
    exact ⟨_, hs, rfl⟩

theorem usesInterop_iff : usesInterop p = true ↔ p.ImportsDefault := by
  rw [usesInterop, List.any_eq_true, Program.ImportsDefault]
  constructor
  · rintro ⟨s, hs, h⟩
    split at h
    · obtain ⟨part, hpart, hname⟩ := List.any_eq_true.mp h
      split at hname
      · exact ⟨_, _, _, _, _, hs, hpart⟩
      · cases hname
    · cases h
  · rintro ⟨span, parts, l, attributes, name, hs, hpart⟩
    exact ⟨_, hs, List.any_eq_true.mpr ⟨_, hpart, rfl⟩⟩

def definitions (p : Program) : List (List Char) :=
  (if hasExports p then [flagLine] else []) ++ if usesInterop p then [helperLine] else []

theorem moduleFlag_eq : moduleFlag.toList = flagLine ++ ['\n'] := by decide +kernel

theorem interopDefinition_eq : interopDefinition.toList = helperLine ++ ['\n'] := by decide +kernel

theorem prelude_eq (p : Program) : prelude p = (definitions p).flatMap (· ++ ['\n']) := by
  rw [prelude, definitions, moduleFlag_eq, interopDefinition_eq]
  split_ifs <;> simp

theorem mem_definitions : (flagLine ∈ definitions p ↔ p.Exports) ∧
    (helperLine ∈ definitions p ↔ p.ImportsDefault) := by
  have hne : flagLine ≠ helperLine := by decide +kernel
  rw [← hasExports_iff, ← usesInterop_iff, definitions]
  split_ifs with hflag hhelper <;> simp [*, hne.symm]

theorem definitions_sublist : (definitions p).Sublist [flagLine, helperLine] := by
  rw [definitions]
  split_ifs <;> simp

/-- A line feed moves from the end of each line to its start. -/
theorem cons_flatMap_concat (ds : List (List Char)) :
    '\n' :: ds.flatMap (· ++ ['\n']) = ds.flatMap ('\n' :: ·) ++ ['\n'] := by
  induction ds with
  | nil => rfl
  | cons d ds ih => simp [← ih]

theorem preludeEdits_eq {front : List Char} (hfront : Text.size front = preludePosition p)
    (h : definitions p ≠ []) :
    preludeEdits p = [Edit.insert (Text.size front) (lines front (definitions p))] := by
  have hmoved := cons_flatMap_concat (definitions p)
  have hempty : preludePosition p = 0 ↔ front = [] := by
    rw [← hfront]
    exact ⟨Cursor.size_eq_zero, fun h => h ▸ rfl⟩
  rw [preludeEdits, prelude_eq]
  split
  · rename_i hnil
    obtain ⟨d, hd⟩ := List.exists_mem_of_ne_nil _ h
    simpa using List.flatMap_eq_nil_iff.mp hnil d hd
  · rename_i hne
    have hdrop := congrArg List.dropLast hmoved
    rw [List.dropLast_concat, List.dropLast_cons_of_ne_nil hne] at hdrop
    simp only [hempty, lines, hdrop, hfront]
    split_ifs with hfront
    · rw [← hempty.mpr hfront]
    · rfl

theorem preludeEdits_nil (h : definitions p = []) : preludeEdits p = [] := by
  rw [preludeEdits, prelude_eq, h]
  rfl

/-- The edits behind the front, without and with the definitions in front of them. -/
theorem exists_body {front : List Char} (back : List Char) (hfront : Text.size front = preludePosition p)
    (h : ∀ e ∈ codeEdits p, Text.size front ≤ e.span.start ∧ Text.size front < e.span.stop) :
    ∃ body, Edit.apply (front ++ back) (codeEdits p) = front ++ body ∧
      text (front ++ back) p = front ++ lines front (definitions p) ++ body := by
  obtain ⟨body, hothers, hall⟩ :=
    Edit.apply_insert back (lines front (definitions p)) h
  refine ⟨body, hothers, ?_⟩
  rw [text, edits_eq]
  by_cases hd : definitions p = []
  · rw [preludeEdits_nil hd, List.append_nil, hothers, hd]
    simp [lines]
  · rw [preludeEdits_eq hfront hd, hall]

theorem edits_nil (hs : ∀ s ∈ p.body, ¬ s.IsModular) (hm : ∀ m ∈ p.calls, ¬ m.IsDynamicImport) :
    edits p = [] := by
  have hcode : codeEdits p = [] := by
    rw [codeEdits, List.append_eq_nil_iff, List.flatMap_eq_nil_iff, List.flatMap_eq_nil_iff]
    refine ⟨fun m hmem => ?_, fun s hmem => ?_⟩
    · have hnot := hm m hmem
      rw [dynamicEdits.eq_def]
      split
      · exact absurd trivial hnot
      · rfl
    · have hnot := hs s hmem
      cases s with
      | importing span clause l attributes => exact absurd trivial hnot
      | exporting span form ds => exact absurd trivial hnot
      | _ => rfl
  have hnone : definitions p = [] := by
    refine List.eq_nil_iff_forall_not_mem.mpr fun d hd => ?_
    rcases List.mem_pair.mp (definitions_sublist.subset hd) with heq | heq
    · obtain ⟨span, form, ds, hmem⟩ := mem_definitions.1.mp (heq ▸ hd)
      exact hs _ hmem trivial
    · obtain ⟨span, parts, l, attributes, name, hmem, -⟩ := mem_definitions.2.mp (heq ▸ hd)
      exact hs _ hmem trivial
  rw [edits_eq, hcode, preludeEdits_nil hnone, List.append_nil]

end CommonForm

/-- The common form of a program is the line of the interpreter and the directives as they are,
then the flag just if there is an export and the helper just if an import binds a default export,
and then what the other edits make of the rest. Without an import or export it is the source. -/
theorem commonForm_opens {source : List Char} {p : Program} (hp : program source = .ok p) :
    (∃ front definitions body, CommonForm.Opens source p front definitions body ∧
      commonForm source = .ok (front ++ CommonForm.lines front definitions ++ body)) ∧
    ((∀ s ∈ p.body, ¬ s.IsModular) → (∀ m ∈ p.calls, ¬ m.IsDynamicImport) →
      commonForm source = .ok source) := by
  rw [CommonForm.commonForm_eq hp]
  constructor
  · obtain ⟨ds, rest, hbody, hds, hrest, hstop, ⟨front, back, rfl, hfront⟩, hbehind⟩ :=
      CommonForm.preludePosition_eq (program_sound hp)
    have hcode := CommonForm.codeEdits_between hp
    rw [← hfront] at hcode hstop hbehind
    obtain ⟨body, hothers, htext⟩ := CommonForm.exists_body back hfront
      fun e he => ⟨(hcode e he).low_le, (hcode e he).low_lt⟩
    refine ⟨front, CommonForm.definitions p, body, ?_, by rw [htext]⟩
    exact {
      front_prefix := ⟨back, rfl⟩
      prologue := ⟨ds, rest, hbody, hds, hrest, fun s hs => (hbehind.between s hs).2.1, hstop⟩
      once := CommonForm.definitions_sublist
      flag := CommonForm.mem_definitions.1
      helper := CommonForm.mem_definitions.2
      uses := fun e he => (hcode e he).low_le
      others := hothers }
  · intro hs hm
    rw [CommonForm.text, CommonForm.edits_nil hs hm]
    rfl

/-- An interpreter's line and a directive, with imports and exports behind them. -/
def launcher : List Char :=
  "#!/bin/node\n'use strict'; import a from './a'; export \x7b a \x7d;".toList

/-- A directive and a load, which are no imports. -/
def strictLoad : List Char := "'use strict';\nrequire('./a');".toList

example :
    (commonForm launcher).toOption = some ("#!/bin/node\n'use strict';".toList ++
      '\n' :: CommonForm.flagLine ++ '\n' :: CommonForm.helperLine ++
      " var a = _interopRequireDefault(require('./a')).default; exports.a = a;".toList) := by
  decide +kernel

theorem program_launcher : (program launcher).toOption.isSome = true := by decide +kernel

theorem program_strictLoad : (program strictLoad).toOption.any (fun p =>
    p.body.all (fun s => ¬ s.IsModular) && p.calls.all fun m => ¬ m.IsDynamicImport) = true := by
  decide +kernel

theorem commonForm_opens_launcher :
    (∃ p front definitions body, program launcher = .ok p ∧
      CommonForm.Opens launcher p front definitions body ∧
      commonForm launcher = .ok (front ++ CommonForm.lines front definitions ++ body)) ∧
    ∃ p, program strictLoad = .ok p ∧ commonForm strictLoad = .ok strictLoad := by
  have hlauncher := program_launcher
  have hload := program_strictLoad
  constructor
  · cases hp : program launcher with
    | error e => simp [hp, Except.toOption] at hlauncher
    | ok p =>
      obtain ⟨front, definitions, body, hopens⟩ := (commonForm_opens hp).1
      exact ⟨p, front, definitions, body, rfl, hopens⟩
  · cases hp : program strictLoad with
    | error e => simp [hp, Except.toOption] at hload
    | ok p =>
      simp only [hp, Except.toOption, Option.any_some, Bool.and_eq_true, List.all_eq_true,
        decide_eq_true_iff] at hload
      exact ⟨p, rfl, (commonForm_opens hp).2 hload.1 hload.2⟩

end Bundler.JavaScript
