import Bundler.Proofs.JavaScript.BoundNames
import Bundler.Proofs.JavaScript.Prelude

/-! What a program exports. Each export but that of all names has entries, which give a value to
a name, and the texts that a common form writes assign just these. No edit of an export is dropped
for another one. -/
namespace Bundler.JavaScript

/-! ### The entries of an export -/

/-- What an entry gives to its name. -/
inductive Exported where
  | binding (name : List Char)
  /-- A name of another module. -/
  | imported (source : Lexeme) (name : List Char)
  /-- Another module as a whole. -/
  | module (source : Lexeme)
  | value (node : Node)

namespace ExportForm

/-- The text of an export introduces these variables. -/
inductive Introduces (source : List Char) : ExportForm → List BoundName → Prop
  | declared {word : ℕ} {d : Declaration} {ps : List Pattern} {bs : List BoundName}
      (hd : d.binds = .patterns ps) (h : d.Introduces source bs) :
      Introduces source (.declaration false word d) bs
  | other {form : ExportForm}
      (h : ∀ word d ps, d.binds = .patterns ps → form ≠ .declaration false word d) :
      Introduces source form []

/-- The entries of an export, if its variables have these names: the name that a module gets, and
what for. An export of all names has none of its own, and neither have the variables that follow
the word `default`. -/
inductive Entry (names : List (List Char)) : ExportForm → List Char → Exported → Prop
  | declared {word : ℕ} {d : Declaration} {ps : List Pattern} {n : List Char}
      (hd : d.binds = .patterns ps) (hn : n ∈ names) :
      Entry names (.declaration false word d) n (.binding n)
  | definition {word : ℕ} {d : Declaration} {w : Lexeme} (hd : d.binds = .definition w) :
      Entry names (.declaration false word d) w.text (.binding w.text)
  | default {word : ℕ} {d : Declaration} {w : Lexeme} (hd : d.binds = .definition w) :
      Entry names (.declaration true word d) "default".toList (.binding w.text)
  | value {word : ℕ} {node : Node} :
      Entry names (.value word node) "default".toList (.value node)
  | item {items : List ListItem} {i : ListItem} (hi : i ∈ items) :
      Entry names (.names items none) (i.alias_.getD i.name).text (.binding i.name.text)
  | reexport {items : List ListItem} {source : Lexeme} {i : ListItem} (hi : i ∈ items) :
      Entry names (.names items (some source)) (i.alias_.getD i.name).text
        (.imported source i.name.text)
  | star {name source : Lexeme} : Entry names (.namespace name source) name.text (.module source)

end ExportForm

namespace CommonForm

/-! ### What the edits write -/

/-- `require('x')` -/
def loadText (l : Lexeme) : List Char := "require(".toList ++ l.text ++ [')']

/-- The assignment of an entry. The value of a default export is no text of its own. -/
inductive Assignment : List Char × Exported → List Char → Prop
  | binding (n name : List Char) : Assignment (n, .binding name)
      ("exports".toList ++ member n ++ " = ".toList ++ name ++ [';'])
  | imported (n : List Char) (l : Lexeme) (name : List Char) : Assignment (n, .imported l name)
      ("exports".toList ++ member n ++ " = ".toList ++ (loadText l ++ member name) ++ [';'])
  | module (n : List Char) (l : Lexeme) : Assignment (n, .module l)
      ("exports".toList ++ member n ++ " = ".toList ++ loadText l ++ [';'])

/-- A name between the braces of an import, as it stands in a pattern. -/
inductive Field : ListItem → List Char → Prop
  | same (w : Lexeme) : Field ⟨w, none⟩ w.text
  | renamed (w a : Lexeme) : Field ⟨w, some a⟩ (w.text ++ ": ".toList ++ a.text)

/-- The statement for a part of an import of a module. -/
inductive PartText (l : Lexeme) : ImportPart → List Char → Prop
  | default (w : Lexeme) : PartText l (.default w) ("var ".toList ++ w.text ++ " = ".toList ++
      ("_interopRequireDefault".toList ++ '(' :: loadText l ++ ").default".toList) ++ [';'])
  | namespace (w : Lexeme) : PartText l (.namespace w)
      ("var ".toList ++ w.text ++ " = ".toList ++ loadText l ++ [';'])
  | nothing : PartText l (.names []) (loadText l ++ [';'])
  | names {i : ListItem} {items : List ListItem} {fields : List (List Char)}
      (h : List.Forall₂ Field (i :: items) fields) : PartText l (.names (i :: items))
      ("var ".toList ++ ("\x7b ".toList ++ ", ".toList.intercalate fields ++ " \x7d".toList) ++
        " = ".toList ++ loadText l ++ [';'])

inductive ImportText (l : Lexeme) : Option (List ImportPart) → List Char → Prop
  | bare : ImportText l none (loadText l ++ [';'])
  | parts {parts : List ImportPart} {texts : List (List Char)}
      (h : List.Forall₂ (PartText l) parts texts) :
      ImportText l (some parts) (" ".toList.intercalate texts)

/-- What an edit of a program writes, and the entries that are assigned there. The texts for other
things than exports and the copies for exports of all names assign no entry. -/
inductive Writes (p : Program) : Edit → List (List Char × Exported) → Prop
  | nothing (span : Span) : Writes p ⟨span, []⟩ []
  | assignments (span : Span) {as : List (List Char × Exported)} {texts : List (List Char)}
      (h : List.Forall₂ Assignment as texts) : Writes p ⟨span, " ".toList.intercalate texts⟩ as
  | line (n : ℕ) {as : List (List Char × Exported)} {texts : List (List Char)}
      (h : List.Forall₂ Assignment as texts) :
      Writes p (Edit.insert n ('\n' :: " ".toList.intercalate texts)) as
  /-- The expression that is the value follows. -/
  | value (start : ℕ) (node : Node) :
      Writes p ⟨⟨start, node.span.start⟩, "exports.default = ".toList⟩
        [("default".toList, .value node)]
  | copy {span : Span} {l : Lexeme} {ds : List Node} (h : .exporting span (.all l) ds ∈ p.body) :
      Writes p ⟨span, "(function (m) \x7b Object.keys(m).forEach(function (k) \x7b if (k !== \"default\" && !Object.prototype.hasOwnProperty.call(exports, k)) exports[k] = m[k]; \x7d); \x7d)(".toList
        ++ loadText l ++ ");".toList⟩ []
  | importing {span : Span} {clause : Option (List ImportPart)} {l : Lexeme} {ns : List Node}
      {text : List Char} (hs : .importing span clause l ns ∈ p.body) (h : ImportText l clause text) :
      Writes p ⟨span, text⟩ []
  | promise (span : Span) : Writes p ⟨span, "Promise.resolve().then(() => require".toList⟩ []
  | closing (n : ℕ) : Writes p (Edit.insert n [')']) []
  | definitions (n : ℕ) {front : List Char} {ds : List (List Char)}
      (h : ds.Sublist [flagLine, helperLine]) : Writes p (Edit.insert n (lines front ds)) []

/-! ### The entries that are written -/

/-- What an entry is written as, if its value is not an expression of the source. -/
def entryValue : Exported → List Char
  | .binding name => name
  | .imported source name => requireCall source ++ member name
  | .module source => requireCall source
  | .value _ => []

def entryText (a : List Char × Exported) : List Char := assignment a.1 (entryValue a.2)

/-- The entries of an export as they are found, in order. -/
def entries : ExportForm → List (List Char × Exported)
  | .all _ => []
  | .namespace name source => [(name.text, .module source)]
  | .names items (some source) => items.map fun i => (exportedName i, .imported source i.name.text)
  | .names items none => items.map fun i => (exportedName i, .binding i.name.text)
  | .declaration true _ d =>
    match d.binds with
    | .definition w => [("default".toList, .binding w.text)]
    | .patterns _ => []
  | .declaration false _ d => d.binds.names.map fun n => (n, .binding n)
  | .value _ node => [("default".toList, .value node)]

/-- The variables that are found of an export. -/
def IsFound (form : ExportForm) (names : List (List Char)) : Prop :=
  ∀ word d ps, form = .declaration false word d → d.binds = .patterns ps → d.binds.names = names

theorem mem_entries {form : ExportForm} {names : List (List Char)} (h : IsFound form names)
    {n : List Char} {v : Exported} : (n, v) ∈ entries form ↔ form.Entry names n v := by
  constructor
  · intro hmem
    rw [entries.eq_def] at hmem
    split at hmem
    · cases hmem
    · cases List.mem_singleton.mp hmem
      exact .star
    · obtain ⟨i, hi, heq⟩ := List.mem_map.mp hmem
      cases heq
      exact .reexport hi
    · obtain ⟨i, hi, heq⟩ := List.mem_map.mp hmem
      cases heq
      exact .item hi
    · split at hmem
      · cases List.mem_singleton.mp hmem
        exact .default ‹_›
      · cases hmem
    · rename_i word d
      obtain ⟨m, hm, heq⟩ := List.mem_map.mp hmem
      cases heq
      cases hd : d.binds with
      | patterns ps => exact .declared hd (h word d ps rfl hd ▸ hm)
      | definition w =>
        rw [hd, Binds.names, List.mem_singleton] at hm
        exact hm ▸ .definition hd
    · cases List.mem_singleton.mp hmem
      exact .value
  · intro hentry
    cases hentry with
    | declared hd hn => exact List.mem_map.mpr ⟨n, (h _ _ _ rfl hd).symm ▸ hn, rfl⟩
    | definition hd => simp [entries, hd, Binds.names]
    | default hd => simp [entries, hd]
    | value => exact List.mem_singleton_self _
    | item hi => exact List.mem_map.mpr ⟨_, hi, rfl⟩
    | reexport hi => exact List.mem_map.mpr ⟨_, hi, rfl⟩
    | star => exact List.mem_singleton_self _

variable {source : List Char} {p : Program} {e f : Edit} {span : Span} {form : ExportForm}
  {ds : List Node}

theorem assignment_entryText {a : List Char × Exported} (h : ∀ node, a.2 ≠ .value node) :
    Assignment a (entryText a) := by
  rcases a with ⟨n, name | ⟨l, name⟩ | l | node⟩
  · exact .binding n name
  · exact .imported n l name
  · exact .module n l
  · exact absurd rfl (h node)

theorem exists_isFound (form : ExportForm) : ∃ names, IsFound form names := by
  cases form with
  | declaration isDefault word d =>
    refine ⟨d.binds.names, fun word' d' ps heq _ => ?_⟩
    cases heq
    rfl
  | _ => exact ⟨[], nofun⟩

theorem assignments_entries (h : ∀ word node, form ≠ .value word node) :
    List.Forall₂ Assignment (entries form) ((entries form).map entryText) := by
  rw [List.forall₂_map_right_iff, List.forall₂_same]
  rintro ⟨n, v⟩ ha
  obtain ⟨names, hnames⟩ := exists_isFound form
  have hentry := (mem_entries hnames).mp ha
  refine assignment_entryText fun node heq => ?_
  cases heq
  cases hentry with
  | value => exact h _ _ rfl

theorem joined_cons (separator : String) (x : List Char) (xs : List (List Char)) :
    ∃ rest, joined separator (x :: xs) = x ++ rest := by
  cases xs with
  | nil => exact ⟨[], by rw [joined, List.intercalate_singleton, List.append_nil]⟩
  | cons y ys =>
    refine ⟨separator.toList ++ joined separator (y :: ys), ?_⟩
    rw [joined, joined, List.intercalate_cons_cons, List.append_assoc]

/-- The assignments of an export. -/
def entriesText (form : ExportForm) : List Char := joined " " ((entries form).map entryText)

theorem entriesText_isEmpty : (entriesText form).isEmpty = true ↔ entries form = [] := by
  rw [List.isEmpty_iff, entriesText]
  refine ⟨fun hnil => ?_, fun hnone => by rw [hnone]; rfl⟩
  cases hentries : entries form with
  | nil => rfl
  | cons a as =>
    obtain ⟨rest, hrest⟩ := joined_cons " " (entryText a) (as.map entryText)
    rw [hentries, List.map_cons, hrest] at hnil
    exact absurd (List.append_eq_nil_iff.mp hnil).1 (List.concat_ne_nil ';' _)

theorem declarationText_eq (isDefault : Bool) (word : ℕ) (d : Declaration) :
    declarationText isDefault d = entriesText (.declaration isDefault word d) := by
  obtain ⟨s, binds, parts⟩ := d
  cases isDefault with
  | false =>
    rw [declarationText, entriesText, entries, List.map_map]
    rfl
  | true =>
    cases binds with
    | patterns ps => rfl
    | definition w =>
      rw [entriesText, entries, List.map_singleton, joined, List.intercalate_singleton]
      rfl

/-- The edits of an export: it is replaced as a whole, by a copy of all names or by its
assignments, or the words in front of what it exports are. -/
theorem exportEdits_cases (span : Span) (form : ExportForm) :
    (∃ l, form = .all l ∧ exportEdits span form = [⟨span, copyAll (requireCall l)⟩]) ∨
    ((∀ word n, form ≠ .value word n) ∧ exportEdits span form = [⟨span, entriesText form⟩]) ∨
    (∃ isDefault word d, form = .declaration isDefault word d ∧
      exportEdits span form = ⟨⟨word, d.span.start⟩, []⟩ ::
        if entries form = [] then [] else [Edit.insert span.stop ('\n' :: entriesText form)]) ∨
    ∃ word node, form = .value word node ∧
      exportEdits span form = [⟨⟨word, node.span.start⟩, "exports.default = ".toList⟩] := by
  rcases form with l | ⟨name, l⟩ | ⟨items, l | l⟩ | ⟨isDefault, word, d⟩ | ⟨word, node⟩
  · exact .inl ⟨l, rfl, rfl⟩
  · refine .inr (.inl ⟨by simp, ?_⟩)
    rw [entriesText, entries, List.map_singleton, joined, List.intercalate_singleton]
    rfl
  · refine .inr (.inl ⟨by simp, ?_⟩)
    rw [entriesText, entries, List.map_map]
    rfl
  · refine .inr (.inl ⟨by simp, ?_⟩)
    rw [entriesText, entries, List.map_map]
    rfl
  · refine .inr (.inr (.inl ⟨isDefault, word, d, rfl, ?_⟩))
    rw [exportEdits, declarationText_eq isDefault word]
    simp only [entriesText_isEmpty]
  · exact .inr (.inr (.inr ⟨word, node, rfl, rfl⟩))

/-- The edits of an export take words away, or write its entries. -/
theorem exportEdits_writes (hs : .exporting span form ds ∈ p.body) (he : e ∈ exportEdits span form) :
    e.replacement = [] ∨ Writes p e (entries form) := by
  rcases exportEdits_cases span form with ⟨l, rfl, hedits⟩ | ⟨hform, hedits⟩ |
    ⟨isDefault, word, d, rfl, hedits⟩ | ⟨word, node, rfl, hedits⟩
  all_goals rw [hedits] at he
  · obtain rfl := List.mem_singleton.mp he
    exact .inr (.copy hs)
  · obtain rfl := List.mem_singleton.mp he
    exact .inr (.assignments span (assignments_entries hform))
  · rcases List.mem_cons.mp he with rfl | he
    · exact .inl rfl
    · split_ifs at he
      · cases he
      · obtain rfl := List.mem_singleton.mp he
        exact .inr (.line span.stop (assignments_entries (by simp)))
  · obtain rfl := List.mem_singleton.mp he
    exact .inr (.value word node)

/-- An export with an entry has an edit that writes something. -/
theorem exists_writing (span : Span) (h : entries form ≠ []) :
    ∃ e ∈ exportEdits span form, e.replacement ≠ [] := by
  have hne : entriesText form ≠ [] := fun hnil =>
    h (entriesText_isEmpty.mp (List.isEmpty_iff.mpr hnil))
  rcases exportEdits_cases span form with ⟨l, rfl, -⟩ | ⟨-, hedits⟩ |
    ⟨isDefault, word, d, rfl, hedits⟩ | ⟨word, node, rfl, hedits⟩
  · exact absurd rfl h
  · rw [hedits]
    exact ⟨_, List.mem_singleton_self _, hne⟩
  · rw [hedits, if_neg h]
    exact ⟨_, List.mem_cons_of_mem _ (List.mem_singleton_self _), List.cons_ne_nil _ _⟩
  · rw [hedits]
    have hvalue : "exports.default = ".toList ≠ [] := by decide
    exact ⟨_, List.mem_singleton_self _, hvalue⟩

/-! ### No export is dropped -/

theorem mem_declarationEdits {isDefault : Bool} {word : ℕ} {d : Declaration}
    (he : e ∈ exportEdits span (.declaration isDefault word d)) :
    e = ⟨⟨word, d.span.start⟩, []⟩ ∨
      e = Edit.insert span.stop ('\n' :: declarationText isDefault d) := by
  rw [exportEdits] at he
  rcases List.mem_cons.mp he with rfl | he
  · exact .inl rfl
  · split_ifs at he
    · cases he
    · exact .inr (List.mem_singleton.mp he)

/-- Inside an export statement, no edit is in the way of its own ones. -/
theorem stop_le_of_same (h : (Statement.exporting span form ds).Sound source)
    (hk : (Statement.exporting span form ds).Keyed)
    (hw : Node.AllWorded (Statement.exporting span form ds).parts) (he : e ∈ exportEdits span form)
    (hf : f ∈ callEdits (ds ++ form.parts) ∨ f ∈ exportEdits span form) (hne : f ≠ e)
    (hle : Edit.le f e = true) : f.span.stop ≤ e.span.start := by
  obtain ⟨-, mid, -, hhigh, hds, hform⟩ := h
  rw [callEdits_append, List.mem_append] at hf
  rw [Edit.le_iff] at hle
  -- an edit of the whole statement is the only one
  have hsingle {g : Edit} (hds : ds = []) (hparts : form.parts = [])
      (hedits : exportEdits span form = [g]) : f.span.stop ≤ e.span.start := by
    rw [hedits, List.mem_singleton] at he hf
    rw [hds, hparts] at hf
    rcases hf with (hf | hf) | hf
    · cases hf
    · cases hf
    · exact absurd (hf.trans he.symm) hne
  obtain ⟨hwds, hwparts⟩ := Node.allWorded_append.mp hw
  have hbefore : f ∈ callEdits ds → f.span.stop ≤ mid := fun hf =>
    (callEdits_between hds hwds f hf).le_high
  rcases form with l | ⟨name, l⟩ | ⟨items, l | l⟩ | ⟨isDefault, word, d⟩ | ⟨word, node⟩
  · exact hsingle hk.2 rfl rfl
  · exact hsingle hk.2 rfl rfl
  · exact hsingle hk.2 rfl rfl
  · exact hsingle hk.2 rfl rfl
  · obtain ⟨-, hmid, hword, hstop, hd⟩ := hform
    have hroom : word < d.span.start := hk.2
    have hdle := hd.1.le
    have hinside (hf : f ∈ callEdits d.parts) :
        d.span.start ≤ f.span.start ∧ f.span.stop ≤ d.span.stop :=
      have hbetween := callEdits_between hd.2 hwparts f hf
      ⟨hbetween.low_le, hbetween.le_high⟩
    rcases mem_declarationEdits he with rfl | rfl
    · rcases hf with (hf | hf) | hf
      · exact Nat.le_trans (hbefore hf) hmid
      · have hstart := (hinside hf).1
        dsimp only at hle
        omega
      · rcases mem_declarationEdits hf with rfl | rfl
        · exact absurd rfl hne
        · dsimp only [Edit.insert] at hle
          omega
    · rcases hf with (hf | hf) | hf
      · exact Nat.le_trans (hbefore hf) hhigh
      · exact Nat.le_trans (hinside hf).2 hstop
      · rcases mem_declarationEdits hf with rfl | rfl
        · exact Nat.le_trans hdle hstop
        · exact absurd rfl hne
  · obtain ⟨-, hmid, hword, hstop, hn⟩ := hform
    have hroom : word < node.span.start := hk.2
    obtain rfl := List.mem_singleton.mp he
    rcases hf with (hf | hf) | hf
    · exact Nat.le_trans (hbefore hf) hmid
    · have hparts := Node.allSound_singleton.mpr ⟨hn, Nat.le_refl _, Nat.le_refl _⟩
      have hstart := (callEdits_between hparts hwparts f hf).low_le
      dsimp only at hle
      omega
    · exact absurd (List.mem_singleton.mp hf) hne

theorem exportEdits_kept (hp : program source = .ok p) (hs : .exporting span form ds ∈ p.body) :
    ∀ e ∈ exportEdits span form, e ∈ Edit.kept 0 (Edit.sort (edits p)) := by
  obtain ⟨hsound, hkeyed⟩ := program_reads hp
  obtain ⟨hstands, -, -⟩ := hsound.2.between _ hs
  obtain ⟨hkey, hwords⟩ := hkeyed _ hs
  intro e he
  have hmem : e ∈ edits p := by
    rw [edits_eq, List.mem_append, mem_codeEdits]
    exact .inl ⟨_, hs, .inr he⟩
  have hbetween := between_of_mem hp hs (.inr he)
  refine (Edit.inOrder_sort _).mem_kept ((Edit.sort_perm _).mem_iff.mpr hmem) (Nat.zero_le _) ?_
  intro f hf hne hle
  rw [(Edit.sort_perm _).mem_iff, edits_eq, List.mem_append, mem_codeEdits] at hf
  rcases hf with ⟨t, ht, hf⟩ | hf
  · have hother := between_of_mem hp ht hf
    rcases hsound.2.apart ht hs with rfl | hbefore | hbehind
    · exact stop_le_of_same hstands hkey hwords he hf hne hle
    · exact Nat.le_trans hother.le_high (Nat.le_trans hbefore hbetween.low_le)
    · rw [Edit.le_iff] at hle
      have := hother.low_lt
      have := hother.low_le
      have := hbetween.le_high
      have := hbetween.stands.le
      omega
  · rw [preludeEdits_span hf]
    exact Nat.le_trans (preludePosition_le hsound hs (by simp [Statement.IsDirective])) hbetween.low_le

/-! ### All edits of a program -/

theorem callEdits_writes {ns : List Node} (he : e ∈ callEdits ns) : Writes p e [] := by
  obtain ⟨m, -, he⟩ := List.mem_flatMap.mp he
  rw [dynamicEdits.eq_def] at he
  split at he
  · rcases List.mem_pair.mp he with rfl | rfl
    · exact .promise _
    · exact .closing _
  · cases he

theorem field_importItem (i : ListItem) : Field i (importItem i) := by
  obtain ⟨w, - | a⟩ := i
  · exact .same w
  · exact .renamed w a

theorem partText_importPart (l : Lexeme) (part : ImportPart) :
    PartText l part (importPart (requireCall l) part) := by
  rcases part with w | w | (- | ⟨i, items⟩)
  · exact .default w
  · exact .namespace w
  · exact .nothing
  · refine .names ?_
    rw [List.forall₂_map_right_iff, List.forall₂_same]
    exact fun i _ => field_importItem i

theorem importText_spec (clause : Option (List ImportPart)) (l : Lexeme) :
    ImportText l clause (importText clause l) := by
  cases clause with
  | none => exact .bare
  | some parts =>
    refine .parts ?_
    rw [List.forall₂_map_right_iff, List.forall₂_same]
    exact fun part _ => partText_importPart l part

theorem preludeEdits_writes (h : p.Sound source) (he : e ∈ preludeEdits p) : Writes p e [] := by
  obtain ⟨-, -, -, -, -, -, ⟨front, back, -, hfront⟩, -⟩ := preludePosition_eq h
  by_cases hne : definitions p = []
  · rw [preludeEdits_nil hne] at he
    cases he
  · rw [preludeEdits_eq hfront hne, List.mem_singleton] at he
    exact he ▸ .definitions _ definitions_sublist

/-- Every edit is one of an export, or assigns nothing. -/
theorem edits_writes (hp : program source = .ok p) (he : e ∈ edits p) :
    (∃ span form ds, .exporting span form ds ∈ p.body ∧ e ∈ exportEdits span form) ∨
      Writes p e [] := by
  rw [edits_eq, List.mem_append, mem_codeEdits] at he
  rcases he with ⟨s, hs, he | he⟩ | he
  · exact .inr (callEdits_writes he)
  · rw [statementEdits.eq_def] at he
    split at he
    · obtain rfl := List.mem_singleton.mp he
      exact .inr (.importing hs (importText_spec _ _))
    · exact .inl ⟨_, _, _, hs, he⟩
    · cases he
  · exact .inr (preludeEdits_writes (program_sound hp) he)

/-- No edit is one of two exports. -/
theorem exportEdits_apart (hp : program source = .ok p) {span' : Span} {form' : ExportForm}
    {ds' : List Node} (hs : .exporting span form ds ∈ p.body)
    (hs' : .exporting span' form' ds' ∈ p.body) (he : e ∈ exportEdits span form)
    (he' : e ∈ exportEdits span' form') : form = form' := by
  have hbetween := between_of_mem hp hs (.inr he)
  have hbetween' := between_of_mem hp hs' (.inr he')
  rcases (program_sound hp).2.apart hs hs' with heq | hbefore | hbehind
  · cases heq
    rfl
  · have := hbetween.le_high
    have := hbetween'.low_lt
    omega
  · have := hbetween'.le_high
    have := hbetween.low_lt
    omega

/-- What an edit writes with the entries of its export, if it is the edit that assigns them. -/
theorem exists_written (hp : program source = .ok p) (he : e ∈ edits p) :
    ∃ as, Writes p e as ∧
      (∀ a ∈ as, ∃ span form ds, .exporting span form ds ∈ p.body ∧
        e ∈ exportEdits span form ∧ a ∈ entries form) ∧
      ∀ span form ds, .exporting span form ds ∈ p.body → e ∈ exportEdits span form →
        e.replacement ≠ [] → as = entries form := by
  by_cases hexport : ∃ span form ds, .exporting span form ds ∈ p.body ∧
      e ∈ exportEdits span form ∧ e.replacement ≠ []
  · obtain ⟨span, form, ds, hs, hedit, hne⟩ := hexport
    refine ⟨entries form, (exportEdits_writes hs hedit).resolve_left hne,
      fun a ha => ⟨span, form, ds, hs, hedit, ha⟩, fun span' form' ds' hs' hedit' _ => ?_⟩
    rw [exportEdits_apart hp hs hs' hedit hedit']
  · have hwrites : Writes p e [] := by
      rcases edits_writes hp he with ⟨span, form, ds, hs, hedit⟩ | hwrites
      · obtain ⟨place, text⟩ := e
        obtain rfl : text = [] := not_not.mp fun hne => hexport ⟨span, form, ds, hs, hedit, hne⟩
        exact .nothing place
      · exact hwrites
    exact ⟨[], hwrites, by simp, fun span form ds hs hedit hne =>
      absurd ⟨span, form, ds, hs, hedit, hne⟩ hexport⟩

/-- The variables that an export introduces, and those of them that are found. -/
theorem exists_introduces (hp : program source = .ok p) (hs : .exporting span form ds ∈ p.body) :
    ∃ bs, form.Introduces source bs ∧ IsFound form (BoundName.seen bs) := by
  have hbound := program_bound hp _ hs
  by_cases hform : ∃ word d ps, d.binds = .patterns ps ∧ form = .declaration false word d
  · obtain ⟨word, d, ps, hd, rfl⟩ := hform
    obtain ⟨bs, hbs, hnames⟩ := hbound ps hd
    refine ⟨bs, .declared hd hbs, fun word' d' ps' heq hd' => ?_⟩
    cases heq
    exact hnames
  · refine ⟨[], .other fun word d ps hd heq => hform ⟨word, d, ps, hd, heq⟩, ?_⟩
    exact fun word d ps heq hd => absurd ⟨word, d, ps, hd, heq⟩ hform

/-- What `exists_introduces` gives, for all exports of a program. -/
theorem exists_bound (hp : program source = .ok p) (form : ExportForm) :
    ∃ bs, ∀ span ds, .exporting span form ds ∈ p.body →
      form.Introduces source bs ∧ IsFound form (BoundName.seen bs) := by
  by_cases h : ∃ span ds, .exporting span form ds ∈ p.body
  · obtain ⟨span, ds, hs⟩ := h
    obtain ⟨bs, hbs⟩ := exists_introduces hp hs
    exact ⟨bs, fun _ _ _ => hbs⟩
  · exact ⟨[], fun span ds hs => absurd ⟨span, ds, hs⟩ h⟩

end CommonForm

/-- The texts that a common form writes assign just the entries of the exports of the program, each
inside its statement, but for the variables that stand as an element `undefined` in a pattern. They
copy the names of a module only for an export of all names without a name of its own. The access to
an exported name denotes that name unless it is a word with an escape in it. -/
theorem commonForm_exports {source : List Char} {p : Program} (hp : program source = .ok p) :
    ∃ (bound : ExportForm → List BoundName) (ws : List (Edit × List (List Char × Exported)))
      (text : List Char), commonForm source = .ok text ∧
      Edit.Written 0 (ws.map Prod.fst) source text ∧ (∀ w ∈ ws, CommonForm.Writes p w.1 w.2) ∧
      (∀ span form ds, .exporting span form ds ∈ p.body →
        form.Introduces source (bound form) ∧
        ∀ n v, form.Entry (BoundName.seen (bound form)) n v → ∃ w ∈ ws,
          span.start ≤ w.1.span.start ∧ w.1.span.stop ≤ span.stop ∧ (n, v) ∈ w.2) ∧
      (∀ w ∈ ws, ∀ n v, (n, v) ∈ w.2 → ∃ span form ds, .exporting span form ds ∈ p.body ∧
        span.start ≤ w.1.span.start ∧ w.1.span.stop ≤ span.stop ∧
        form.Entry (BoundName.seen (bound form)) n v) ∧
      ∀ name units, Names name units → (∃! denoted, Accesses (CommonForm.member name) denoted) ∧
        (Accesses (CommonForm.member name) units ↔ IsLiteral name ∨ '\\' ∉ name) := by
  choose bound hbound using CommonForm.exists_bound hp
  choose! written hwrites hentries hall using
    fun (e : Edit) (he : e ∈ CommonForm.edits p) => CommonForm.exists_written hp he
  -- each edit that is kept, with what it assigns
  let kept := Edit.kept 0 (Edit.sort (CommonForm.edits p))
  have hmem {e : Edit} (he : e ∈ kept) : e ∈ CommonForm.edits p :=
    (Edit.sort_perm _).mem_iff.mp ((Edit.scan_kept _ _).mem e he)
  refine ⟨bound, kept.map fun e => (e, written e), _, CommonForm.commonForm_eq hp, ?_, ?_, ?_, ?_,
    fun _ _ => CommonForm.member_accesses⟩
  · rw [List.map_map]
    simpa [Function.comp_def] using CommonForm.text_written hp
  · intro w hw
    obtain ⟨e, he, rfl⟩ := List.mem_map.mp hw
    exact hwrites e (hmem he)
  · intro span form ds hs
    obtain ⟨hintroduces, hfound⟩ := hbound form span ds hs
    refine ⟨hintroduces, fun n v hentry => ?_⟩
    have hin := (CommonForm.mem_entries hfound).mpr hentry
    obtain ⟨e, he, hne⟩ := CommonForm.exists_writing span (List.ne_nil_of_mem hin)
    have hkept := CommonForm.exportEdits_kept hp hs e he
    have hbetween := CommonForm.between_of_mem hp hs (.inr he)
    refine ⟨_, List.mem_map_of_mem hkept, hbetween.low_le, hbetween.le_high, ?_⟩
    exact hall e (hmem hkept) span form ds hs he hne ▸ hin
  · intro w hw n v hnv
    obtain ⟨e, he, rfl⟩ := List.mem_map.mp hw
    obtain ⟨span, form, ds, hs, hedit, hin⟩ := hentries e (hmem he) (n, v) hnv
    have hbetween := CommonForm.between_of_mem hp hs (.inr hedit)
    exact ⟨span, form, ds, hs, hbetween.low_le, hbetween.le_high,
      (CommonForm.mem_entries (hbound form span ds hs).2).mp hin⟩

/-- Names that a nested pattern binds, and a module under a name that is a literal. -/
def exporter : List Char :=
  "export const \x7b a, b: [c = 1, ...d] \x7d = e; export * as 'f g' from './f';".toList

theorem program_exporter : (program exporter).toOption.any (fun p => match p.body with
    | [.exporting _ (.declaration false _ ⟨_, .patterns _, _⟩) _,
        .exporting _ (.namespace name _) _] => name.text == "'f g'".toList
    | _ => false) = true := by
  decide +kernel

theorem commonForm_exports_exporter :
    ∃ (p : Program) (ws : List (Edit × List (List Char × Exported))) (text : List Char),
      program exporter = .ok p ∧ commonForm exporter = .ok text ∧
      Edit.Written 0 (ws.map Prod.fst) exporter text ∧ (∀ w ∈ ws, CommonForm.Writes p w.1 w.2) ∧
      (∃ (d : Declaration) (bs : List BoundName), d.Introduces exporter bs ∧
        ∀ n ∈ BoundName.seen bs, ∃ w ∈ ws, (n, .binding n) ∈ w.2) ∧
      ∃ w ∈ ws, ∃ l, ("'f g'".toList, .module l) ∈ w.2 := by
  have hprogram := program_exporter
  cases hp : program exporter with
  | error e => simp [hp, Except.toOption] at hprogram
  | ok p =>
    rw [hp, Except.toOption, Option.any_some] at hprogram
    split at hprogram
    · rename_i span word stop ps parts ds span' name l ds' hbody
      obtain ⟨bound, ws, text, hform, hwritten, hwrites, hall, -⟩ := commonForm_exports hp
      rw [hbody] at hall
      obtain ⟨hintroduces, hassigned⟩ := hall _ _ _ List.mem_cons_self
      obtain ⟨-, hstar⟩ := hall _ _ _ (List.mem_cons_of_mem _ List.mem_cons_self)
      refine ⟨p, ws, text, rfl, hform, hwritten, hwrites, ?_, ?_⟩
      · generalize bound _ = bs at hintroduces hassigned
        cases hintroduces with
        | declared hd hbs =>
          refine ⟨_, _, hbs, fun n hn => ?_⟩
          obtain ⟨w, hw, -, -, hmem⟩ := hassigned n _ (.declared rfl hn)
          exact ⟨w, hw, hmem⟩
        | other hother => exact absurd rfl (hother _ _ _ rfl)
      · obtain ⟨w, hw, -, -, hmem⟩ := hstar _ _ .star
        exact ⟨w, hw, l, beq_iff_eq.mp hprogram ▸ hmem⟩
    · cases hprogram

/-- An export under a name that is written with an escape. -/
def escapedName : List Char := "export \x7b a as \\u0062 \x7d;".toList

theorem program_escapedName : (program escapedName).toOption.any (fun p => match p.body with
    | [.exporting _ (.names [⟨_, some a⟩] none) _] => a.text == "\\u0062".toList
    | _ => false) = true := by
  decide +kernel

theorem names_escaped : Names "\\u0062".toList [0x62] := by
  have hcode : UnicodeEscape "0062".toList 0x62 := .four (by decide) (by decide)
  exact .word (by decide) (by simp) (.escape hcode .nil)

theorem not_accesses_escaped : ¬ Accesses (CommonForm.member "\\u0062".toList) [0x62] := by
  rw [(CommonForm.member_accesses names_escaped).2, not_or, not_not]
  refine ⟨?_, by decide⟩
  rintro ⟨c, hc, hquote⟩
  cases hc
  exact absurd hquote (by decide)

/-- The access to an exported name need not denote the name. -/
theorem not_commonForm_exports :
    ¬ ∀ (source : List Char) (p : Program), program source = .ok p →
      ∀ span form ds, .exporting span form ds ∈ p.body → ∀ bs, form.Introduces source bs →
        ∀ name v, form.Entry (bs.map BoundName.word) name v →
          ∀ units, Names name units → Accesses (CommonForm.member name) units := by
  intro h
  have hprogram := program_escapedName
  cases hp : program escapedName with
  | error e => simp [hp, Except.toOption] at hprogram
  | ok p =>
    rw [hp, Except.toOption, Option.any_some] at hprogram
    split at hprogram
    · rename_i span name alias_ ds hbody
      have hentry : (ExportForm.names [⟨name, some alias_⟩] none).Entry [] alias_.text
          (.binding name.text) := .item (List.mem_singleton_self _)
      have hmem : .exporting span _ ds ∈ p.body := hbody ▸ List.mem_singleton_self _
      have hbound : (ExportForm.names [⟨name, some alias_⟩] none).Introduces escapedName [] :=
        .other fun _ _ _ _ heq => by cases heq
      have hdenotes := h escapedName p hp span _ ds hmem [] hbound _ _ hentry [0x62]
      rw [beq_iff_eq.mp hprogram] at hdenotes
      exact not_accesses_escaped (hdenotes names_escaped)
    · cases hprogram

end Bundler.JavaScript
