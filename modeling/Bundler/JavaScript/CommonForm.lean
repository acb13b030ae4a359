import Bundler.Edit
import Bundler.JavaScript.Calls
import Bundler.Text.Quoted

/-! The common form of a module: every import and export becomes a call of `require` or
an assignment on `exports`, by edits of the statements concerned. All other text stays
as it is. -/
namespace Bundler.JavaScript.CommonForm

/-- The helper that unwraps the default export of a module. -/
def interopHelper : String := "_interopRequireDefault"

def interopDefinition : String :=
  "function _interopRequireDefault(obj) \x7b return obj && obj.__esModule ? obj : \x7b default: obj \x7d; \x7d\n"

def moduleFlag : String :=
  "Object.defineProperty(exports, \"__esModule\", \x7b value: true \x7d);\n"

/-- Words that may follow a point. -/
def isPlainName (s : List Char) : Bool :=
  match s with
  | [] => false
  | c :: cs =>
    (c.isAlpha || c == '_' || c == '$') && cs.all fun d => d.isAlphanum || d == '_' || d == '$'

/-- Access to the property of a name, which may be given as a string literal. -/
def member (name : List Char) : List Char :=
  if isPlainName name then '.' :: name
  else if name.head? == some '"' || name.head? == some '\x27' then '[' :: name ++ [']']
  else '[' :: Text.quoted name ++ [']']

def joined (separator : String) (pieces : List (List Char)) : List Char :=
  separator.toList.intercalate pieces

/-- The call that loads a module, given the literal that names it. -/
def requireCall (source : Lexeme) : List Char := "require(".toList ++ source.text ++ [')']

/-- `exports.name = value;` -/
def assignment (exported value : List Char) : List Char :=
  "exports".toList ++ member exported ++ " = ".toList ++ value ++ [';']

/-- `var target = value;` -/
def variable_ (target value : List Char) : List Char :=
  "var ".toList ++ target ++ " = ".toList ++ value ++ [';']

/-! ### Imports -/

def importItem (i : ListItem) : List Char :=
  match i.alias_ with
  | some a => i.name.text ++ ": ".toList ++ a.text
  | none => i.name.text

def importPart (load : List Char) : ImportPart → List Char
  | .default w => variable_ w.text (interopHelper.toList ++ '(' :: load ++ ").default".toList)
  | .namespace w => variable_ w.text load
  | .names [] => load ++ [';']
  | .names items =>
    variable_ ("\x7b ".toList ++ joined ", " (items.map importItem) ++ " \x7d".toList) load

/-- The statements that stand for an import. -/
def importText (clause : Option (List ImportPart)) (source : Lexeme) : List Char :=
  match clause with
  | none => requireCall source ++ [';']
  | some parts => joined " " (parts.map (importPart (requireCall source)))

/-! ### Exports -/

/-- Copies every property but the default one, unless it is there already. -/
def copyAll (load : List Char) : List Char :=
  "(function (m) \x7b Object.keys(m).forEach(function (k) \x7b if (k !== \"default\" && !Object.prototype.hasOwnProperty.call(exports, k)) exports[k] = m[k]; \x7d); \x7d)(".toList
    ++ load ++ ");".toList

/-- The name an item is exported under. -/
def exportedName (i : ListItem) : List Char := (i.alias_.getD i.name).text

/-- The assignments of the names that a declaration exports. -/
def declarationText (isDefault : Bool) (d : Declaration) : List Char :=
  match d.binds, isDefault with
  | .definition w, true => assignment "default".toList w.text
  | .patterns _, true => []
  | binds, false => joined " " (binds.names.map fun n => assignment n n)

/-- The edits that make an export part of the common form. -/
def exportEdits (span : Span) : ExportForm → List Edit
  | .all source => [⟨span, copyAll (requireCall source)⟩]
  | .namespace name source => [⟨span, assignment name.text (requireCall source)⟩]
  | .names items (some source) =>
    [⟨span, joined " " (items.map fun i =>
      assignment (exportedName i) (requireCall source ++ member i.name.text))⟩]
  | .names items none =>
    [⟨span, joined " " (items.map fun i => assignment (exportedName i) i.name.text)⟩]
  | .declaration isDefault word d =>
    let text := declarationText isDefault d
    ⟨⟨word, d.span.start⟩, []⟩ ::
      (if text.isEmpty then [] else [Edit.insert span.stop ('\n' :: text)])
  | .value word node => [⟨⟨word, node.span.start⟩, "exports.default = ".toList⟩]

/-! ### The whole program -/

def statementEdits : Statement → List Edit
  | .importing span clause source _ => [⟨span, importText clause source⟩]
  | .exporting span form _ => exportEdits span form
  | _ => []

/-- A dynamic import becomes a promise of the module. -/
def dynamicEdits : Node → List Edit
  | .call span (.importWord word) _ =>
    [⟨word, "Promise.resolve().then(() => require".toList⟩, Edit.insert span.stop [')']]
  | _ => []

def usesInterop (p : Program) : Bool :=
  p.body.any fun
    | .importing _ (some parts) _ _ => parts.any fun
      | .default _ => true
      | _ => false
    | _ => false

def hasExports (p : Program) : Bool :=
  p.body.any fun
    | .exporting .. => true
    | _ => false

/-- The statements that go in front of the program. -/
def prelude (p : Program) : List Char :=
  (if hasExports p then moduleFlag.toList else []) ++
    (if usesInterop p then interopDefinition.toList else [])

/-- The end of the directives that open a program. -/
def directivesEnd (start : Nat) : List Statement → Nat
  | .directive span _ :: ss => directivesEnd span.stop ss
  | _ => start

/-- Where the prelude goes: behind the line of the interpreter and the directives. -/
def preludePosition (p : Program) : Nat :=
  directivesEnd ((p.interpreter.map Span.stop).getD 0) p.body

def preludeEdits (p : Program) : List Edit :=
  match prelude p with
  | [] => []
  | text =>
    if preludePosition p = 0 then [Edit.insert 0 text]
    else [Edit.insert (preludePosition p) ('\n' :: text.dropLast)]

/-- All edits. Those of dynamic imports come first, so that of two insertions at one
place the closing bracket stands before the assignment of an export. -/
def edits (p : Program) : List Edit :=
  p.calls.flatMap dynamicEdits ++ p.body.flatMap statementEdits ++ preludeEdits p

/-- The common form of a program that was read from `source`. -/
def text (source : List Char) (p : Program) : List Char := Edit.apply source (edits p)

end Bundler.JavaScript.CommonForm
