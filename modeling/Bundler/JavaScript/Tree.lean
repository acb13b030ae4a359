import Bundler.Text.Span

/-! The syntax tree of a program, as far as a bundler looks into it: names, string
literals and calls are told apart, and every other construct is the list of its
parts. Module statements and the patterns of declarations are given in full. -/
namespace Bundler.JavaScript

/-- A piece of source text and where it stands. -/
structure Lexeme where
  span : Span
  text : List Char
deriving DecidableEq, Inhabited

/-- An expression or any other piece of code. -/
inductive Node where
  | name (word : Lexeme)
  | string (literal : Lexeme)
  /-- A template literal with the parts of its substitutions. -/
  | template (literal : Lexeme) (parts : List Node)
  /-- A call; the callee of a dynamic import is the word `import`. -/
  | call (span : Span) (callee : Node) (arguments : List Node)
  /-- A template literal that is given to a function. -/
  | tagged (span : Span) (tag : Node) (template : Node)
  | importWord (span : Span)
  | other (span : Span) (parts : List Node)
deriving Inhabited

namespace Node

def span : Node → Span
  | name w => w.span
  | string l | template l _ => l.span
  | call s .. | tagged s .. | importWord s | other s _ => s

end Node

/-- The target of a declaration. -/
inductive Pattern where
  | name (word : Lexeme)
  | object (items : List Pattern)
  | array (items : List Pattern)
  | rest (target : Pattern)
  /-- A member of an object pattern whose key is written out. -/
  | field (key : List Node) (value : Pattern)
  | withDefault (target : Pattern) (value : Node)
  /-- An expression that names a place, such as a member of an object. -/
  | place (target : Node)
deriving Inhabited

namespace Pattern

mutual

/-- The code inside a pattern, in order. -/
def parts : Pattern → List Node
  | name _ => []
  | object items | array items => partsOf items
  | rest target => parts target
  | field key value => key ++ parts value
  | withDefault target value => parts target ++ [value]
  | place target => [target]

def partsOf : List Pattern → List Node
  | [] => []
  | p :: ps => parts p ++ partsOf ps

end

mutual

/-- The names a pattern binds, in order. -/
def names : Pattern → List (List Char)
  | name w => [w.text]
  | object items | array items => namesOf items
  | rest target => names target
  | field _ value => names value
  | withDefault target _ => names target
  | place _ => []

def namesOf : List Pattern → List (List Char)
  | [] => []
  | p :: ps => names p ++ namesOf ps

end
end Pattern

/-- What a declaration binds. -/
inductive Binds where
  | patterns (targets : List Pattern)
  | definition (word : Lexeme)
deriving Inhabited

def Binds.names : Binds → List (List Char)
  | patterns ps => Pattern.namesOf ps
  | definition w => [w.text]

/-- A declaration of variables, a function or a class. -/
structure Declaration where
  span : Span
  binds : Binds
  parts : List Node
deriving Inhabited

/-- An item of an import or export list, `name as alias`. -/
structure ListItem where
  name : Lexeme
  alias_ : Option Lexeme
deriving Inhabited

inductive ImportPart where
  | default (name : Lexeme)
  | namespace (name : Lexeme)
  | names (items : List ListItem)
deriving Inhabited

inductive ExportForm where
  | all (source : Lexeme)
  | namespace (name : Lexeme) (source : Lexeme)
  | names (items : List ListItem) (source : Option Lexeme)
  /-- A declaration behind the word `export`, which starts at `word`. -/
  | declaration (isDefault : Bool) (word : Nat) (declaration : Declaration)
  | value (word : Nat) (node : Node)
deriving Inhabited

inductive Statement where
  /-- An import without a clause runs a module for its effects. -/
  | importing (span : Span) (clause : Option (List ImportPart)) (source : Lexeme)
      (attributes : List Node)
  | exporting (span : Span) (form : ExportForm) (decorators : List Node)
  /-- An expression statement that holds just a string. -/
  | directive (span : Span) (literal : Lexeme)
  | declaration (declaration : Declaration)
  /-- A comment in the form of markup, which stands among the statements. -/
  | markupComment (span : Span)
  | other (span : Span) (parts : List Node)
deriving Inhabited

namespace ExportForm

/-- All that a module exports, under one name if there is one. -/
def star (name : Option Lexeme) (source : Lexeme) : ExportForm :=
  match name with
  | some n => .namespace n source
  | none => .all source

def parts : ExportForm → List Node
  | declaration _ _ d => d.parts
  | value _ n => [n]
  | _ => []

end ExportForm

namespace Statement

def span : Statement → Span
  | importing s .. | exporting s .. | directive s _ | markupComment s | other s _ => s
  | declaration d => d.span

/-- The code inside a statement, in order. -/
def parts : Statement → List Node
  | importing _ _ _ attributes => attributes
  | exporting _ form decorators => decorators ++ form.parts
  | directive _ l => [.string l]
  | declaration d => d.parts
  | markupComment _ => []
  | other _ ps => ps

/-- A statement inside another one. -/
def node (s : Statement) : Node := .other s.span s.parts

end Statement

/-- A whole source: the line that names an interpreter, then the statements. -/
structure Program where
  interpreter : Option Span
  body : List Statement
deriving Inhabited

end Bundler.JavaScript
