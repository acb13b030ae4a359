import Bundler.JavaScript.Grammar

/-! Property names, the patterns of declarations and assignments, and parameter lists. -/
namespace Bundler.JavaScript.Syntax
open Bundler.JavaScript.Parser

/-- The name of a property. -/
inductive PropertyName where
  | word (text : Lexeme)
  /-- A string, number, private name or computed name, with the code inside it. -/
  | other (parts : List Node)

def PropertyName.parts : PropertyName → List Node
  | word _ => []
  | other ps => ps

def propertyName (g : Grammar) : Parser PropertyName := do
  skipMarkup
  match (← cursor).rest with
  | '[' :: _ =>
    symbol "["
    let e ← g.expression .inner
    symbol "]"
    return .other [e]
  | '"' :: _ | '\x27' :: _ =>
    let _ ← string
    return .other []
  | '#' :: _ =>
    privateName
    return .other []
  | cs =>
    if 0 < numberLength cs then
      number
      return .other []
    else return .word (← word)

/-- A pattern with the value it takes when there is none. -/
def patternItem (g : Grammar) : Parser Pattern := do
  let p ← g.pattern
  if ← isAssignAhead then
    symbol "="
    return .withDefault p (← g.expression .inner)
  else return p

/-- A pattern of brackets inside an object pattern, which has to have a value. -/
def nestedMember (g : Grammar) : Parser Pattern := do
  let p ← g.pattern
  symbol "="
  return .withDefault p (← g.expression .inner)

def namedMember (g : Grammar) : Parser Pattern := do
  let name ← propertyName g
  match name, (← ahead).head? with
  | _, some ':' =>
    symbol ":"
    return .field name.parts (← patternItem g)
  | .word w, some '=' =>
    symbol "="
    return .withDefault (.name w) (← g.expression .inner)
  | .word w, _ => return .name w
  | .other _, _ => fail

/-- A member of an object pattern. -/
def patternMember (g : Grammar) : Parser Pattern := do
  match ← ahead with
  | '.' :: '.' :: '.' :: _ => g.pattern
  | '{' :: _ => nestedMember g
  | '[' :: _ => orElse (namedMember g) (nestedMember g)
  | _ => namedMember g

def objectPattern (g : Grammar) : Parser Pattern := do
  symbol "\x7b"
  return .object (← listTo "\x7d" (patternMember g) g.bound)

def arrayPattern (g : Grammar) : Parser Pattern := do
  symbol "["
  return .array (← listTo "]" (patternItem g) g.bound)

def destructuring (g : Grammar) : Parser Pattern := do
  if ← isAhead "\x7b" then objectPattern g else arrayPattern g

def isDestructuringAhead : Parser Bool := do
  match ← ahead with
  | '{' :: _ | '[' :: _ => return true
  | _ => return false

/-- The target of a declaration of variables. -/
def declared (g : Grammar) : Parser Pattern := do
  if ← isDestructuringAhead then destructuring g else return .name (← word)

def parameters (g : Grammar) : Parser (List Node) := do
  symbol "("
  return Pattern.partsOf (← strictListTo ")" (patternItem g) g.bound)

end Bundler.JavaScript.Syntax
