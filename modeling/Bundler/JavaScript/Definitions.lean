import Bundler.JavaScript.Patterns

/-! Blocks, functions, classes and the members of objects and classes. -/
namespace Bundler.JavaScript.Syntax
open Bundler.JavaScript.Parser

/-- Statements up to a closing brace. -/
def statementsTo (g : Grammar) (stop : Parser Bool) : Parser (List Node) := do
  let ss ← manyUntil (do skipMarkup; stop) g.statement g.bound
  return ss.map Statement.node

/-- Moves to where a semicolon is implied, if it is; a brace may take one. -/
def closing (afterExpression : Bool) : Parser Unit := fun c =>
  .ok ((), (c.impliedSemicolon? afterExpression).getD c)

def block (g : Grammar) (afterExpression : Bool) : Parser Node :=
  piece do
    symbol "\x7b"
    let ss ← statementsTo g (isAhead "\x7d")
    symbol "\x7d"
    closing afterExpression
    return ss

/-- The parameters and the body of a function. -/
def functionRest (g : Grammar) (afterExpression : Bool) : Parser (List Node) := do
  let ps ← parameters g
  return ps ++ [← block g afterExpression]

/-- The word `function`, with the star of a generator. -/
def functionWord : Parser Unit := do
  openingWord "function"
  let _ ← optional "*"
  skipMarkup

/-- A function with or without a name. -/
def function (g : Grammar) : Parser (List Node) := do
  let _ ← optionalWord "async"
  functionWord
  if (← wordAhead).isSome then
    let _ ← word
  functionRest g true

/-! ### Arguments -/

/-- Reads a comment in the form of markup, to the end of its line. -/
def markupComment : Parser Unit := do
  skip
  take ((← cursor).rest.takeWhile fun x => !isLineEnd x).length

/-- A value, or a list whose members are handed on. -/
def argument (g : Grammar) : Parser Node := do
  if ← isAhead "..." then
    piece do
      symbol "..."
      return [← g.expression .inner]
  else g.expression .inner

/-- Reads arguments between commas up to the closing bracket; any of them may be left out. A
comment in the form of markup counts as one, as no other comment does. -/
def argumentsTo (g : Grammar) : Nat → Parser (List Node)
  | 0 => fail
  | n + 1 => do
    if opensMarkupComment (← ahead) then
      let comment ← piece do
        markupComment
        return []
      return comment :: (← argumentsTo g n)
    if ← optional ")" then return []
    if ← optional "," then argumentsTo g n
    else
      let a ← argument g
      if ← optional "," then return a :: (← argumentsTo g n)
      symbol ")"
      return [a]

/-- The arguments of a call. -/
def arguments (g : Grammar) : Parser (List Node) := do
  symbol "("
  argumentsTo g g.bound

/-! ### Decorators -/

/-- The names and calls of a decorator. -/
def decoratorTail (g : Grammar) (start : Nat) : Nat → Node → Parser Node
  | 0, _ => fail
  | n + 1, node => do
    if ← optional "." then
      skipMarkup
      let _ ← word
      decoratorTail g start n (.other ⟨start, (← cursor).pos⟩ [node])
    else if ← isAhead "(" then
      let args ← arguments g
      return .call ⟨start, (← cursor).pos⟩ node args
    else return node

def decorator (g : Grammar) : Parser Node :=
  piece do
    symbol "@"
    skipMarkup
    let w ← word
    return [← decoratorTail g w.span.start g.bound (.name w)]

def decorators (g : Grammar) : Parser (List Node) :=
  manyUntil (return !(← isAhead "@")) (decorator g) g.bound

/-! ### Members -/

/-- Whether what follows a word shows that the word is itself a member's name, and no
modifier of the name that follows. -/
def isMemberName : Parser Bool := do
  match (← ahead).head? with
  | none => return true
  | some c => return "(=;:,\x7d".toList.contains c

/-- Reads a modifier of a member, such as `static`, unless the word is a name. A field
name may stand on a line of its own. -/
def modifier (isField : Bool) (text : String) : Parser Bool := do
  let start ← cursor
  if ← isWordAhead text then
    keyword text
    if (← isMemberName) || isField && (← semicolonImplied false) then
      goto start
      return false
    return true
  else return false

/-- The words `static get` at the end of a line modify the name on the next one. -/
def staticGetLength? (cs : List Char) : Option Nat := do
  let rest ← after? "static".toList cs
  let blanks := (rest.takeWhile isSpace).length
  let rest ← after? "get".toList (rest.drop blanks)
  let more := rest.takeWhile isSpace
  if blanks = 0 || !more.contains '\n' then none
  else
    let upToLast := (more.reverse.dropWhile (· != '\n')).length
    some (9 + blanks + upToLast)

/-- Reads the modifiers of a member and tells whether it has to be a method, which a static
member of an object has to be and one of a class has not. -/
def modifiers (isField : Bool) : Parser Bool := do
  let isStatic ← match staticGetLength? (← ahead), isField with
    | some n, true =>
      skip
      take n
      pure true
    | _, _ => modifier isField "static"
  let isAsync ← modifier isField "async"
  if ← optional "*" then return true
  if ← modifier isField "get" then return true
  if ← modifier isField "set" then return true
  return isAsync || isStatic && !isField

/-- A member of an object literal. -/
def objectMember (g : Grammar) : Parser (List Node) := do
  if ← optional "..." then return [← g.expression .inner]
  let ds ← decorators g
  let isMethod ← modifiers false
  let name ← propertyName g
  match (← ahead).head?, name with
  | some '(', _ => return ds ++ name.parts ++ (← functionRest g false)
  | some ':', _ =>
    if isMethod || !ds.isEmpty then fail
    symbol ":"
    return name.parts ++ [← g.expression .inner]
  | _, .word _ => if isMethod || !ds.isEmpty then fail else return []
  | _, _ => fail

def objectLiteral (g : Grammar) : Parser (List Node) := do
  symbol "\x7b"
  return (← listTo "\x7d" (objectMember g) g.bound).flatten

/-- A field of a class with its semicolon. -/
def field (g : Grammar) : Parser (List Node) := do
  if ← optional "=" then
    let e ← g.expression .statement
    semicolon true
    return [e]
  else
    semicolon false
    return []

/-- A block that runs when its class is defined. -/
def staticBlock (g : Grammar) : Parser (List Node) := do
  keyword "static"
  return [← block g false]

/-- A member of a class. -/
def classMember (g : Grammar) : Parser (List Node) := do
  if ← optional ";" then return []
  if ← accepts (do keyword "static"; symbol "\x7b") then staticBlock g
  else
    let ds ← decorators g
    let isMethod ← modifiers true
    let name ← propertyName g
    if ← isAhead "(" then return ds ++ name.parts ++ (← functionRest g false)
    if isMethod then fail
    return ds ++ name.parts ++ (← field g)

/-- The heritage and the body of a class. -/
def classRest (g : Grammar) : Parser (List Node) := do
  let heritage ←
    if ← optionalWord "extends" then
      let e ← g.expression .inner
      pure [e]
    else pure []
  symbol "\x7b"
  let ms ← manyUntil (do skipMarkup; isAhead "\x7d") (classMember g) g.bound
  symbol "\x7d"
  return heritage ++ ms.flatten

/-- Whether the name of a class comes next. -/
def isClassNameAhead : Parser Bool := do
  match ← wordAhead with
  | some w => return w != "extends"
  | none => return false

/-- A class with or without a name. -/
def classLiteral (g : Grammar) : Parser (List Node) := do
  let ds ← decorators g
  openingWord "class"
  if ← isClassNameAhead then
    let _ ← word
  return ds ++ (← classRest g)

end Bundler.JavaScript.Syntax
