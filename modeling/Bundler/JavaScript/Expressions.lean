import Bundler.JavaScript.Definitions
import Bundler.JavaScript.Markup

/-! Expressions. Only the calls in an expression matter, so operators are not nested by
precedence: an expression is an operand, or an operand, an operator and an expression. -/
namespace Bundler.JavaScript.Syntax
open Bundler.JavaScript.Parser

/-- What may be done with an operand. -/
inductive Role where
  | name
  /-- The word `undefined`, which can be assigned to but not updated. -/
  | undefinedName
  | member
  | group
  /-- Any other operand that a template or an optional call may follow. -/
  | primary
  | other
deriving DecidableEq

/-- An operand and its role. -/
structure Operand where
  node : Node
  role : Role

/-! ### Primary operands -/

/-- The text and the substitutions of a template behind its first quote. -/
def templateRest (g : Grammar) : Nat → Parser (List Node)
  | 0 => fail
  | n + 1 => do
    let here ← cursor
    match templateText? here.rest with
    | none => fun _ => .error here.pos
    | some k =>
      take k
      match (← cursor).rest with
      | '$' :: '{' :: _ =>
        take 2
        let es ← g.expressions .inner
        symbol "\x7d"
        return es ++ (← templateRest g n)
      | '\\' :: cs =>
        match escapeLength? ('\\' :: cs) with
        | some k =>
          take k
          templateRest g n
        | none => fail
      | _ =>
        take 1
        return []

def template (g : Grammar) : Parser Node := fun c =>
  let start := c.skip
  match (do symbol "\x60"; templateRest g g.bound : Parser (List Node)) start with
  | .ok (parts, d) =>
    .ok (.template ⟨⟨start.pos, d.pos⟩, Text.take (d.pos - start.pos) start.rest⟩ parts, d)
  | .error e => .error e

def arrayLiteral (g : Grammar) : Parser (List Node) := do
  symbol "["
  listTo "]" item g.bound
where
  item : Parser Node := do
    let _ ← optional "..."
    g.expression .inner

/-- The end of an operand that starts at `start`. -/
def ended (start : Nat) (parts : List Node) (role : Role) : Parser Operand := fun c =>
  .ok (⟨.other ⟨start, c.pos⟩ parts, role⟩, c)

/-- What follows the word `import` in an expression: a call or a property. -/
def importRest (g : Grammar) (word_ : Lexeme) : Parser Operand := do
  skipMarkup
  if ← isAhead "(" then
    let args ← arguments g
    return ⟨.call ⟨word_.span.start, (← cursor).pos⟩ (.importWord word_.span) args, .primary⟩
  else
    symbol "."
    let property ← word
    ended word_.span.start []
      (if property.text == "meta".toList then .primary else .member)

/-- What follows the word `new`. -/
def newRest (g : Grammar) (start : Nat) : Parser Operand := do
  if ← optional "." then
    keyword "target"
    ended start [] .primary
  else
    skipMarkup
    let constructor ← g.constructed
    let args ← if ← isAhead "(" then arguments g else pure []
    ended start (constructor :: args) .primary

/-- An operand that starts with a word. -/
def wordOperand (g : Grammar) : Parser Operand := do
  let start ← cursor
  match ← wordAhead with
  | some "function" => ended start.pos (← function g) .primary
  | some "class" => ended start.pos (← classLiteral g) .primary
  | some "import" => importRest g (← word)
  | some "new" =>
    keyword "new"
    newRest g start.pos
  | some "undefined" =>
    let _ ← word
    ended start.pos [] .undefinedName
  | some "async" =>
    if ← accepts (do keyword "async"; keyword "function") then
      ended start.pos (← function g) .primary
    else return ⟨.name (← word), .name⟩
  | some w =>
    if ["this", "super", "true", "false", "null"].contains w then
      let _ ← word
      ended start.pos [] .primary
    else if ["typeof", "void", "delete", "await", "yield", "using"].contains w then fail
    else return ⟨.name (← word), .name⟩
  | none => fail

/-- An operand without prefix operators and without anything behind it. -/
def primary (g : Grammar) : Parser Operand := do
  skipMarkup
  let start ← cursor
  match start.rest with
  | '(' :: _ => ended start.pos (← g.parenthesized) .group
  | '[' :: _ => ended start.pos (← arrayLiteral g) .primary
  | '{' :: _ => ended start.pos (← objectLiteral g) .primary
  | '"' :: _ | '\x27' :: _ => return ⟨.string (← string), .primary⟩
  | '\x60' :: _ => return ⟨← template g, .primary⟩
  | '/' :: _ =>
    regularExpression
    ended start.pos [] .primary
  | '@' :: _ => ended start.pos (← classLiteral g) .primary
  | '<' :: _ => return ⟨← element g, .other⟩
  | cs =>
    if 0 < numberLength cs then
      number
      ended start.pos [] .primary
    else wordOperand g

/-! ### Members, calls and updates -/

/-- A property behind a point. -/
def property : Parser Unit := do
  skipMarkup
  if ← isAhead "#" then privateName
  else
    let _ ← word

/-- A subscript in brackets. -/
def subscript (g : Grammar) : Parser (List Node) := do
  symbol "["
  let es ← g.expressions .inner
  symbol "]"
  return es

/-- What follows the point of an optional chain. -/
def optionalRest (g : Grammar) (o : Operand) : Parser Operand := do
  let start := o.node.span.start
  match (← ahead).head? with
  | some '[' => ended start (o.node :: (← subscript g)) .member
  | some '(' =>
    if o.role == .other then fail
    let args ← arguments g
    return ⟨.call ⟨start, (← cursor).pos⟩ o.node args, .primary⟩
  | _ =>
    property
    ended start [o.node] .member

/-- An update operator and what follows it, unless it starts a new statement on its line. -/
def update (cx : Context) (calls : Bool) (more : Operand → Parser Operand) (o : Operand)
    (text : String) : Parser Operand := do
  if !calls || cx.ends && (← semicolonImplied true) then return o
  else
    symbol text
    more (← ended o.node.span.start [o.node] .other)

/-- Reads what may follow an operand, as long as there is more. -/
def postfix_ (g : Grammar) (cx : Context) (calls : Bool) : Nat → Operand → Parser Operand
  | 0, _ => fail
  | n + 1, o => do
    let start := o.node.span.start
    match ← ahead with
    | '.' :: _ =>
      symbol "."
      property
      postfix_ g cx calls n (← ended start [o.node] .member)
    | '?' :: '.' :: cs =>
      if cs.head?.any Char.isDigit then return o
      else
        symbol "?."
        postfix_ g cx calls n (← optionalRest g o)
    | '[' :: _ =>
      postfix_ g cx calls n (← ended start (o.node :: (← subscript g)) .member)
    | '(' :: _ =>
      if calls then
        let args ← arguments g
        postfix_ g cx calls n ⟨.call ⟨start, (← cursor).pos⟩ o.node args, .primary⟩
      else return o
    | '\x60' :: _ =>
      if o.role == .other then return o
      else
        let t ← template g
        postfix_ g cx calls n ⟨.tagged ⟨start, (← cursor).pos⟩ o.node t, .primary⟩
    | '+' :: '+' :: _ => update cx calls (postfix_ g cx calls n) o "++"
    | '-' :: '-' :: _ => update cx calls (postfix_ g cx calls n) o "--"
    | _ => return o

/-- A name, member or call, as it stands in patterns and loop headers. -/
def reference (g : Grammar) : Parser Operand := do
  postfix_ g .inner true g.bound (← primary g)

/-- What `new` applies to: an operand whose arguments are left to `new`. -/
def constructed (g : Grammar) : Parser Node := do
  return (← postfix_ g .inner false g.bound (← primary g)).node

/-- The target of an assignment or a parameter. -/
def target (g : Grammar) : Parser Pattern := do
  if ← isDestructuringAhead then destructuring g
  else
    let o ← reference g
    match o.node, o.role with
    | .name w, .name => return .name w
    | n, .member | n, .undefinedName => return .place n
    | _, _ => fail

def pattern (g : Grammar) : Parser Pattern := do
  skipMarkup
  if ← optional "..." then return .rest (← target g)
  else target g

/-! ### Arrow functions and assignments -/

/-- Whether an opening brace can only be that of an object, where a block would be
possible too: a name that is followed by a comma or the end is no member there. -/
def opensObject : Parser Bool :=
  accepts do
    symbol "\x7b"
    skipMarkup
    if (← wordAhead).isSome then
      let _ ← word
      match (← ahead).head? with
      | some ',' | some '}' => fail
      | _ => return

/-- The body of an arrow function. -/
def arrowBody (g : Grammar) (cx : Context) : Parser (Node × Role) := do
  skipMarkup
  if ← isAhead "\x7b" then
    let body : Parser (Node × Role) := return (← block g true, .primary)
    if ← opensObject then orElse body expressionBody else body
  else expressionBody
where
  expressionBody : Parser (Node × Role) := return (← g.expression cx, .other)

/-- An arrow function behind its parameters. -/
def arrowRest (g : Grammar) (cx : Context) (start : Nat) (parameters : List Node) :
    Parser Operand := do
  symbol "=>"
  let (body, role) ← arrowBody g cx
  ended start (parameters ++ [body]) role

/-- A group in brackets, or an arrow function. -/
def groupOrArrow (g : Grammar) (cx : Context) : Parser Operand := do
  let start ← cursor
  let group : Parser Operand := do
    let o ← ended start.pos (← g.parenthesized) .group
    if ← isAhead "=>" then fail
    return o
  orElse group do arrowRest g cx start.pos (← parameters g)

/-- The word `async` and what follows it, when that is an arrow function. -/
def asyncArrow (g : Grammar) (cx : Context) : Parser Operand := do
  let start ← cursor
  keyword "async"
  if cx.ends && (← semicolonImplied true) then fail
  let ps ← if ← isAhead "(" then parameters g else
    let w ← word
    pure [.name w]
  arrowRest g cx start.pos ps

/-- A list or object literal, or the pattern of an assignment. -/
def literalOrPattern (g : Grammar) : Parser Operand := do
  let start ← cursor
  let literal : Parser Operand := do
    let o ← primary g
    if ← isAssignAhead then fail
    return o
  let assigned : Parser Operand := do
    let p ← destructuring g
    if ← isAssignAhead then ended start.pos p.parts .undefinedName else fail
  orElse literal assigned

/-- An operand with what follows it, up to an assignment. -/
def chained (g : Grammar) (cx : Context) : Parser Operand := do
  skipMarkup
  let more (o : Operand) := postfix_ g cx true g.bound o
  match (← cursor).rest with
  | '(' :: _ => more (← groupOrArrow g cx)
  | '[' :: _ | '{' :: _ => more (← literalOrPattern g)
  | _ =>
    let o ← orElse (asyncArrow g cx) (primary g)
    match o.node with
    | .name w => if ← isAhead "=>" then more (← arrowRest g cx w.span.start [.name w]) else more o
    | _ => more o

/-- The length of an operator that assigns, such as `+=`. -/
def augmentedLength? (cs : List Char) : Option Nat :=
  (["+=", "-=", "*=", "/=", "%=", "^=", "&=", "|=", ">>=", ">>>=", "<<=", "**=", "&&=", "||=",
    "??="].find? fun t => startsWith t.toList cs).map String.length

/-- An operand, and the value when it is assigned to. -/
def assigned (g : Grammar) (cx : Context) : Parser Node := do
  let o ← chained g cx
  let start := o.node.span.start
  let isTarget := [Role.name, .undefinedName, .member, .group].contains o.role
  if isTarget && (← isAssignAhead) then
    symbol "="
    let value ← g.expression cx
    return (← ended start [o.node, value] .other).node
  match augmentedLength? (← ahead) with
  | some n =>
    if isTarget && o.role != .undefinedName then
      skip
      take n
      let value ← g.expression cx
      return (← ended start [o.node, value] .other).node
    else return o.node
  | none => return o.node

/-! ### Operators -/

/-- Whether an expression can start with this text. -/
def startsExpression (cs : List Char) : Bool :=
  match cs with
  | [] => false
  | '.' :: c :: _ => c.isDigit
  | '!' :: '=' :: _ => false
  | c :: _ =>
    !(")]\x7d,;:?=%&|^>*.".toList.contains c) &&
      !(match word? cs with
        | some w => [ "in", "instanceof", "of"].contains (String.ofList w)
        | none => false)

/-- The word `yield` and the value behind it, if there is one. -/
def yielded (g : Grammar) (cx : Context) : Parser Node :=
  piece do
    keyword "yield"
    if cx.ends && (← semicolonImplied true) then return []
    if ← optional "*" then return [← g.expression cx]
    if startsExpression (← ahead) then return [← g.expression cx]
    else return []

/-- A prefix operator of `n` characters and its operand. -/
def prefixed (g : Grammar) (cx : Context) (n : Nat) : Parser Node :=
  piece do
    skip
    take n
    return [← g.operand cx]

/-- An operand with the prefix operators in front of it. -/
def operand (g : Grammar) (cx : Context) : Parser Node := do
  skipMarkup
  match (← cursor).rest with
  | '!' :: _ | '~' :: _ => prefixed g cx 1
  | '+' :: '+' :: _ | '-' :: '-' :: _ => prefixed g cx 2
  | '+' :: _ | '-' :: _ => prefixed g cx 1
  | '#' :: _ =>
    piece do
      privateName
      if ← isWordAhead "in" then return [] else fail
  | _ =>
    match ← wordAhead with
    | some "yield" => yielded g cx
    | some w =>
      if ["typeof", "void", "delete", "await"].contains w then prefixed g cx w.length
      else if w == "using" then
        keyword "using"
        let n ← assigned g cx
        return n
      else assigned g cx
    | none => assigned g cx

/-- The operators between operands, longer ones first. -/
def binaryOperators : List String :=
  [">>>", "===", "!==", "**", "&&", "||", "??", ">>", "<<", "<=", ">=", "==", "!=",
    "&", "^", "|", "+", "-", "*", "/", "%", "<", ">"]

/-- The length of the operator a text starts with. -/
def binaryLength? (cx : Context) (cs : List Char) : Option Nat :=
  match word? cs with
  | some w =>
    if w == "instanceof".toList || (w == "in".toList && !cx.noIn) then some w.length else none
  | none =>
    if startsWith "=>".toList cs then none
    else (binaryOperators.find? fun t => startsWith t.toList cs).map String.length

/-- A question mark that is no part of another operator. -/
def isTernaryAhead : Parser Bool := do
  match ← ahead with
  | '?' :: '?' :: _ => return false
  | '?' :: '.' :: cs => return cs.head?.any Char.isDigit
  | '?' :: _ => return true
  | _ => return false

/-- An expression without commas outside brackets. -/
def expression (g : Grammar) (cx : Context) : Parser Node := do
  let left ← operand g cx
  let start := left.span.start
  match binaryLength? cx (← ahead) with
  | some n =>
    skip
    take n
    let right ← g.expression cx
    return (← ended start [left, right] .other).node
  | none =>
    if ← isTernaryAhead then
      symbol "?"
      let yes ← g.expression .inner
      symbol ":"
      let no ← g.expression cx
      return (← ended start [left, yes, no] .other).node
    else return left

end Bundler.JavaScript.Syntax
