import Bundler.JavaScript.Tree
import Bundler.JavaScript.Trivia

/-! Parsers of program text. A parser reads from the end of one token to the end of
another; blanks and comments are skipped in front of a token, never behind it. A
failure is the position of the token that does not fit. -/
namespace Bundler.JavaScript

def Parser (α : Type) := Cursor → Except Nat (α × Cursor)

namespace Parser

instance : Monad Parser where
  pure a := fun c => .ok (a, c)
  bind p f := fun c =>
    match p c with
    | .ok (a, c) => f a c
    | .error e => .error e

/-- Where the parser stands. -/
def cursor : Parser Cursor := fun c => .ok (c, c)

def goto (c : Cursor) : Parser Unit := fun _ => .ok ((), c)

/-- Refuses the next token. -/
def fail : Parser α := fun c => .error c.skip.pos

/-- The second parser is tried where the first one fails; of two failures the later
one counts. -/
def orElse (p q : Parser α) : Parser α := fun c =>
  match p c with
  | .ok r => .ok r
  | .error e =>
    match q c with
    | .ok r => .ok r
    | .error e' => .error (max e e')

/-- Moves to the next token, in a place for an operator. -/
def skip : Parser Unit := fun c => .ok ((), c.skip)

/-- Moves to the next token, in a place for an operand or a statement. -/
def skipMarkup : Parser Unit := fun c => .ok ((), c.skipMarkup)

/-- The text from the next token on. -/
def ahead : Parser (List Char) := fun c => .ok (c.skip.rest, c)

/-- Whether the next token starts with this text. -/
def isAhead (s : String) : Parser Bool := fun c => .ok (startsWith s.toList c.skip.rest, c)

/-- Reads `n` characters. -/
def take (n : Nat) : Parser Unit := fun c => .ok ((), c.advanceBy n)

/-- Reads this text as the next token. -/
def symbol (s : String) : Parser Unit := fun c =>
  let d := c.skip
  match after? s.toList d.rest with
  | some rest => .ok ((), ⟨rest, d.pos + Text.size s.toList⟩)
  | none => .error d.pos

/-- Reads this text if it comes next. -/
def optional (s : String) : Parser Bool := do
  if ← isAhead s then
    symbol s
    return true
  else return false

/-- The span from the next token to the end of what `p` reads, with what it answers. -/
def located (p : Parser α) : Parser (Span × α) := fun c =>
  match p c with
  | .ok (a, d) => .ok ((⟨c.skip.pos, d.pos⟩, a), d)
  | .error e => .error e

/-- Whether a semicolon is implied where the parser stands. -/
def semicolonImplied (afterExpression : Bool) : Parser Bool := fun c =>
  .ok ((c.impliedSemicolon? afterExpression).isSome, c)

/-- The end of a statement, written or implied. -/
def semicolon (afterExpression : Bool) : Parser Unit := fun c =>
  match c.impliedSemicolon? afterExpression with
  | some d => .ok ((), d)
  | none => symbol ";" c

end Parser
end Bundler.JavaScript
