import Bundler.JavaScript.Statements

/-! Whole programs. `Program.parse` reads a source, or finds the token at which no
program goes on. -/
namespace Bundler.JavaScript

namespace Grammar

/-- The grammar for one more level of nesting. -/
def deeper (g : Grammar) : Grammar where
  bound := g.bound + 1
  expression := Syntax.expression g
  operand := Syntax.operand g
  constructed := Syntax.constructed g
  pattern := Syntax.pattern g
  statement := Syntax.statement g
  markup := Syntax.element g

/-- The grammar for `depth` levels of nesting. -/
def ofDepth : Nat → Grammar
  | 0 => refusal
  | n + 1 => deeper (ofDepth n)

end Grammar

namespace Syntax
open Bundler.JavaScript.Parser

/-- A comment in the form of markup, between statements. -/
def commentStatement : Parser Statement := do
  let (span, _) ← located markupComment
  return .markupComment span

/-- The statements up to the end of the text. -/
def programStatements (g : Grammar) : Nat → Parser (List Statement)
  | 0 => fail
  | n + 1 => do
    skip
    let c ← cursor
    if c.rest.isEmpty then return []
    let s ← if opensMarkupComment c.rest then commentStatement else g.statement
    return s :: (← programStatements g n)

/-- The line that names an interpreter, if the text starts with one. -/
def interpreterLine : Parser (Option Span) := do
  skip
  let c ← cursor
  match c.rest with
  | '#' :: '!' :: _ =>
    take (c.rest.takeWhile (· != '\n')).length
    return some ⟨c.pos, (← cursor).pos⟩
  | _ => return none

/-- More levels than a text of this length can nest. -/
def depthFor (length : Nat) : Nat := 4 * length + 16

def program (g : Grammar) : Parser Program := do
  let line ← interpreterLine
  return ⟨line, ← programStatements g g.bound⟩

end Syntax

/-- Reads a source; a failure is the position of the first token that does not fit. -/
def Program.parse (source : List Char) : Except Nat Program :=
  match Syntax.program (Grammar.ofDepth (Syntax.depthFor source.length)) ⟨source, 0⟩ with
  | .ok (p, _) => .ok p
  | .error e => .error e

end Bundler.JavaScript
