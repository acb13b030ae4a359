import Bundler.JavaScript.Token

/-! The mutually nested constructs of the grammar. A construct is read by a function of
a `Grammar`, which holds the readers for what stands inside it; the readers of one
level of nesting are built from those of the next. -/
namespace Bundler.JavaScript

namespace Parser

/-- Reads items until `stop` holds. -/
def manyUntil (stop : Parser Bool) (item : Parser α) : Nat → Parser (List α)
  | 0 => fail
  | n + 1 => do
    if ← stop then return []
    let a ← item
    return a :: (← manyUntil stop item n)

/-- Reads items between commas up to a closing bracket; any item may be left out. -/
def listTo (close : String) (item : Parser α) : Nat → Parser (List α)
  | 0 => fail
  | n + 1 => do
    skipMarkup
    if ← optional close then return []
    if ← optional "," then listTo close item n
    else
      let a ← item
      if ← optional "," then return a :: (← listTo close item n)
      symbol close
      return [a]

/-- Reads items between commas up to a closing bracket; only the last comma may stand
without an item. -/
def strictListTo (close : String) (item : Parser α) : Nat → Parser (List α)
  | 0 => fail
  | n + 1 => do
    skipMarkup
    if ← optional close then return []
    let a ← item
    if ← optional "," then return a :: (← strictListTo close item n)
    symbol close
    return [a]

/-- Reads one or more items between commas. -/
def commaItems (item : Parser α) : Nat → Parser (List α)
  | 0 => fail
  | n + 1 => do
    let a ← item
    if ← optional "," then return a :: (← commaItems item n)
    return [a]

/-- Tells whether `p` would accept what comes next. -/
def accepts (p : Parser α) : Parser Bool := fun c =>
  match p c with
  | .ok _ => .ok (true, c)
  | .error _ => .ok (false, c)

/-- A single equals sign. -/
def isAssignAhead : Parser Bool := do
  match ← ahead with
  | '=' :: '=' :: _ | '=' :: '>' :: _ => return false
  | '=' :: _ => return true
  | _ => return false

/-- A piece of code made of the parts that `p` reads. -/
def piece (p : Parser (List Node)) : Parser Node := do
  let (span, parts) ← located p
  return .other span parts

end Parser

/-- What the surroundings of an expression allow. -/
structure Context where
  /-- The expression may end its statement. -/
  ends : Bool
  /-- The word `in` is no operator, since it follows a loop variable. -/
  noIn : Bool := false

/-- The surroundings between brackets. -/
def Context.inner : Context := ⟨false, false⟩

def Context.statement : Context := ⟨true, false⟩

/-- Readers for one level of nesting. -/
structure Grammar where
  /-- A bound for the length of any list. -/
  bound : Nat
  /-- An expression without commas outside brackets. -/
  expression : Context → Parser Node
  /-- An operand with the prefix operators in front of it. -/
  operand : Context → Parser Node
  /-- What `new` applies to. -/
  constructed : Parser Node
  pattern : Parser Pattern
  statement : Parser Statement
  markup : Parser Node

namespace Grammar
open Bundler.JavaScript.Parser

/-- Accepts nothing. -/
def refusal : Grammar :=
  ⟨0, fun _ => fail, fun _ => fail, fail, fail, fail, fail⟩

/-- Expressions between commas. -/
def expressions (g : Grammar) (cx : Context) : Parser (List Node) :=
  commaItems (g.expression cx) g.bound

def parenthesized (g : Grammar) : Parser (List Node) := do
  symbol "("
  let es ← g.expressions .inner
  symbol ")"
  return es

end Grammar
end Bundler.JavaScript
