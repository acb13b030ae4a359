import Bundler.JavaScript.Grammar

/-! Markup elements inside programs, such as `<A b="c">text {value}</A>`. -/
namespace Bundler.JavaScript.Syntax
open Bundler.JavaScript.Parser

/-- Extends a word by the dashes that a markup name may hold. -/
def dashedLength (w cs : List Char) : Nat :=
  let isPlain (c : Char) := c.isAlphanum || c == '$' || c == '_'
  if w.all isPlain && (cs.drop w.length).head? == some '-' then
    (cs.takeWhile fun c => isPlain c || c == '-').length
  else w.length

def markupWord : Parser Unit := do
  skip
  let cs := (← cursor).rest
  match word? cs with
  | some w => take (dashedLength w cs)
  | none => fail

def dottedRest : Nat → Parser Unit
  | 0 => fail
  | n + 1 => do
    if ← optional "." then
      let _ ← word
      dottedRest n
    else return

/-- A name, with dots or one colon. -/
def markupName (g : Grammar) : Parser Unit := do
  markupWord
  if ← optional ":" then markupWord
  else dottedRest g.bound

/-- Code between braces, which may be missing. -/
def markupCode (g : Grammar) : Parser (List Node) := do
  symbol "\x7b"
  skipMarkup
  if ← optional "\x7d" then return []
  let es ←
    if ← optional "..." then
      let e ← g.expression .inner
      pure [e]
    else g.expressions .inner
  symbol "\x7d"
  return es

def attributeValue (g : Grammar) : Parser (List Node) := do
  skip
  match (← cursor).rest with
  | '{' :: _ => markupCode g
  | '<' :: _ => return [← g.markup]
  | q :: cs =>
    if q == '"' || q == '\x27' then
      match markupString? q (cs.length + 1) cs with
      | some n =>
        take (n + 1)
        return []
      | none => fail
    else fail
  | [] => fail

def markupAttribute (g : Grammar) : Parser (List Node) := do
  if ← isAhead "\x7b" then markupCode g
  else
    markupWord
    if ← optional ":" then markupWord
    if ← optional "=" then attributeValue g
    else return []

/-- The children of an element and its closing tag. -/
def children (g : Grammar) : Nat → Parser (List Node)
  | 0 => fail
  | n + 1 => do
    let cs := (← cursor).rest
    let (length, isText) := markupText false false cs
    if isText then
      take length
      children g n
    else
      match ← ahead with
      | '<' :: '/' :: _ =>
        symbol "</"
        if !(← isAhead ">") then markupName g
        symbol ">"
        return []
      | '<' :: _ =>
        let e ← g.markup
        return e :: (← children g n)
      | '{' :: _ =>
        let es ← markupCode g
        return es ++ (← children g n)
      | cs =>
        match referenceLength? cs with
        | some k =>
          skip
          take k
          children g n
        | none => fail

/-- The rest of an element behind its name. -/
def elementRest (g : Grammar) : Parser (List Node) := do
  let attributes ← manyUntil (return (← isAhead ">") || (← isAhead "/")) (markupAttribute g) g.bound
  if ← optional "/>" then return attributes.flatten
  symbol ">"
  return attributes.flatten ++ (← children g g.bound)

def element (g : Grammar) : Parser Node :=
  piece do
    symbol "<"
    if ← optional ">" then children g g.bound
    else
      markupName g
      elementRest g

end Bundler.JavaScript.Syntax
