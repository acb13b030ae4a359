import Bundler.JavaScript.Fragment
import Bundler.JavaScript.Recovery.Front

/-! The part of a program that an attempt at reading a faulty source has put together.
It is a list of parts, the last one first, in which finished brackets, members and
statements are one part each. -/
namespace Bundler.JavaScript.Recovery

/-- A place where an attempt differs from the source: tokens left out, or one added. -/
structure Fault where
  span : Span
  added : Option String := none
deriving Inhabited

structure Part where
  span : Span
  /-- The text of the program up to the end of the part. -/
  text : List Char
  /-- The token, if the part is one. -/
  token : List Char := []
  /-- The number of constructs in it. -/
  weight : Nat := 1
  /-- Whether it opens a bracket that is still open. -/
  isOpening : Bool := false
  /-- Whether it is a list of finished statements. -/
  isSequence : Bool := false
  /-- Whether it holds what is left out. -/
  isGap : Bool := false
  /-- What the faults inside cost. -/
  innerCost : Nat := 0
  faults : List Fault := []
deriving Inhabited

/-! ### Costs -/

/-- The number of line ends between two positions. -/
def rows (source : List Char) (start stop : Nat) : Nat :=
  (Text.position source stop).1 - (Text.position source start).1

/-- What it costs to leave out `weight` constructs that stand in a span. -/
def gapCost (source : List Char) (span : Span) (weight : Nat) : Nat :=
  500 + (span.stop - span.start) + 30 * rows source span.start span.stop + 100 * weight

/-- What it costs to add a token. -/
def addedCost : Nat := 610

def Part.cost (source : List Char) (p : Part) : Nat :=
  if p.isGap then gapCost source p.span p.weight + p.innerCost else p.innerCost

namespace Part

/-- The text of a program whose last part comes first. -/
def textOf (parts : List Part) : List Char := parts.head?.elim [] text

def costOf (source : List Char) (parts : List Part) : Nat := parts.foldr (cost source · + ·) 0

/-- The number of constructs in parts. What was left out before is none. -/
def weightOf (parts : List Part) : Nat := parts.foldr (fun p n => (if p.isGap then 0 else p.weight) + n) 0

def depthOf (parts : List Part) : Nat := (parts.filter (!·.isGap)).length

def spanOf (parts : List Part) : Span :=
  ⟨parts.getLast?.elim 0 (·.span.start), parts.head?.elim 0 (·.span.stop)⟩

def faultsOf (parts : List Part) : List Fault := parts.reverse.flatMap faults

/-- The text that the first `n` parts add to the others. -/
def textOfLast (n : Nat) (parts : List Part) : List Char :=
  (textOf parts).drop (textOf (parts.drop n)).length

/-- The first `n` parts as one. -/
def joinLast (source : List Char) (n : Nat) (parts : List Part) : List Part :=
  let joined := parts.take n
  { span := spanOf joined
    text := textOf parts
    innerCost := costOf source joined
    faults := faultsOf joined } :: parts.drop n

/-! ### Reading on -/

/-- Joins what a closing bracket ends: the bracket, then a call or member with what
stands in front, an instance or a function. -/
def closeBracket (source : List Char) (closing : List Char) (parts : List Part) : List Part :=
  match (parts.drop 1).findIdx? (·.isOpening) with
  | none => parts
  | some n =>
    let parts := joinLast source (n + 2) parts
    match parts with
    | _ :: callee :: below =>
      if callee.isGap then parts
      else if closing == ['\x7d'] then
        if callee.token == ['=', '>'] || callee.token == [] then
          match (List.range 6).find? fun n => 1 < n && isExpression (textOfLast n parts) with
          | some n => joinLast source n parts
          | none => parts
        else parts
      else if below.head?.any (·.token == "new".toList) then joinLast source 3 parts
      else if isExpression (textOfLast 2 parts) && allowsExpression (textOf below) then
        joinLast source 2 parts
      else parts
    | _ => parts

/-- Joins the statements of the program or of a block when the last one is finished. The
text of those before it may go, for a statement does not depend on them; only `else` does. -/
def joinStatements (source : List Char) (parts : List Part) : List Part :=
  let inner := parts.takeWhile (!·.isOpening)
  let outer := parts.drop inner.length
  let text := textOf parts
  let ends := endsStatement text && match outer.head? with
    | none => isProgram text
    | some p => p.token == ['\x7b'] && isFront (text ++ [' ', '\x7d'])
  match inner.isEmpty || !ends, joinLast source inner.length parts with
  | false, p :: outer =>
    let before := inner.find? isSequence
    let last := text.drop (before.elim (textOf outer) Part.text).length
    let isTail := startsWith "else".toList (last.dropWhile isBlank)
    let text := if before.isNone || isTail then text else textOf outer ++ [' ', ';'] ++ last
    { p with text, weight := before.elim 0 (·.weight) + 1, isSequence := true } :: outer
  | _, _ => parts

/-- The parts with a token behind them. -/
def push (source lead token : List Char) (p : Part) (parts : List Part) : List Part :=
  let isOpening := [['('], ['['], ['\x7b']].contains token
  let parts := { p with text := textOf parts ++ lead ++ token, token, isOpening } :: parts
  let parts :=
    if [[')'], [']'], ['\x7d']].contains token then closeBracket source token parts
    else match parts with
      | _ :: q :: r :: _ =>
        if r.isGap then parts
        else if q.token == "from".toList && (token.head? == some '"' || token.head? == some '\x27')
        then joinLast source 2 parts
        else if token.head?.any isWordChar && [".", "?.", "as"].any (·.toList == q.token) then
          joinLast source 3 parts
        else parts
      | _ => parts
  joinStatements source parts

/-- The parts with a token of the source behind them. -/
def pushFragment (source : List Char) (f : Fragment) (parts : List Part) : List Part :=
  let lead := if f.lead.isEmpty && parts.head?.any isGap then [' '] else f.lead
  push source lead f.text { span := f.span, text := [] } parts

/-! ### Leaving out -/

/-- How many of the first `limit` parts are one expression together. -/
def expressionLength (limit : Nat) (parts : List Part) : Nat :=
  ((List.range (min parts.length limit + 1)).reverse.find? fun n =>
    1 < n && !(parts.take n).any isGap && isExpression (textOfLast n parts)).getD 0

/-- The sum of a measure over the first `n` parts, where an expression at their end
counts for one. -/
def looseSum (measure : List Part → Nat) (n : Nat) (parts : List Part) : Nat :=
  let m := expressionLength n parts
  if 1 < m then measure ((parts.take n).drop m) + 1 else measure (parts.take n)

end Part
end Bundler.JavaScript.Recovery
