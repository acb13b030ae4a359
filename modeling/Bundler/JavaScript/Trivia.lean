import Bundler.Text.Span

/-! What stands between the tokens of a program: blanks and comments, and the rule
that ends a statement at a line end without a semicolon. -/
namespace Bundler.JavaScript

/-- The text still to read and its byte position. -/
structure Cursor where
  rest : List Char
  pos : Nat
deriving Inhabited

/-- The blanks of ASCII. -/
def isSpace (c : Char) : Bool := c == ' ' || ('\t' ≤ c && c ≤ '\r')

/-- The general category of space separators. -/
def isSpaceSeparator (c : Char) : Bool :=
  c == ' ' || c == '\u00a0' || c == '\u1680' || ('\u2000' ≤ c && c ≤ '\u200a') ||
    c == '\u202f' || c == '\u205f' || c == '\u3000'

/-- What may stand between tokens outside comments. -/
def isBlank (c : Char) : Bool :=
  isSpace c || isSpaceSeparator c || c == '\u2028' || c == '\u2029' || c == '\ufeff' ||
    c == '\u200b' || c == '\u2060'

/-- The characters that end a line for the semicolon rule. -/
def isLineEnd (c : Char) : Bool := c == '\n' || c == '\u2028' || c == '\u2029'

/-- `cs` behind a front part `p`, if it has one. -/
def after? : List Char → List Char → Option (List Char)
  | [], cs => some cs
  | _ :: _, [] => none
  | p :: ps, c :: cs => if p = c then after? ps cs else none

def startsWith (p cs : List Char) : Bool := (after? p cs).isSome

namespace Cursor

/-- One character further. -/
def advance (c : Cursor) : Cursor :=
  match c.rest with
  | [] => c
  | x :: xs => ⟨xs, c.pos + x.utf8Size⟩

def advanceBy : Nat → Cursor → Cursor
  | 0, c => c
  | n + 1, c => advanceBy n c.advance

end Cursor

/-! ### Comments -/

/-- A comment that opens with `<!--` or `-->` and ends with its line. -/
def opensMarkupComment (cs : List Char) : Bool :=
  startsWith ['<', '!', '-', '-'] cs || startsWith ['-', '-', '>'] cs

inductive TriviaMode where
  | blank
  | line
  | markupLine
  /-- Behind a slash that opens a block comment. -/
  | open
  | block
  /-- Behind a star inside a block comment. -/
  | star

/-- Skips blanks and comments. A block comment that never ends is none, and the
cursor `start` in front of it is the answer. -/
def skipFrom (markup : Bool) (mode : TriviaMode) (start : Cursor) (pos : Nat) :
    List Char → Cursor
  | [] =>
    match mode with
    | .open | .block | .star => start
    | _ => ⟨[], pos⟩
  | c :: cs =>
    let next := pos + c.utf8Size
    match mode with
    | .blank =>
      if isBlank c then skipFrom markup .blank start next cs
      else if c == '/' && cs.head? == some '/' then skipFrom markup .line start next cs
      else if c == '/' && cs.head? == some '*' then skipFrom markup .open ⟨c :: cs, pos⟩ next cs
      else if markup && opensMarkupComment (c :: cs) then skipFrom markup .markupLine start next cs
      else ⟨c :: cs, pos⟩
    | .line => skipFrom markup (if isLineEnd c || c == '\r' then .blank else .line) start next cs
    | .markupLine => skipFrom markup (if isLineEnd c then .blank else .markupLine) start next cs
    | .open => skipFrom markup .block start next cs
    | .block => skipFrom markup (if c == '*' then .star else .block) start next cs
    | .star =>
      skipFrom markup (if c == '/' then .blank else if c == '*' then .star else .block) start next cs

namespace Cursor

/-- In front of the next token where an operator may follow. -/
def skip (c : Cursor) : Cursor := skipFrom false .blank c c.pos c.rest

/-- In front of the next token where an operand or a statement may follow; there
markup comments count as comments. -/
def skipMarkup (c : Cursor) : Cursor := skipFrom true .blank c c.pos c.rest

def skipBlanks (c : Cursor) : Cursor := advanceBy (c.rest.takeWhile isBlank).length c

/-- Behind the comment that comes next, if one does. -/
def comment? (c : Cursor) : Option Cursor :=
  let d := c.skipBlanks
  match d.rest with
  | '/' :: '/' :: cs =>
    some (advanceBy (2 + (cs.takeWhile fun x => !isLineEnd x && x != '\r').length) d)
  | '/' :: '*' :: cs =>
    match behind cs with
    | some n => some (advanceBy (2 + n) d)
    | none => none
  | _ => none
where
  /-- The number of characters up to and with the end of a block comment. -/
  behind : List Char → Option Nat
    | '*' :: '/' :: _ => some 2
    | _ :: cs => (behind cs).map (· + 1)
    | [] => none

end Cursor

/-! ### Semicolons at line ends -/

inductive ScanMode where
  | blank
  | slash
  | line
  | block
  | star

inductive Outcome where
  /-- A slash that opens no comment. -/
  | reject
  | accept
  /-- A block comment that stays on its line. -/
  | sameLine
deriving DecidableEq

/-- Reads blanks and comments ahead of a possible line end. Unless `all`, it stops
behind a block comment and tells whether the comment held a line end. -/
def scanComments (all : Bool) (mode : ScanMode) (newline : Bool) :
    List Char → Outcome × List Char
  | [] =>
    match mode with
    | .slash => (.reject, [])
    | _ => (.accept, [])
  | c :: cs =>
    match mode with
    | .blank =>
      if isSpace c then scanComments all .blank newline cs
      else if c == '/' then scanComments all .slash newline cs
      else (.accept, c :: cs)
    | .slash =>
      if c == '/' then scanComments all .line newline cs
      else if c == '*' then scanComments all .block newline cs
      else (.reject, c :: cs)
    | .line =>
      if c == '\n' then scanComments all .blank newline cs
      else if c == '\x00' || isLineEnd c then (.accept, c :: cs)
      else scanComments all .line newline cs
    | .block =>
      if c == '\x00' then (.accept, c :: cs)
      else scanComments all (if c == '*' then .star else .block) (newline || isLineEnd c) cs
    | .star =>
      if c == '\x00' then (.accept, c :: cs)
      else if c == '/' then
        if cs.head? != some '/' && !all then (if newline then .accept else .sameLine, cs)
        else scanComments all .blank newline cs
      else scanComments all (if c == '*' then .star else .block) (newline || isLineEnd c) cs

def isAsciiLetter (c : Option Char) : Bool := c.any Char.isAlpha

/-- Whether a line that goes on with `cs` can be a statement of its own, rather than
the rest of the one before. -/
def startsStatement (cs : List Char) : Bool :=
  match cs with
  | '.' :: cs => cs.head?.any Char.isDigit
  | '+' :: cs => cs.head? == some '+'
  | '-' :: cs => cs.head? == some '-'
  | '!' :: cs => cs.head? != some '='
  | 'i' :: 'n' :: cs =>
    if !isAsciiLetter cs.head? then false
    else match after? "stanceof".toList cs with
      | none => true
      | some cs => isAsciiLetter cs.head?
  | c :: _ => !("\x60,:;*%><=[(?^|&/".toList.contains c)
  | [] => true

/-- Whether a line end, or a brace, ends a statement in front of a text that opens no
comment; behind a blank `next` decides. -/
def lineEndAhead (next : List Char → Bool) : List Char → Bool
  | [] => false
  | c :: cs =>
    if c == '}' then true
    else if isLineEnd c then
      match scanComments true .blank false cs with
      | (.reject, _) => false
      | (_, cs) => startsStatement cs
    else if isSpace c then next cs
    else false

/-- The part of `semicolonAhead` up to the line end. -/
def semicolonScan (afterExpression : Bool) : Nat → List Char → Bool
  | 0, _ => false
  | fuel + 1, cs =>
    let ahead := lineEndAhead (semicolonScan afterExpression fuel)
    match cs with
    | [] | '\x00' :: _ => true
    | '/' :: _ =>
      match scanComments false .blank false cs with
      | (.reject, _) => false
      | (outcome, cs) =>
        let ends := outcome == .accept && !afterExpression &&
          cs.head? != some ',' && cs.head? != some '='
        ends || (!cs.isEmpty && ahead cs)
    | _ => ahead cs

/-- Whether a statement that could end here does so without a semicolon: at the end of
the text, in front of a brace, and in front of a line that cannot go on with it. -/
def semicolonAhead (afterExpression : Bool) (cs : List Char) : Bool :=
  semicolonScan afterExpression (cs.length + 1) cs

/-- Where the implied semicolon stands, if there is one; comments may come first. -/
def impliedFrom (afterExpression : Bool) : Nat → Cursor → Option Cursor
  | 0, _ => none
  | fuel + 1, c =>
    if semicolonAhead afterExpression c.rest then some c
    else c.comment?.bind (impliedFrom afterExpression fuel)

def Cursor.impliedSemicolon? (afterExpression : Bool) (c : Cursor) : Option Cursor :=
  impliedFrom afterExpression (c.rest.length + 1) c

end Bundler.JavaScript
