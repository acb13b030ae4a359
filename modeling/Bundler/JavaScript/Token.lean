import Bundler.JavaScript.Parser

/-! The tokens of a program that are more than fixed text: words, numbers, strings,
regular expressions and the text inside markup. Which token may come next depends on
the place, so each has a reader of its own. -/
namespace Bundler.JavaScript

def isHexDigit (c : Char) : Bool :=
  c.isDigit || ('a' ≤ c && c ≤ 'f') || ('A' ≤ c && c ≤ 'F')

/-! ### Words -/

/-- The characters of words, digits included. -/
def isWordChar (c : Char) : Bool :=
  !(c ≤ '\x1f' || isBlank c || ":;\x60\"'@#.,|^&<=>+-*/\\%?!~()[]\x7b\x7d".toList.contains c)

/-- The length of a `\u` escape in characters. -/
def unicodeEscape? : List Char → Option Nat
  | '\\' :: 'u' :: '{' :: cs =>
    let n := (cs.takeWhile isHexDigit).length
    if 0 < n && (cs.drop n).head? == some '}' then some (n + 4) else none
  | '\\' :: 'u' :: cs => if 4 ≤ (cs.takeWhile isHexDigit).length then some 6 else none
  | _ => none

/-- The length of the longest run of word characters and escapes. -/
def wordLength : Nat → List Char → Nat
  | 0, _ => 0
  | fuel + 1, cs =>
    match cs with
    | [] => 0
    | c :: rest =>
      if isWordChar c then wordLength fuel rest + 1
      else match unicodeEscape? cs with
        | some n => wordLength fuel (cs.drop n) + n
        | none => 0

/-- The word a text starts with; none starts with a digit. -/
def word? (cs : List Char) : Option (List Char) :=
  match cs with
  | [] => none
  | c :: _ =>
    if c.isDigit then none
    else match wordLength cs.length cs with
      | 0 => none
      | n => some (cs.take n)

namespace Parser

/-- Makes a lexeme of the next `n` characters. -/
def lexeme (n : Nat) : Parser Lexeme := fun c =>
  let d := c.advanceBy n
  .ok (⟨⟨c.pos, d.pos⟩, c.rest.take n⟩, d)

/-- The next token if it is a word, without reading it. -/
def wordAhead : Parser (Option String) := fun c =>
  .ok ((word? c.skip.rest).map String.ofList, c)

def isWordAhead (s : String) : Parser Bool := do
  return (← wordAhead) == some s

/-- Reads any word. -/
def word : Parser Lexeme := do
  skip
  match word? (← cursor).rest with
  | some w => lexeme w.length
  | none => fail

/-- Reads this word. -/
def keyword (s : String) : Parser Unit := do
  if ← isWordAhead s then
    let _ ← word
    return
  else fail

/-- Reads this word where nothing can end with it, so that a comment in the form of markup
may follow. -/
def openingWord (s : String) : Parser Unit := do
  keyword s
  skipMarkup

def optionalWord (s : String) : Parser Bool := do
  if ← isWordAhead s then
    keyword s
    return true
  else return false

/-- Reads a word behind `#`. -/
def privateName : Parser Unit := do
  symbol "#"
  match word? (← cursor).rest with
  | some w => take w.length
  | none => fail

end Parser

/-! ### Numbers -/

/-- The number of characters of digits with single underscores between them. -/
def digitRun (isDigit : Char → Bool) : List Char → Nat
  | [] => 0
  | [c] => if isDigit c then 1 else 0
  | c :: d :: cs =>
    if !isDigit c then 0
    else if isDigit d then digitRun isDigit (d :: cs) + 1
    else if d == '_' then
      match digitRun isDigit cs with
      | 0 => 1
      | n => n + 2
    else 1

/-- The length of an exponent such as `e-7`. -/
def exponentLength : List Char → Nat
  | e :: cs =>
    if e == 'e' || e == 'E' then
      let sign := if cs.head? == some '-' || cs.head? == some '+' then 1 else 0
      match digitRun Char.isDigit (cs.drop sign) with
      | 0 => 0
      | n => n + sign + 1
    else 0
  | [] => 0

/-- The length of a fraction behind its point, with its exponent. -/
def fractionLength (cs : List Char) : Nat :=
  let n := digitRun Char.isDigit cs
  n + exponentLength (cs.drop n)

/-- The length of a number in another base, whose letter stands behind a zero. -/
def baseLength (isDigit : Char → Bool) (cs : List Char) : Nat :=
  match digitRun isDigit (cs.drop 2) with
  | 0 => 0
  | n => if (cs.drop (n + 2)).head? == some 'n' then n + 3 else n + 2

/-- The length of a decimal number. Behind a leading zero and another digit no fraction
or exponent follows, unless that digit is no zero. -/
def decimalLength (cs : List Char) : Nat :=
  match cs with
  | '.' :: rest =>
    match digitRun Char.isDigit rest with
    | 0 => 0
    | _ => fractionLength rest + 1
  | _ =>
    let n := digitRun Char.isDigit cs
    if n = 0 then 0
    else
      let rest := cs.drop n
      let hasFraction := n = 1 || cs.head? != some '0' ||
        ((cs.drop 1).head?.any fun d => d.isDigit && d != '0')
      match rest with
      | 'n' :: _ => n + 1
      | '.' :: more => if hasFraction then n + 1 + fractionLength more else n
      | _ => if hasFraction then n + exponentLength rest else n

/-- The length of the number a text starts with, zero when it starts with none. -/
def numberLength (cs : List Char) : Nat :=
  let based := match cs with
    | '0' :: b :: _ =>
      if b == 'x' || b == 'X' then baseLength isHexDigit cs
      else if b == 'o' || b == 'O' then baseLength (fun c => '0' ≤ c && c ≤ '7') cs
      else if b == 'b' || b == 'B' then baseLength (fun c => c == '0' || c == '1') cs
      else 0
    | _ => 0
  max based (decimalLength cs)

/-! ### Strings -/

def isOctalDigit (c : Char) : Bool := '0' ≤ c && c ≤ '7'

/-- The length of the escape a text starts with. -/
def escapeLength? : List Char → Option Nat
  | '\\' :: '\r' :: c :: _ => if isLineEnd c then some 3 else some 2
  | '\\' :: '?' :: c :: _ => if isLineEnd c then some 3 else some 2
  | '\\' :: 'x' :: cs => if 2 ≤ (cs.takeWhile isHexDigit).length then some 4 else none
  | '\\' :: 'u' :: cs => unicodeEscape? ('\\' :: 'u' :: cs)
  | '\\' :: c :: cs =>
    if isOctalDigit c then some (2 + ((cs.take 2).takeWhile isOctalDigit).length) else some 2
  | _ => none

/-- The cursor behind the quote that ends a string. A line end may only be followed by
blanks and comments in front of the quote. -/
def stringEnd? (quote : Char) : Nat → Cursor → Except Nat Cursor
  | 0, c => .error c.pos
  | fuel + 1, c =>
    match c.rest with
    | [] => .error c.pos
    | x :: _ =>
      if x == quote then .ok c.advance
      else if x == '\\' then
        match escapeLength? c.rest with
        | some n => stringEnd? quote fuel (c.advanceBy n)
        | none => .error c.pos
      else if x == '\n' || x == '\r' then
        let d := c.skip
        if d.rest.head? == some quote then .ok d.advance else .error d.pos
      else stringEnd? quote fuel c.advance

namespace Parser

/-- Reads a string literal. -/
def string : Parser Lexeme := do
  skip
  let c ← cursor
  match c.rest with
  | q :: _ =>
    if q == '"' || q == '\x27' then
      match stringEnd? q c.rest.length c.advance with
      | .ok d =>
        goto d
        return ⟨⟨c.pos, d.pos⟩, Text.take (d.pos - c.pos) c.rest⟩
      | .error e => fun _ => .error e
    else fail
  | [] => fail

def number : Parser Unit := do
  skip
  match numberLength (← cursor).rest with
  | 0 => fail
  | n => take n

end Parser

/-! ### Regular expressions -/

/-- The length of a character class behind its bracket, with the bracket that ends it. -/
def classLength? : List Char → Option Nat
  | [] => none
  | ']' :: _ => some 1
  | '\\' :: c :: cs => if c == '\n' then none else (classLength? cs).map (· + 2)
  | c :: cs => if c == '\n' || c == '\\' then none else (classLength? cs).map (· + 1)

/-- The length of the pattern of a regular expression, up to the slash behind it. -/
def patternLength : Nat → List Char → Nat
  | 0, _ => 0
  | fuel + 1, cs =>
    match cs with
    | '[' :: rest =>
      match classLength? rest with
      | some n => patternLength fuel (rest.drop n) + n + 1
      | none => 0
    | '\\' :: c :: rest => if c == '\n' then 0 else patternLength fuel rest + 2
    | c :: rest => if c == '/' || c == '\n' || c == '\\' then 0 else patternLength fuel rest + 1
    | [] => 0

namespace Parser

def regularExpression : Parser Unit := do
  symbol "/"
  let cs := (← cursor).rest
  let n := patternLength cs.length cs
  if n = 0 || (cs.drop n).head? != some '/' then fail
  else take (n + 1 + ((cs.drop (n + 1)).takeWhile Char.isLower).length)

end Parser

/-! ### Templates and markup -/

/-- The number of characters of plain text inside a template. A text that ends, or holds
a NUL, before the template does has none. -/
def templateText? : List Char → Option Nat
  | [] => none
  | '$' :: '{' :: _ => some 0
  | c :: cs =>
    if c == '\x00' then none
    else if c == '\x60' || c == '\\' then some 0
    else (templateText? cs).map (· + 1)

/-- The number of characters of plain text between markup tags, and whether they are
more than the blanks around line ends. -/
def markupText (atLineEnd seen : Bool) : List Char → Nat × Bool
  | [] => (0, seen)
  | c :: cs =>
    if "<>\x7b\x7d&\x00".toList.contains c then (0, seen)
    else
      let atLineEnd := c == '\n' || (atLineEnd && isSpace c)
      let r := markupText atLineEnd (seen || !atLineEnd) cs
      (r.1 + 1, r.2)

/-- The length of a character reference such as `&amp;`. -/
def referenceLength? : List Char → Option Nat
  | '&' :: '#' :: cs =>
    let hex := cs.head? == some 'x' || cs.head? == some 'X'
    let ds := if hex then (cs.drop 1).takeWhile isHexDigit else cs.takeWhile Char.isDigit
    let n := ds.length + (if hex then 1 else 0)
    if 0 < ds.length && ds.length ≤ (if hex then 6 else 5) && (cs.drop n).head? == some ';' then
      some (n + 3)
    else none
  | '&' :: cs =>
    let n := (cs.takeWhile Char.isAlpha).length
    if 0 < n && n ≤ 30 && (cs.drop n).head? == some ';' then some (n + 2) else none
  | _ => none

/-- The length of a quoted value of a markup attribute behind its quote, with the quote
that ends it. -/
def markupString? (quote : Char) : Nat → List Char → Option Nat
  | 0, _ => none
  | fuel + 1, cs =>
    match cs with
    | [] => none
    | c :: rest =>
      if c == quote then some 1
      else if c == '&' then
        match referenceLength? cs with
        | some n => (markupString? quote fuel (cs.drop n)).map (· + n)
        | none =>
          match rest with
          | d :: rest =>
            if d == '#' || d.isAlpha then none else (markupString? quote fuel rest).map (· + 2)
          | [] => none
      else (markupString? quote fuel rest).map (· + 1)

end Bundler.JavaScript
