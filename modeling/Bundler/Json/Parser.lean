import Bundler.Json.Value
import Bundler.Text.Span

/-! Reading JSON text. Every fault is reported with its line and column, where a
column counts the bytes read on the line. Numbers without fraction or exponent
stay integers while they fit; the others are scaled by one multiplication or
division by a power of ten. -/
namespace Bundler.Json

inductive Fault where
  | eofInList
  | eofInObject
  | eofInString
  | eofInValue
  | expectedColon
  | expectedListCommaOrEnd
  | expectedObjectCommaOrEnd
  | expectedIdent
  | expectedValue
  | invalidEscape
  | invalidNumber
  | numberOutOfRange
  | controlCharacter
  | keyMustBeString
  | loneSurrogate
  | trailingComma
  | trailingCharacters
  | unexpectedEndOfHexEscape
  | recursionLimit
deriving DecidableEq, Inhabited

def Fault.message : Fault → String
  | eofInList => "EOF while parsing a list"
  | eofInObject => "EOF while parsing an object"
  | eofInString => "EOF while parsing a string"
  | eofInValue => "EOF while parsing a value"
  | expectedColon => "expected `:`"
  | expectedListCommaOrEnd => "expected `,` or `]`"
  | expectedObjectCommaOrEnd => "expected `,` or `\x7d`"
  | expectedIdent => "expected ident"
  | expectedValue => "expected value"
  | invalidEscape => "invalid escape"
  | invalidNumber => "invalid number"
  | numberOutOfRange => "number out of range"
  | controlCharacter => "control character (\\u0000-\\u001F) found while parsing a string"
  | keyMustBeString => "key must be a string"
  | loneSurrogate => "lone leading surrogate in hex escape"
  | trailingComma => "trailing comma"
  | trailingCharacters => "trailing characters"
  | unexpectedEndOfHexEscape => "unexpected end of hex escape"
  | recursionLimit => "recursion limit exceeded"

structure ParseError where
  fault : Fault
  line : Nat
  column : Nat
deriving DecidableEq, Inhabited

def ParseError.message (e : ParseError) : String :=
  e.fault.message ++ " at line " ++ toString e.line ++ " column " ++ toString e.column

/-- The text still to read and the place reached. -/
structure Cursor where
  rest : List Char
  line : Nat := 1
  column : Nat := 0

namespace Cursor

/-- One character further. -/
def advance (s : Cursor) : Cursor :=
  match s.rest with
  | [] => s
  | '\n' :: cs => ⟨cs, s.line + 1, 0⟩
  | c :: cs => ⟨cs, s.line, s.column + c.utf8Size⟩

/-- A fault in what was read. -/
def fail (s : Cursor) (f : Fault) : Except ParseError α := .error ⟨f, s.line, s.column⟩

/-- A fault in the next byte. -/
def failNext (s : Cursor) (f : Fault) : Except ParseError α :=
  match s.rest with
  | [] => .error ⟨f, s.line, s.column⟩
  | '\n' :: _ => .error ⟨f, s.line + 1, 0⟩
  | _ => .error ⟨f, s.line, s.column + 1⟩

def isBlank (c : Char) : Bool := c == ' ' || c == '\n' || c == '\t' || c == '\r'

/-- The cursor after `n` characters. -/
def advanceBy : Nat → Cursor → Cursor
  | 0, s => s
  | n + 1, s => advanceBy n s.advance

def skipBlanks (s : Cursor) : Cursor := advanceBy (s.rest.takeWhile isBlank).length s

end Cursor

open Cursor

/-! ### Numbers -/

def maxNatural : Nat := Nat.pow 2 64 - 1

def digit? (s : Cursor) : Option Nat :=
  match s.rest with
  | c :: _ => if c.isDigit then some (c.toNat - '0'.toNat) else none
  | [] => none

def powerOfTen (n : Nat) : Float := Float.ofScientific 1 false n

/-- `significand * 10 ^ exponent`, in steps of at most 308 when the exponent is negative;
`none` when it is too large for a double. -/
def scale : Nat → Float → Int → Option Float
  | 0, f, _ => some f
  | fuel + 1, f, exponent =>
    if exponent.natAbs ≤ 308 then
      if 0 ≤ exponent then
        let g := f * powerOfTen exponent.natAbs
        if g.isInf then none else some g
      else some (f / powerOfTen exponent.natAbs)
    else if f == 0 then some f
    else if 0 ≤ exponent then none
    else scale fuel (f / powerOfTen 308) (exponent + 308)

def scaled (s : Cursor) (negative : Bool) (significand : Nat) (exponent : Int) : Except ParseError (Json × Cursor) :=
  match scale 4 (UInt64.ofNat significand).toFloat exponent with
  | none => s.fail .numberOutOfRange
  | some f => .ok (.decimal (if negative then -f else f), s)

def maxExponent : Nat := Nat.pow 2 31 - 1

/-- The digits of an exponent; `none` when they leave the range of exponents. -/
def exponentDigits : Nat → Cursor → Nat → Option Nat × Cursor
  | 0, s, e => (some e, s)
  | fuel + 1, s, e =>
    match digit? s with
    | none => (some e, s)
    | some d =>
      if maxExponent < e * 10 + d then (none, s.advance)
      else exponentDigits fuel s.advance (e * 10 + d)

def skipDigits (s : Cursor) : Cursor := advanceBy (s.rest.takeWhile Char.isDigit).length s

/-- The number after its `e`. -/
def exponentPart (s : Cursor) (negative : Bool) (significand : Nat) (start : Int) : Except ParseError (Json × Cursor) :=
  let s := s.advance
  let down := s.rest.head? == some '-'
  let s := if down || s.rest.head? == some '+' then s.advance else s
  match s.rest with
  | [] => s.fail .eofInValue
  | _ :: _ =>
    match digit? s with
    | none => s.advance.fail .invalidNumber
    | some d =>
      match exponentDigits s.rest.length s.advance d with
      | (some e, s) => scaled s negative significand (if down then start - e else start + e)
      | (none, s) =>
        if significand != 0 && !down then s.fail .numberOutOfRange
        else .ok (.decimal (if negative then -0.0 else 0.0), skipDigits s)

/-- What may follow the digits of a number. -/
def numberEnd (s : Cursor) (negative : Bool) (significand : Nat) (exponent : Int) : Except ParseError (Json × Cursor) :=
  match s.rest with
  | 'e' :: _ | 'E' :: _ => exponentPart s negative significand exponent
  | _ => scaled s negative significand exponent

/-- The digits of a fraction, each lowering the exponent. The first that no longer fits in
the significand is skipped with all that follow, and none of these lowers it. -/
def fractionDigits : Nat → Cursor → Nat → Nat → Cursor × Nat × Nat
  | 0, s, n, k => (s, n, k)
  | fuel + 1, s, n, k =>
    match digit? s with
    | none => (s, n, k)
    | some d =>
      if maxNatural < n * 10 + d then (skipDigits s, n, k)
      else fractionDigits fuel s.advance (n * 10 + d) (k + 1)

example : (fractionDigits 35 ⟨"14159265358979323846264338327950288".toList, 1, 2⟩ 3 0).2 =
    (3141592653589793238, 18) := by decide

/-- The number after its point, with `before` digits dropped ahead of it. -/
def fractionPart (s : Cursor) (negative : Bool) (significand : Nat) (before : Nat) : Except ParseError (Json × Cursor) :=
  let s := s.advance
  match digit? s with
  | none => s.failNext (if s.rest.isEmpty then .eofInValue else .invalidNumber)
  | some d =>
    if maxNatural < significand * 10 + d then
      numberEnd (skipDigits s) negative significand before
    else
      let ds := fractionDigits s.rest.length s.advance (significand * 10 + d) 1
      numberEnd ds.1 negative ds.2.1 ((before : Int) - ds.2.2)

/-- An integer whose digits no longer fit: the digits that follow only raise the exponent. -/
def longInteger (s : Cursor) (negative : Bool) (significand : Nat) : Except ParseError (Json × Cursor) :=
  let count := (s.rest.takeWhile Char.isDigit).length
  let s := skipDigits s
  match s.rest with
  | '.' :: _ => fractionPart s negative significand count
  | _ => numberEnd s negative significand count

/-- The number after its integer part. -/
def afterInteger (s : Cursor) (negative : Bool) (significand : Nat) : Except ParseError (Json × Cursor) :=
  match s.rest with
  | '.' :: _ => fractionPart s negative significand 0
  | 'e' :: _ | 'E' :: _ => exponentPart s negative significand 0
  | _ =>
    if !negative then .ok (.integer significand, s)
    else if significand = 0 || Nat.pow 2 63 < significand then
      .ok (.decimal (-(UInt64.ofNat significand).toFloat), s)
    else .ok (.integer (-significand), s)

def integerDigits : Nat → Cursor → Bool → Nat → Except ParseError (Json × Cursor)
  | 0, s, negative, n => afterInteger s negative n
  | fuel + 1, s, negative, n =>
    match digit? s with
    | none => afterInteger s negative n
    | some d =>
      if maxNatural < n * 10 + d then longInteger s negative n
      else integerDigits fuel s.advance negative (n * 10 + d)

def number (s : Cursor) (negative : Bool) : Except ParseError (Json × Cursor) :=
  match s.rest with
  | [] => s.fail .eofInValue
  | '0' :: _ =>
    let s := s.advance
    if (digit? s).isSome then s.failNext .invalidNumber else afterInteger s negative 0
  | _ :: _ =>
    match digit? s with
    | none => s.advance.fail .invalidNumber
    | some d => integerDigits s.rest.length s.advance negative d

/-! ### Strings -/

def hexValue? (c : Char) : Option Nat :=
  if c.isDigit then some (c.toNat - '0'.toNat)
  else if 'a' ≤ c ∧ c ≤ 'f' then some (c.toNat - 'a'.toNat + 10)
  else if 'A' ≤ c ∧ c ≤ 'F' then some (c.toNat - 'A'.toNat + 10)
  else none

def hexNumber? (cs : List Char) : Option Nat :=
  cs.foldl (fun acc c => do return (← acc) * 16 + (← hexValue? c)) (some 0)

/-- Four hexadecimal digits, counted in bytes. -/
def hexEscape (s : Cursor) : Except ParseError (Nat × Cursor) :=
  let four := s.rest.take 4
  if Text.size four < 4 then (advanceBy s.rest.length s).fail .eofInString
  else match hexNumber? four with
    | some n => .ok (n, advanceBy 4 s)
    | none =>
      let column := s.column + 4
      match four.takeWhile (· != '\n') with
      | front => if front.length = 4 ∨ 4 ≤ Text.size front
        then .error ⟨.invalidEscape, s.line, column⟩
        else .error ⟨.invalidEscape, s.line + 1, 3 - Text.size front⟩

/-- The character of a `\u` escape, which may take two escapes for one character. -/
def unicodeEscape (s : Cursor) : Except ParseError (Char × Cursor) := do
  let (n, s) ← hexEscape s
  if 0xDC00 ≤ n && n ≤ 0xDFFF then s.fail .loneSurrogate
  else if n < 0xD800 || 0xDBFF < n then return (Char.ofNat n, s)
  else
    match s.rest with
    | [] => s.fail .eofInString
    | '\\' :: _ =>
      let s := s.advance
      match s.rest with
      | [] => s.fail .eofInString
      | 'u' :: _ =>
        let (m, s) ← hexEscape s.advance
        if m < 0xDC00 || 0xDFFF < m then s.fail .loneSurrogate
        else return (Char.ofNat ((n - 0xD800) * 0x400 + (m - 0xDC00) + 0x10000), s)
      | _ => s.failNext .unexpectedEndOfHexEscape
    | _ => s.failNext .unexpectedEndOfHexEscape

def simpleEscape? : Char → Option Char
  | '"' => some '"'
  | '\\' => some '\\'
  | '/' => some '/'
  | 'b' => some '\x08'
  | 'f' => some '\x0c'
  | 'n' => some '\n'
  | 'r' => some '\r'
  | 't' => some '\t'
  | _ => none

/-- The rest of a string after its opening quote; `out` holds what was read, reversed. -/
def stringBody : Nat → Cursor → List Char → Except ParseError (String × Cursor)
  | 0, s, _ => s.fail .eofInString
  | fuel + 1, s, out =>
    match s.rest with
    | [] => s.fail .eofInString
    | '"' :: _ => .ok (String.ofList out.reverse, s.advance)
    | '\\' :: _ =>
      let s := s.advance
      match s.rest with
      | [] => s.fail .eofInString
      | 'u' :: _ => do
        let (c, s) ← unicodeEscape s.advance
        stringBody fuel s (c :: out)
      | c :: _ =>
        match simpleEscape? c with
        | some d => stringBody fuel s.advance (d :: out)
        | none => s.failNext .invalidEscape
    | c :: _ =>
      if c.toNat < 32 then s.advance.fail .controlCharacter
      else stringBody fuel s.advance (c :: out)

def stringAfterQuote (s : Cursor) : Except ParseError (String × Cursor) := stringBody (s.rest.length + 1) s []

/-! ### Values -/

/-- The rest of a word after its first letter. -/
def word (s : Cursor) (value : Json) : List Char → Except ParseError (Json × Cursor)
  | [] => .ok (value, s)
  | c :: cs =>
    match s.rest with
    | [] => s.fail .eofInValue
    | d :: _ => if d = c then word s.advance value cs else s.advance.fail .expectedIdent

/-- The items of an array up to its bracket. -/
def items (value : Cursor → Except ParseError (Json × Cursor)) : Nat → Cursor → List Json → Except ParseError (List Json × Cursor)
  | 0, s, _ => s.fail .eofInList
  | fuel + 1, s, out =>
    let s := s.skipBlanks
    match s.rest, out with
    | [], _ => s.failNext .eofInList
    | ']' :: _, _ => .ok (out.reverse, s.advance)
    | _ :: _, [] => do
      let (v, s) ← value s
      items value fuel s [v]
    | ',' :: _, _ => do
      let s := s.advance.skipBlanks
      match s.rest with
      | [] => s.failNext .eofInValue
      | ']' :: _ => s.failNext .trailingComma
      | _ =>
        let (v, s) ← value s
        items value fuel s (v :: out)
    | _, _ => s.failNext .expectedListCommaOrEnd

/-- A member from its opening quote on. -/
def member (value : Cursor → Except ParseError (Json × Cursor)) (s : Cursor) : Except ParseError ((String × Json) × Cursor) := do
  let (name, s) ← stringAfterQuote s.advance
  let s := s.skipBlanks
  match s.rest with
  | [] => s.failNext .eofInObject
  | ':' :: _ =>
    let (v, s) ← value s.advance
    return ((name, v), s)
  | _ => s.failNext .expectedColon

/-- The members of an object up to its brace. -/
def members (value : Cursor → Except ParseError (Json × Cursor)) :
    Nat → Cursor → List (String × Json) → Except ParseError (List (String × Json) × Cursor)
  | 0, s, _ => s.fail .eofInObject
  | fuel + 1, s, out =>
    let s := s.skipBlanks
    match s.rest, out with
    | [], _ => s.failNext .eofInObject
    | '}' :: _, _ => .ok (out.reverse, s.advance)
    | '"' :: _, [] => do
      let (m, s) ← member value s
      members value fuel s [m]
    | _, [] => s.failNext .keyMustBeString
    | ',' :: _, _ => do
      let s := s.advance.skipBlanks
      match s.rest with
      | [] => s.failNext .eofInValue
      | '"' :: _ =>
        let (m, s) ← member value s
        members value fuel s (m :: out)
      | '}' :: _ => s.failNext .trailingComma
      | _ => s.failNext .keyMustBeString
    | _, _ => s.failNext .expectedObjectCommaOrEnd

/-- A value that opens fewer than `depth` brackets inside one another. -/
def value : Nat → Cursor → Except ParseError (Json × Cursor)
  | depth, s =>
    let s := s.skipBlanks
    match s.rest with
    | [] => s.failNext .eofInValue
    | 'n' :: _ => word s.advance .null ['u', 'l', 'l']
    | 't' :: _ => word s.advance (.bool true) ['r', 'u', 'e']
    | 'f' :: _ => word s.advance (.bool false) ['a', 'l', 's', 'e']
    | '-' :: _ => number s.advance true
    | '"' :: _ => do
      let (t, s) ← stringAfterQuote s.advance
      return (.string t, s)
    | '[' :: _ =>
      match depth with
      | 0 => s.failNext .recursionLimit
      | depth + 1 => do
        let (vs, s) ← items (value depth) (s.rest.length + 1) s.advance []
        return (.array vs, s)
    | '{' :: _ =>
      match depth with
      | 0 => s.failNext .recursionLimit
      | depth + 1 => do
        let (ms, s) ← members (value depth) (s.rest.length + 1) s.advance []
        return (.object (sortMembers ms), s)
    | c :: _ => if c.isDigit then number s false else s.failNext .expectedValue

/-- How many brackets may be open at once. -/
def depthLimit : Nat := 127

/-- Reads a text that holds one value. -/
def parse (source : List Char) : Except ParseError Json := do
  let (v, s) ← value depthLimit ⟨source, 1, 0⟩
  let s := s.skipBlanks
  if s.rest.isEmpty then return v else s.failNext .trailingCharacters

end Bundler.Json
