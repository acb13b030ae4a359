import Bundler.Toml.Reader

/-! The small parts of a TOML document: blanks, comments, keys and strings. -/
namespace Bundler.Toml
open Reader

def isBlank (c : Char) : Bool := c == ' ' || c == '\t'

def blanks : Reader Unit := do
  let _ ← takeWhile isBlank

/-- Characters that show on a line, and the tab. -/
def isShown (c : Char) : Bool := c == '\t' || (' ' ≤ c && c != '\x7f')

def lineBreak : Reader Unit := first [text "\n", text "\r\n"]

/-- A comment up to the end of its line. -/
def comment : Reader Unit := do
  char '#'
  let _ ← takeWhile isShown

/-- The end of a line with a comment in front of it. -/
def lineEnd : Reader Unit := do
  blanks
  if (← next?) == some '#' then comment
  if !(← rest).isEmpty then lineBreak

/-- Skips blanks, line breaks and comments. -/
def gap : Nat → Reader Unit
  | 0 => return
  | n + 1 => do
    blanks
    match ← next? with
    | some '#' =>
      comment
      lineBreak
      gap n
    | some '\n' | some '\r' =>
      lineBreak
      gap n
    | _ => return

def skipGap : Reader Unit := do gap ((← rest).length + 1)

/-! ### Strings -/

def isHex (c : Char) : Bool := c.isDigit || ('a' ≤ c && c ≤ 'f') || ('A' ≤ c && c ≤ 'F')

def digitValue (c : Char) : Nat :=
  if c.isDigit then c.toNat - '0'.toNat
  else if c.isUpper then c.toNat - 'A'.toNat + 10
  else c.toNat - 'a'.toNat + 10

/-- The number that digits write. -/
def numeral (base : Nat) (ds : List Char) : Nat := ds.foldl (fun n c => n * base + digitValue c) 0

def codeEscape (count : Nat) : Reader Char := do
  let n := numeral 16 (← exactly isHex count)
  if n.isValidChar then return Char.ofNat n else fail

/-- An escape behind its backslash. -/
def escape : Reader Char := do
  match ← satisfy fun _ => true with
  | 'b' => return '\x08'
  | 't' => return '\t'
  | 'n' => return '\n'
  | 'f' => return '\x0c'
  | 'r' => return '\r'
  | '"' => return '"'
  | '\\' => return '\\'
  | 'u' => codeEscape 4
  | 'U' => codeEscape 8
  | _ => fail

/-- The rest of a string on one line. -/
def basicRest : Nat → Reader (List Char)
  | 0 => fail
  | n + 1 => do
    match ← satisfy isShown with
    | '"' => return []
    | '\\' => return (← escape) :: (← basicRest n)
    | c => return c :: (← basicRest n)

def basicString : Reader String := do
  char '"'
  return String.ofList (← basicRest ((← rest).length + 1))

def literalString : Reader String := do
  char '\x27'
  let cs ← takeWhile fun c => isShown c && c != '\x27'
  char '\x27'
  return String.ofList cs

/-- The quotes at the end of a long string: three close it, and up to two stand before
them. -/
def closingQuotes (quote : Char) : Reader (Option (List Char)) := do
  let run := (← rest).takeWhile (· == quote)
  if run.length < 3 then return none
  else
    let n := min run.length 5
    let _ ← exactly (· == quote) n
    return some (run.take (n - 3))

/-- A backslash at the end of a line, with all blanks and line breaks behind it. -/
def lineContinuation : Reader Unit := do
  char '\\'
  blanks
  lineBreak
  let _ ← takeWhile fun c => isBlank c || c == '\n' || c == '\r'

/-- A line break or a character of a long string. -/
def longChar : Reader Char := do
  match ← next? with
  | some '\n' | some '\r' =>
    lineBreak
    return '\n'
  | _ => satisfy isShown

/-- The rest of a long string; `escapes` when a backslash has a meaning in it. -/
def longRest (quote : Char) (escapes : Bool) : Nat → Reader (List Char)
  | 0 => fail
  | n + 1 => do
    match ← closingQuotes quote with
    | some cs => return cs
    | none =>
      if escapes && (← next?) == some '\\' then
        match ← maybe lineContinuation with
        | some () => longRest quote escapes n
        | none =>
          char '\\'
          return (← escape) :: (← longRest quote escapes n)
      else return (← longChar) :: (← longRest quote escapes n)

/-- A string between three quotes; a line break behind the first ones is dropped. -/
def longString (quote : Char) (escapes : Bool) : Reader String := do
  let _ ← exactly (· == quote) 3
  let _ ← maybe lineBreak
  return String.ofList (← longRest quote escapes ((← rest).length + 1))

def string : Reader String := do
  let quotes := (← rest).take 3
  if quotes == ['"', '"', '"'] then longString '"' true
  else if quotes == ['\x27', '\x27', '\x27'] then longString '\x27' false
  else if quotes.head? == some '"' then basicString
  else literalString

/-! ### Keys -/

def isKeyChar (c : Char) : Bool := c.isAlphanum || c == '-' || c == '_'

def simpleKey : Reader String := do
  match ← next? with
  | some '"' => basicString
  | some '\x27' => literalString
  | _ =>
    let cs ← takeWhile isKeyChar
    if cs.isEmpty then fail else return String.ofList cs

def keyRest : Nat → Reader (List String)
  | 0 => fail
  | n + 1 => do
    blanks
    let k ← simpleKey
    blanks
    if ← accept "." then return k :: (← keyRest n) else return [k]

/-- A key with dots: its path, and its last part. -/
def dottedKey : Reader (List String × String) := do
  let ks ← keyRest ((← rest).length + 1)
  match ks.getLast? with
  | some k => return (ks.dropLast, k)
  | none => fail

end Bundler.Toml
