import Bundler.Toml.Number
import Bundler.Toml.Table
import Bundler.Toml.Time

/-! Parsing of TOML documents. -/
namespace Bundler.Toml
open Reader

/-! ### Values -/

/-- The items of an array up to its bracket. -/
def items (value : Reader Json) : Nat → Reader (List Json)
  | 0 => fail
  | n + 1 => do
    skipGap
    if ← accept "]" then return []
    let v ← value
    skipGap
    if ← accept "," then return v :: (← items value n)
    char ']'
    return [v]

/-- The members of a table in braces up to its end. -/
def inlineRest (value : Reader Json) : Nat → Members → Reader Members
  | 0, _ => fail
  | n + 1, ms => do
    let (path, key) ← dottedKey
    char '='
    blanks
    let v ← value
    blanks
    match Members.addValue path key v .header ms with
    | none => fail
    | some ms =>
      if ← accept "," then inlineRest value n ms
      else
        char '}'
        return ms

def inlineTable (value : Reader Json) : Reader Json := do
  char '{'
  blanks
  let ms ← if ← accept "\x7d" then pure [] else inlineRest value (← rest).length []
  return (Node.table .header ms).toJson

/-- A value without brackets. -/
def scalar : Reader Json := do
  match ← next? with
  | some '"' | some '\x27' => return .string (← string)
  | some 't' =>
    text "true"
    return .bool true
  | some 'f' =>
    text "false"
    return .bool false
  | some 'i' | some 'n' => special
  | _ => first [dateOrTime, special, decimal, integer]

/-- How many brackets may be open at once. -/
def depthLimit : Nat := 80

/-- A value that opens at most `depth` brackets inside one another. -/
def value : Nat → Reader Json
  | 0 => scalar
  | depth + 1 => do
    match ← next? with
    | some '[' =>
      char '['
      return .array (← items (value depth) ((← rest).length + 1))
    | some '{' => inlineTable (value depth)
    | _ => scalar

/-! ### Documents -/

/-- What was read: all tables, and the one that keys are added to. -/
structure Document where
  top : Members := []
  path : List String := []

namespace Document

/-- Adds a value to the current table. -/
def add (d : Document) (path : List String) (key : String) (v : Json) : Option Document := do
  return { d with
    top := ← Members.change .passed (Members.addValue path key v) d.path .header d.top }

def toJson (d : Document) : Json := (Node.table .header d.top).toJson

end Document

/-- A header, which chooses the current table. -/
def header (d : Document) : Reader Document := do
  if ← accept "[[" then
    let (path, key) ← dottedKey
    text "]]"
    match d.top.openItem path key with
    | some top => return ⟨top, path ++ [key]⟩
    | none => fail
  else
    char '['
    let (path, key) ← dottedKey
    char ']'
    match d.top.openTable path key with
    | some top => return ⟨top, path ++ [key]⟩
    | none => fail

/-- A key with its value. -/
def keyValue (d : Document) : Reader Document := do
  let (path, key) ← dottedKey
  char '='
  blanks
  match d.add path key (← value depthLimit) with
  | some d => return d
  | none => fail

/-- The lines of a document. -/
def lines : Nat → Document → Reader Document
  | 0, d => return d
  | n + 1, d => do
    blanks
    match ← next? with
    | none => return d
    | some '\n' | some '\r' | some '#' =>
      lineEnd
      lines n d
    | some '[' =>
      let d ← header d
      lineEnd
      lines n d
    | some _ =>
      let d ← keyValue d
      lineEnd
      lines n d

/-- The object a document stands for. -/
def parse? (source : List Char) : Option Json := do
  let cs := if source.head? == some '\ufeff' then source.tail else source
  let (d, _) ← (lines (cs.length + 1) {}).run cs
  return d.toJson

end Bundler.Toml
