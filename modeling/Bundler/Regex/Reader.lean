import Bundler.Regex.Fault
import Bundler.Regex.Property

/-! Reading the text of a regular expression, character by character. -/
namespace Bundler.Regex

/-- What the flags of an expression switch. -/
structure Flags where
  caseless : Bool := false
  multiLine : Bool := false
  dotAll : Bool := false
  carriage : Bool := false
  unicode : Bool := true
  /-- Blanks and comments between the parts of the expression are skipped. -/
  blanks : Bool := false

structure Reader where
  rest : List Char
  mark : Mark
  flags : Flags
  /-- The names of groups so far. -/
  names : List (List Char × Extent)
  /-- The first fault that lies in the meaning of the expression and not in its form. -/
  meaning : Option RegexError

abbrev Reading := StateT Reader (Except RegexError)

namespace Reading

def mark : Reading Mark := return (← get).mark

def flags : Reading Flags := return (← get).flags

def next? : Reading (Option Char) := return (← get).rest.head?

def isDone : Reading Bool := return (← get).rest.isEmpty

def refuse (fault : Fault) (at_ : Extent) : Reading α := throw ⟨fault, at_, none⟩

/-- Refuses the text from a place up to the current one. -/
def refuseFrom (fault : Fault) (start : Mark) : Reading α := do refuse fault ⟨start, ← mark⟩

/-- Refuses the current place. -/
def refuseHere (fault : Fault) : Reading α := do refuseFrom fault (← mark)

def Mark.after (m : Mark) (c : Char) : Mark :=
  if c == '\n' then ⟨m.offset + c.utf8Size, m.line + 1, 1⟩
  else ⟨m.offset + c.utf8Size, m.line, m.column + 1⟩

/-- The extent of the next character. -/
def nextExtent : Reading Extent := do
  let m ← mark
  match ← next? with
  | some c => return ⟨m, Mark.after m c⟩
  | none => return ⟨m, m⟩

/-- Refuses the next character. -/
def refuseNext (fault : Fault) : Reading α := do refuse fault (← nextExtent)

/-- Notes a fault in the meaning, unless there is one already. -/
def objectTo (fault : Fault) (at_ : Extent) : Reading Unit :=
  modify fun r => { r with meaning := r.meaning <|> some ⟨fault, at_, none⟩ }

/-- One character further; tells whether there is more. -/
def bump : Reading Bool := do
  let r ← get
  match r.rest with
  | [] => return false
  | c :: cs =>
    modify fun _ => { r with rest := cs, mark := Mark.after r.mark c }
    return !cs.isEmpty

def bumpBy : Nat → Reading Unit
  | 0 => return
  | n + 1 => do
    let _ ← bump
    bumpBy n

/-- The number of characters of the blanks and comments a text starts with. -/
def blankLength (inComment : Bool) : List Char → Nat
  | [] => 0
  | c :: cs =>
    if inComment then blankLength (c != '\n') cs + 1
    else if Text.isWhite c then blankLength false cs + 1
    else if c == '#' then blankLength true cs + 1
    else 0

def skipBlanks : Reading Unit := do
  let r ← get
  if r.flags.blanks then bumpBy (blankLength false r.rest)

/-- One character further and past blanks; tells whether there is more. -/
def bumpSkip : Reading Bool := do
  if !(← bump) then return false
  skipBlanks
  return !(← isDone)

/-- Reads this text if it comes next. -/
def bumpIf (s : String) : Reading Bool := do
  if s.toList.isPrefixOf (← get).rest then
    bumpBy s.length
    return true
  else return false

/-- The character behind the next one, past blanks. -/
def peekSkip : Reading (Option Char) := do
  let r ← get
  let behind := r.rest.drop 1
  return (if r.flags.blanks then behind.drop (blankLength false behind) else behind).head?

end Reading
end Bundler.Regex
