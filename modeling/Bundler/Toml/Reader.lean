/-! Reading text from the front, without a reason when it is not as expected. -/
namespace Bundler.Toml

abbrev Reader := StateT (List Char) Option

namespace Reader

def fail : Reader α := fun _ => none

def rest : Reader (List Char) := get

def next? : Reader (Option Char) := return (← rest).head?

/-- Reads a character that satisfies a condition. -/
def satisfy (p : Char → Bool) : Reader Char := do
  match ← rest with
  | c :: cs =>
    if p c then
      set cs
      return c
    else fail
  | [] => fail

def char (c : Char) : Reader Unit := do
  let _ ← satisfy (· == c)

def text (s : String) : Reader Unit := s.toList.forM char

/-- Reads the text if it comes next. -/
def accept (s : String) : Reader Bool := do
  if s.toList.isPrefixOf (← rest) then
    text s
    return true
  else return false

def takeWhile (p : Char → Bool) : Reader (List Char) := do
  let cs ← rest
  set (cs.dropWhile p)
  return cs.takeWhile p

/-- Reads exactly `n` characters of a kind. -/
def exactly (p : Char → Bool) : Nat → Reader (List Char)
  | 0 => return []
  | n + 1 => do
    let c ← satisfy p
    return c :: (← exactly p n)

/-- Reads something if it is there, else nothing. -/
def maybe (r : Reader α) : Reader (Option α) := fun s =>
  match r s with
  | some (a, s) => some (some a, s)
  | none => some (none, s)

/-- Reads the first alternative that fits. -/
def first (rs : List (Reader α)) : Reader α := fun s => rs.findSome? fun r => r s

end Reader
end Bundler.Toml
