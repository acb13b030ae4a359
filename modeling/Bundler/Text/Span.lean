/-! Byte positions in a text. A text is a list of characters and a position counts
the bytes of its UTF-8 form, so a span names a piece of a source file the way
editors and error messages do. -/
namespace Bundler

/-- The bytes from `start` up to, not including, `stop`. -/
structure Span where
  start : Nat
  stop : Nat
deriving DecidableEq, Inhabited

namespace Text

/-- The number of bytes of a text. -/
def size (s : List Char) : Nat := s.foldr (·.utf8Size + ·) 0

@[simp] theorem size_nil : size [] = 0 := rfl

@[simp] theorem size_cons (c : Char) (s : List Char) : size (c :: s) = c.utf8Size + size s := rfl

@[simp] theorem size_append (s t : List Char) : size (s ++ t) = size s + size t := by
  induction s with
  | nil => simp
  | cons c s ih => simp [ih, Nat.add_assoc]

/-- The longest front part of at most `n` bytes. -/
def take : Nat → List Char → List Char
  | _, [] => []
  | n, c :: s => if c.utf8Size ≤ n then c :: take (n - c.utf8Size) s else []

/-- What `take n` leaves. -/
def drop : Nat → List Char → List Char
  | _, [] => []
  | n, c :: s => if c.utf8Size ≤ n then drop (n - c.utf8Size) s else c :: s

theorem take_append_drop (n : Nat) (s : List Char) : take n s ++ drop n s = s := by
  induction s generalizing n with
  | nil => rfl
  | cons c s ih => by_cases h : c.utf8Size ≤ n <;> simp [take, drop, h, ih]

/-- A position is a boundary when no character straddles it. -/
def isBoundary (s : List Char) (n : Nat) : Bool := size (take n s) == n

/-- The text of a span, or nothing when an end falls inside a character or outside the text. -/
def slice? (s : List Char) (at_ : Span) : Option (List Char) :=
  if at_.start ≤ at_.stop && isBoundary s at_.start && isBoundary s at_.stop then
    some (take (at_.stop - at_.start) (drop at_.start s))
  else none

/-- The text of a span, empty where the span names none. -/
def slice (s : List Char) (at_ : Span) : List Char := (slice? s at_).getD []

/-- The 1-based line and byte column of a position. -/
def position (s : List Char) (n : Nat) : Nat × Nat :=
  (take n s).foldl (fun (line, column) c =>
    if c = '\n' then (line + 1, 1) else (line, column + c.utf8Size)) (1, 1)

end Text
end Bundler
