/-! Byte counts for people: bytes below a kibibyte, else tenths of KiB or MiB. A
count above 2^53 is first rounded to 53 bits. -/
namespace Bundler.Text

/-- The quotient rounded to the nearest number, a half to the even one. -/
def roundDiv (a b : Nat) : Nat :=
  let q := a / b
  let r := a % b
  if 2 * r < b then q else if b < 2 * r then q + 1 else q + q % 2

/-- The nearest number with at most 53 significant bits. -/
def round53 (n : Nat) : Nat :=
  let unit := Nat.pow 2 (n.log2 + 1 - 53)
  roundDiv n unit * unit

/-- `n` units of size `unit` with one decimal. -/
def tenths (n unit : Nat) : String :=
  let t := roundDiv (10 * n) unit
  toString (t / 10) ++ "." ++ toString (t % 10)

def byteCount (n : Nat) : String :=
  let m := round53 n
  if m < Nat.pow 2 10 then toString n ++ " B"
  else if m < Nat.pow 2 20 then tenths m (Nat.pow 2 10) ++ " KiB"
  else tenths m (Nat.pow 2 20) ++ " MiB"

/-- At most `width` characters; a cut text of more than three ends in three dots. -/
def truncate (s : String) (width : Nat) : String :=
  let cs := s.toList
  if cs.length ≤ width then s
  else if width ≤ 3 then String.ofList (cs.take width)
  else String.ofList (cs.take (width - 3) ++ ['.', '.', '.'])

end Bundler.Text
