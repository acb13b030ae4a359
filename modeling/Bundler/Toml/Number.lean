import Bundler.Json.Value
import Bundler.Toml.Text

/-! Numbers. Digits may be parted by single underscores; integers have 64 bits with a
sign, all else is a double. -/
namespace Bundler.Toml
open Reader

def digitsRest (p : Char → Bool) : Nat → Reader (List Char)
  | 0 => return []
  | n + 1 => do
    match ← next? with
    | some '_' =>
      char '_'
      return (← satisfy p) :: (← digitsRest p n)
    | some c => if p c then return (← satisfy p) :: (← digitsRest p n) else return []
    | none => return []

/-- Digits without the underscores between them. -/
def digits (p : Char → Bool) : Reader (List Char) := do
  return (← satisfy p) :: (← digitsRest p (← rest).length)

/-- A sign; tells whether it is a minus. -/
def sign : Reader Bool := do
  match ← next? with
  | some '-' =>
    char '-'
    return true
  | some '+' =>
    char '+'
    return false
  | _ => return false

/-- Decimal digits, of which the first is zero only when it stands alone. -/
def decimalDigits : Reader (List Char) := do
  if ← accept "0" then return ['0'] else digits Char.isDigit

def ofInt (n : Int) : Reader Json := do
  if -(Int.pow 2 63) ≤ n && n < Int.pow 2 63 then return .integer n else fail

/-- An integer in another base, behind its letter. -/
def based (letter : String) (base : Nat) (p : Char → Bool) : Reader Json := do
  text ("0" ++ letter)
  ofInt (numeral base (← digits p))

def integer : Reader Json := do
  match (← rest).take 2 with
  | ['0', 'x'] => based "x" 16 isHex
  | ['0', 'o'] => based "o" 8 fun c => '0' ≤ c && c ≤ '7'
  | ['0', 'b'] => based "b" 2 fun c => c == '0' || c == '1'
  | _ =>
    let negative ← sign
    let n : Int := numeral 10 (← decimalDigits)
    ofInt (if negative then -n else n)

/-- An exponent behind its letter. -/
def exponent : Reader Int := do
  let _ ← satisfy fun c => c == 'e' || c == 'E'
  let negative ← sign
  let n : Int := numeral 10 (← digits Char.isDigit)
  return if negative then -n else n

/-- The double nearest to `n` times a power of ten. Exponents beyond all doubles are cut
off before the power is built. -/
def nearest (n : Nat) (exponent : Int) : Float :=
  let size : Int := (toString n).length
  if n = 0 || size + exponent < -400 then 0
  else if 400 < size + exponent then Float.ofScientific 1 false 400
  else Float.ofScientific n (exponent < 0) exponent.natAbs

def withSign (negative : Bool) (x : Float) : Float := if negative then -x else x

def decimal : Reader Json := do
  let negative ← sign
  let whole ← decimalDigits
  let part ← if ← accept "." then digits Char.isDigit else pure []
  let power ← maybe exponent
  if part.isEmpty && power.isNone then fail
  let x := nearest (numeral 10 (whole ++ part)) (power.getD 0 - part.length)
  if x.isInf && !negative then fail
  return .decimal (withSign negative x)

/-- Infinity, or what is no number. -/
def special : Reader Json := do
  let negative ← sign
  if ← accept "inf" then return .decimal (withSign negative (1 / 0))
  text "nan"
  return .decimal (withSign negative (0 / 0))

end Bundler.Toml
