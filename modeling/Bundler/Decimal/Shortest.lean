/-! The shortest decimal that reads back as a given double. A finite double is
`m * 2 ^ (e - 1074)`; the reals that round to it form an interval around it, and
the digits found are those of the coarsest decimal grid with a point inside. -/
namespace Bundler.Decimal

/-- A positive decimal: the digits `d₁d₂…` stand for `0.d₁d₂… * 10 ^ point`. -/
structure Digits where
  digits : List Char
  point : Int
deriving DecidableEq, Inhabited

/-- The magnitude of a finite double as `mantissa * 2 ^ (exponent - 1074)`. -/
structure Binary where
  mantissa : Nat
  exponent : Nat
deriving DecidableEq, Inhabited

/-- Reads the fields of the 64-bit form, without the sign. -/
def Binary.ofBits (bits : UInt64) : Binary :=
  let fraction := bits.toNat % Nat.pow 2 52
  let biased := bits.toNat / Nat.pow 2 52 % Nat.pow 2 11
  if biased = 0 then ⟨fraction, 0⟩ else ⟨fraction + Nat.pow 2 52, biased - 1⟩

/-- A fraction of natural numbers. -/
structure Ratio where
  num : Nat
  den : Nat

def Ratio.le (a b : Ratio) : Bool := a.num * b.den ≤ b.num * a.den

/-- `n` quarters of a unit of the last place, in exact form. -/
def Binary.quarters (b : Binary) (n : Nat) : Ratio :=
  ⟨n * Nat.pow 2 (b.exponent - 1076), Nat.pow 2 (1076 - b.exponent)⟩

/-- The ends of the interval of reals that round to `b`, whose ends belong to it
exactly when the mantissa is even. -/
def Binary.lower (b : Binary) : Ratio :=
  if b.mantissa = Nat.pow 2 52 ∧ 0 < b.exponent then b.quarters (4 * b.mantissa - 1)
  else b.quarters (4 * b.mantissa - 2)

def Binary.upper (b : Binary) : Ratio := b.quarters (4 * b.mantissa + 2)

def Binary.reads (b : Binary) (r : Ratio) : Bool :=
  if b.mantissa % 2 = 0 then b.lower.le r && r.le b.upper
  else !r.le b.lower && !b.upper.le r

/-- The position of the decimal point of a positive double before its first digit. -/
def Binary.point (b : Binary) : Int :=
  let v := b.quarters (4 * b.mantissa)
  let scaled := v.num * Nat.pow 10 350 / v.den
  (Nat.toDigits 10 scaled).length - 350

/-- The better of the two neighbours on the grid of `count` digits, if one reads back. -/
def Binary.onGrid? (b : Binary) (point : Int) (count : Nat) : Option Nat :=
  let v := b.quarters (4 * b.mantissa)
  let up := (count - point).toNat
  let down := (point - count).toNat
  let num := v.num * Nat.pow 10 up
  let den := v.den * Nat.pow 10 down
  let floor := num / den
  let grid (n : Nat) : Ratio := ⟨n * Nat.pow 10 down, Nat.pow 10 up⟩
  match b.reads (grid floor) && floor != 0, b.reads (grid (floor + 1)) with
  | true, true =>
    let twice := 2 * (num % den)
    if twice < den || (twice == den && floor % 2 == 0) then some floor else some (floor + 1)
  | true, false => some floor
  | false, true => some (floor + 1)
  | false, false => none

def dropZeros (ds : List Char) : List Char := (ds.reverse.dropWhile (· == '0')).reverse

/-- The digits of a positive double. -/
def Binary.shortest (b : Binary) : Digits :=
  let point := b.point
  match (List.range 17).findSome? fun k => (b.onGrid? point (k + 1)).map (k + 1, ·) with
  | none => ⟨[], point⟩
  | some (count, n) =>
    let ds := Nat.toDigits 10 n
    ⟨dropZeros ds, point + ds.length - count⟩

/-- How a decimal is written: positional while the exponent of its first digit lies in a
range, always with a fraction, else in scientific form. -/
structure Notation where
  leastExponent : Int
  greatestExponent : Int
  plusSign : Bool

def Notation.write (n : Notation) (d : Digits) : List Char :=
  let exponent := d.point - 1
  let count : Int := d.digits.length
  if n.leastExponent ≤ exponent && exponent ≤ n.greatestExponent then
    if d.point ≤ 0 then
      ['0', '.'] ++ List.replicate (-d.point).toNat '0' ++ d.digits
    else if count ≤ d.point then
      d.digits ++ List.replicate (d.point - count).toNat '0' ++ ['.', '0']
    else d.digits.take d.point.toNat ++ '.' :: d.digits.drop d.point.toNat
  else
    let mantissa := match d.digits with
      | c :: r :: rs => c :: '.' :: r :: rs
      | ds => ds
    let sign := if exponent < 0 then ['-'] else if n.plusSign then ['+'] else []
    mantissa ++ 'e' :: sign ++ Nat.toDigits 10 exponent.natAbs

end Bundler.Decimal
