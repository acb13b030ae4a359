import Bundler.Json.Value
import Bundler.Toml.Text

/-! Dates and times of day. As a value they are an object with their text, in one
spelling, under a name of its own. -/
namespace Bundler.Toml
open Reader

/-- The name under which the text of a date or time stands. -/
def timeKey : String := "$__toml_private_datetime"

/-- A number of `count` digits, within bounds. -/
def fixedNumber (count least most : Nat) : Reader Nat := do
  let n := numeral 10 (← exactly Char.isDigit count)
  if least ≤ n && n ≤ most then return n else fail

def padded (count n : Nat) : String :=
  let ds := toString n
  String.ofList (List.replicate (count - ds.length) '0') ++ ds

def isLeapYear (y : Nat) : Bool := (y % 4 == 0 && y % 100 != 0) || y % 400 == 0

def daysIn (year month : Nat) : Nat :=
  match month with
  | 2 => if isLeapYear year then 29 else 28
  | 4 | 6 | 9 | 11 => 30
  | _ => 31

def date : Reader String := do
  let y ← fixedNumber 4 0 9999
  char '-'
  let m ← fixedNumber 2 1 12
  char '-'
  let d ← fixedNumber 2 1 (daysIn y m)
  return padded 4 y ++ "-" ++ padded 2 m ++ "-" ++ padded 2 d

/-- The fraction of a second, to nine places. -/
def fraction : Reader String := do
  if ← accept "." then
    let ds ← takeWhile Char.isDigit
    if ds.isEmpty then fail
    let kept := ((ds.take 9).reverse.dropWhile (· == '0')).reverse
    return if kept.isEmpty then "" else String.ofList ('.' :: kept)
  else return ""

def time : Reader String := do
  let h ← fixedNumber 2 0 23
  char ':'
  let m ← fixedNumber 2 0 59
  char ':'
  let s ← fixedNumber 2 0 60
  return padded 2 h ++ ":" ++ padded 2 m ++ ":" ++ padded 2 s ++ (← fraction)

/-- The distance from universal time, if one is given. -/
def offset : Reader String := do
  match ← next? with
  | some 'Z' | some 'z' =>
    let _ ← satisfy fun _ => true
    return "Z"
  | some c =>
    if c == '+' || c == '-' then
      let _ ← satisfy fun _ => true
      let h ← fixedNumber 2 0 23
      char ':'
      let m ← fixedNumber 2 0 59
      let sign := if c == '-' && (h, m) != (0, 0) then "-" else "+"
      return sign ++ padded 2 h ++ ":" ++ padded 2 m
    else return ""
  | none => return ""

/-- The time behind a date. -/
def timeOfDate : Reader String := do
  let _ ← satisfy fun c => c == 'T' || c == 't' || c == ' '
  let t ← time
  return "T" ++ t ++ (← offset)

/-- A date with or without a time, or a time. -/
def dateOrTime : Reader Json := do
  let s ← first [do
    let d ← date
    return d ++ ((← maybe timeOfDate).getD ""), time]
  return .object [(timeKey, .string s)]

end Bundler.Toml
