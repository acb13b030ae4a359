import Bundler.Decimal.Shortest
import Bundler.Json.Value

/-! The text of a JSON value, on one line or indented by two spaces. -/
namespace Bundler.Json

def hexDigit (n : Nat) : Char := "0123456789abcdef".toList.getD n '0'

/-- The escape of a character inside a string; most stand for themselves. -/
def escapeChar (c : Char) : List Char :=
  match c with
  | '"' => ['\\', '"']
  | '\\' => ['\\', '\\']
  | '\n' => ['\\', 'n']
  | '\r' => ['\\', 'r']
  | '\t' => ['\\', 't']
  | '\x08' => ['\\', 'b']
  | '\x0c' => ['\\', 'f']
  | c =>
    if c.toNat < 32 then ['\\', 'u', '0', '0', hexDigit (c.toNat / 16), hexDigit (c.toNat % 16)]
    else [c]

/-- A string literal with its quotes. -/
def literal (s : List Char) : List Char := '"' :: s.flatMap escapeChar ++ ['"']

/-- Decimals are positional from 10^-5 up to 10^16. -/
def decimalNotation : Decimal.Notation := ⟨-5, 15, true⟩

/-- The text of a double; one that is not finite has none in JSON and is written `null`. -/
def decimalText (x : Float) : List Char :=
  let bits := x.toBits
  let b := Decimal.Binary.ofBits bits
  let sign := if Nat.pow 2 63 ≤ bits.toNat then ['-'] else []
  if 2046 ≤ b.exponent then ['n', 'u', 'l', 'l']
  else if b.mantissa = 0 then sign ++ ['0', '.', '0']
  else sign ++ decimalNotation.write b.shortest

def integerText (n : Int) : List Char := (toString n).toList

mutual

def text : Json → List Char
  | null => ['n', 'u', 'l', 'l']
  | bool true => ['t', 'r', 'u', 'e']
  | bool false => ['f', 'a', 'l', 's', 'e']
  | integer n => integerText n
  | decimal x => decimalText x
  | string s => literal s.toList
  | array items => '[' :: itemsText items ++ [']']
  | object ms => '{' :: membersText ms ++ ['}']

def itemsText : List Json → List Char
  | [] => []
  | [v] => text v
  | v :: vs => text v ++ ',' :: itemsText vs

def membersText : List (String × Json) → List Char
  | [] => []
  | [(n, v)] => literal n.toList ++ ':' :: text v
  | (n, v) :: ms => literal n.toList ++ ':' :: text v ++ ',' :: membersText ms

end

/-- The text on one line. -/
def compress (v : Json) : String := String.ofList (text v)

/-- A new line, indented for `depth` open brackets. -/
def newline (depth : Nat) : List Char := '\n' :: List.replicate (2 * depth) ' '

mutual

def prettyText (depth : Nat) : Json → List Char
  | array (v :: vs) =>
    '[' :: newline (depth + 1) ++ prettyItems (depth + 1) (v :: vs) ++ newline depth ++ [']']
  | object (m :: ms) =>
    '{' :: newline (depth + 1) ++ prettyMembers (depth + 1) (m :: ms) ++ newline depth ++ ['}']
  | v => text v

def prettyItems (depth : Nat) : List Json → List Char
  | [] => []
  | [v] => prettyText depth v
  | v :: vs => prettyText depth v ++ ',' :: newline depth ++ prettyItems depth vs

def prettyMembers (depth : Nat) : List (String × Json) → List Char
  | [] => []
  | [(n, v)] => literal n.toList ++ ':' :: ' ' :: prettyText depth v
  | (n, v) :: ms =>
    literal n.toList ++ ':' :: ' ' :: prettyText depth v ++ ',' :: newline depth ++
      prettyMembers depth ms

end

/-- The text with one item or member a line. -/
def pretty (v : Json) : String := String.ofList (prettyText 0 v)

end Bundler.Json
