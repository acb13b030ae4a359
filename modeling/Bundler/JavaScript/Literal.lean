import Bundler.JavaScript.Token

/-! The value of a string literal. -/
namespace Bundler.JavaScript.Literal

def hexValue (c : Char) : Nat :=
  if c.isDigit then c.toNat - '0'.toNat
  else if c.isUpper then c.toNat - 'A'.toNat + 10
  else c.toNat - 'a'.toNat + 10

/-- The character with a hexadecimal code; a code that names none stands for nothing. -/
def ofCode (digits : List Char) : List Char :=
  let ds := if digits.head? == some '+' then digits.drop 1 else digits
  let n := ds.foldl (fun n c => n * 16 + hexValue c) 0
  if ds.isEmpty || !ds.all isHexDigit || !n.isValidChar then [] else [Char.ofNat n]

/-- Decodes the text between the quotes, in at most `fuel` steps. -/
def decodeFrom : Nat → List Char → List Char
  | 0, _ => []
  | fuel + 1, cs =>
    match cs with
    | [] => []
    | '\\' :: 'n' :: cs => '\n' :: decodeFrom fuel cs
    | '\\' :: 't' :: cs => '\t' :: decodeFrom fuel cs
    | '\\' :: 'r' :: cs => '\r' :: decodeFrom fuel cs
    | '\\' :: '0' :: cs => '\x00' :: decodeFrom fuel cs
    | '\\' :: 'u' :: '{' :: cs =>
      ofCode (cs.takeWhile (· != '}')) ++ decodeFrom fuel ((cs.dropWhile (· != '}')).drop 1)
    | '\\' :: 'u' :: cs => ofCode (cs.take 4) ++ decodeFrom fuel (cs.drop 4)
    | '\\' :: 'x' :: cs => ofCode (cs.take 2) ++ decodeFrom fuel (cs.drop 2)
    | '\\' :: '\n' :: cs => decodeFrom fuel cs
    | '\\' :: c :: cs => c :: decodeFrom fuel cs
    | c :: cs => c :: decodeFrom fuel cs

/-- Decodes the text between the quotes of a literal. -/
def decode (cs : List Char) : List Char := decodeFrom cs.length cs

/-- The value of a literal with its quotes. -/
def value (literal : List Char) : List Char := decode (literal.drop 1).dropLast

end Bundler.JavaScript.Literal
