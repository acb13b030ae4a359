/-! Reading UTF-8. A sequence that is no character is reported with its place and its
length, which is that of the part that could still have become a character. -/
namespace Bundler.Text.Utf8

inductive Fault where
  /-- `length` bytes at `index` can start no character. -/
  | invalid (length index : Nat)
  /-- The text ends inside the character at `index`. -/
  | incomplete (index : Nat)
deriving DecidableEq, Inhabited

def Fault.message : Fault → String
  | invalid n i => "invalid utf-8 sequence of " ++ toString n ++ " bytes from index " ++ toString i
  | incomplete i => "incomplete utf-8 byte sequence from index " ++ toString i

/-- The number of bytes behind a first byte, and the range of the second one; `none` when
no character starts so. -/
def lead? (b : UInt8) : Option (Nat × UInt8 × UInt8) :=
  if 0xC2 ≤ b && b ≤ 0xDF then some (1, 0x80, 0xBF)
  else if b == 0xE0 then some (2, 0xA0, 0xBF)
  else if b == 0xED then some (2, 0x80, 0x9F)
  else if 0xE1 ≤ b && b ≤ 0xEF then some (2, 0x80, 0xBF)
  else if b == 0xF0 then some (3, 0x90, 0xBF)
  else if 0xF1 ≤ b && b ≤ 0xF3 then some (3, 0x80, 0xBF)
  else if b == 0xF4 then some (3, 0x80, 0x8F)
  else none

/-- The bits of a first byte with `n` bytes behind it. -/
def leadBits (n : Nat) (b : UInt8) : Nat :=
  match n with
  | 1 => b.toNat % 32
  | 2 => b.toNat % 16
  | _ => b.toNat % 8

mutual

/-- Decodes from byte `index` on. -/
def decodeFrom (index : Nat) : List UInt8 → Except Fault (List Char)
  | [] => .ok []
  | b :: bs =>
    if b < 0x80 then (decodeFrom (index + 1) bs).map (Char.ofNat b.toNat :: ·)
    else match lead? b with
      | some (n, lo, hi) => decodeRest index 1 n (leadBits n b) lo hi bs
      | none => .error (.invalid 1 index)

/-- Decodes the last `missing` bytes of the character at `index`, of which `length` bytes
with the value `code` were read; the next byte lies between `lo` and `hi`. -/
def decodeRest (index length missing code : Nat) (lo hi : UInt8) :
    List UInt8 → Except Fault (List Char)
  | [] => .error (.incomplete index)
  | b :: bs =>
    if b < lo || hi < b then .error (.invalid length index)
    else
      let code := code * 64 + b.toNat % 64
      if missing ≤ 1 then
        (decodeFrom (index + length + 1) bs).map (Char.ofNat code :: ·)
      else decodeRest index (length + 1) (missing - 1) code 0x80 0xBF bs

end

/-- The characters of a byte sequence. -/
def decode (b : ByteArray) : Except Fault (List Char) := decodeFrom 0 b.data.toList

/-- The bytes of a text. -/
def encode (cs : List Char) : ByteArray := (String.ofList cs).toUTF8

end Bundler.Text.Utf8
