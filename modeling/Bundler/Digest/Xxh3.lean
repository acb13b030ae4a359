/-! The 64-bit XXH3 digest with the default secret and seed zero. Short inputs are
read whole by one of four formulas, each for a range of lengths; inputs of more
than 240 bytes are folded stripe by stripe into eight accumulators. -/
namespace Bundler.Digest.Xxh3

/-- The default secret. -/
def secret : ByteArray := ⟨#[
  0xb8, 0xfe, 0x6c, 0x39, 0x23, 0xa4, 0x4b, 0xbe, 0x7c, 0x01, 0x81, 0x2c, 0xf7, 0x21, 0xad, 0x1c,
  0xde, 0xd4, 0x6d, 0xe9, 0x83, 0x90, 0x97, 0xdb, 0x72, 0x40, 0xa4, 0xa4, 0xb7, 0xb3, 0x67, 0x1f,
  0xcb, 0x79, 0xe6, 0x4e, 0xcc, 0xc0, 0xe5, 0x78, 0x82, 0x5a, 0xd0, 0x7d, 0xcc, 0xff, 0x72, 0x21,
  0xb8, 0x08, 0x46, 0x74, 0xf7, 0x43, 0x24, 0x8e, 0xe0, 0x35, 0x90, 0xe6, 0x81, 0x3a, 0x26, 0x4c,
  0x3c, 0x28, 0x52, 0xbb, 0x91, 0xc3, 0x00, 0xcb, 0x88, 0xd0, 0x65, 0x8b, 0x1b, 0x53, 0x2e, 0xa3,
  0x71, 0x64, 0x48, 0x97, 0xa2, 0x0d, 0xf9, 0x4e, 0x38, 0x19, 0xef, 0x46, 0xa9, 0xde, 0xac, 0xd8,
  0xa8, 0xfa, 0x76, 0x3f, 0xe3, 0x9c, 0x34, 0x3f, 0xf9, 0xdc, 0xbb, 0xc7, 0xc7, 0x0b, 0x4f, 0x1d,
  0x8a, 0x51, 0xe0, 0x4b, 0xcd, 0xb4, 0x59, 0x31, 0xc8, 0x9f, 0x7e, 0xc9, 0xd9, 0x78, 0x73, 0x64,
  0xea, 0xc5, 0xac, 0x83, 0x34, 0xd3, 0xeb, 0xc3, 0xc5, 0x81, 0xa0, 0xff, 0xfa, 0x13, 0x63, 0xeb,
  0x17, 0x0d, 0xdd, 0x51, 0xb7, 0xf0, 0xda, 0x49, 0xd3, 0x16, 0x55, 0x26, 0x29, 0xd4, 0x68, 0x9e,
  0x2b, 0x16, 0xbe, 0x58, 0x7d, 0x47, 0xa1, 0xfc, 0x8f, 0xf8, 0xb8, 0xd1, 0x7a, 0xd0, 0x31, 0xce,
  0x45, 0xcb, 0x3a, 0x8f, 0x95, 0x16, 0x04, 0x28, 0xaf, 0xd7, 0xfb, 0xca, 0xbb, 0x4b, 0x40, 0x7e]⟩

def prime32a : UInt64 := 0x9E3779B1
def prime32b : UInt64 := 0x85EBCA77
def prime32c : UInt64 := 0xC2B2AE3D
def prime64a : UInt64 := 0x9E3779B185EBCA87
def prime64b : UInt64 := 0xC2B2AE3D27D4EB4F
def prime64c : UInt64 := 0x165667B19E3779F9
def prime64d : UInt64 := 0x85EBCA77C2B2AE63
def prime64e : UInt64 := 0x27D4EB2F165667C5

/-- The byte at `i`, zero past the end. -/
def byte (b : ByteArray) (i : Nat) : UInt64 := (b.data.getD i 0).toUInt64

/-- Four bytes from `i` on, least significant first. -/
def word32 (b : ByteArray) (i : Nat) : UInt64 :=
  byte b i ||| (byte b (i + 1) <<< 8) ||| (byte b (i + 2) <<< 16) ||| (byte b (i + 3) <<< 24)

/-- Eight bytes from `i` on, least significant first. -/
def word64 (b : ByteArray) (i : Nat) : UInt64 := word32 b i ||| (word32 b (i + 4) <<< 32)

def rotateLeft (x n : UInt64) : UInt64 := (x <<< n) ||| (x >>> (64 - n))

def swapBytes (x : UInt64) : UInt64 :=
  (List.range 8).foldl (fun acc i =>
    (acc <<< 8) ||| ((x >>> (8 * UInt64.ofNat i)) &&& 0xff)) 0

/-- The two halves of the 128-bit product, combined. -/
def foldProduct (a b : UInt64) : UInt64 :=
  let p := a.toNat * b.toNat
  UInt64.ofNat p ^^^ UInt64.ofNat (p / Nat.pow 2 64)

def shiftXor (x n : UInt64) : UInt64 := x ^^^ (x >>> n)

def avalanche (h : UInt64) : UInt64 :=
  shiftXor (shiftXor h 37 * 0x165667919E3779F9) 32

def avalanche64 (h : UInt64) : UInt64 :=
  shiftXor (shiftXor (shiftXor h 33 * prime64b) 29 * prime64c) 32

def upTo3 (b : ByteArray) : UInt64 :=
  let n := b.size
  let combined := (byte b 0 <<< 16) ||| (byte b (n / 2) <<< 24) ||| byte b (n - 1) |||
    (UInt64.ofNat n <<< 8)
  avalanche64 (combined ^^^ (word32 secret 0 ^^^ word32 secret 4))

def upTo8 (b : ByteArray) : UInt64 :=
  let n := b.size
  let x := (word32 b (n - 4) + (word32 b 0 <<< 32)) ^^^ (word64 secret 8 ^^^ word64 secret 16)
  let x := (x ^^^ rotateLeft x 49 ^^^ rotateLeft x 24) * 0x9FB21C651E98DF25
  let x := (x ^^^ ((x >>> 35) + UInt64.ofNat n)) * 0x9FB21C651E98DF25
  shiftXor x 28

def upTo16 (b : ByteArray) : UInt64 :=
  let n := b.size
  let low := word64 b 0 ^^^ (word64 secret 24 ^^^ word64 secret 32)
  let high := word64 b (n - 8) ^^^ (word64 secret 40 ^^^ word64 secret 48)
  avalanche (UInt64.ofNat n + swapBytes low + high + foldProduct low high)

/-- Sixteen bytes of the input mixed with sixteen of the secret. -/
def mix (b : ByteArray) (i s : Nat) : UInt64 :=
  foldProduct (word64 b i ^^^ word64 secret s) (word64 b (i + 8) ^^^ word64 secret (s + 8))

def upTo128 (b : ByteArray) : UInt64 :=
  let n := b.size
  avalanche ((List.range ((n - 1) / 32 + 1)).foldl (fun acc k =>
    acc + mix b (16 * k) (32 * k) + mix b (n - 16 * (k + 1)) (32 * k + 16))
    (UInt64.ofNat n * prime64a))

def upTo240 (b : ByteArray) : UInt64 :=
  let n := b.size
  let front := (List.range 8).foldl (fun acc k => acc + mix b (16 * k) (16 * k))
    (UInt64.ofNat n * prime64a)
  let rest := (List.range (n / 16 - 8)).foldl (fun acc k =>
    acc + mix b (16 * (k + 8)) (16 * k + 3)) (avalanche front)
  avalanche (rest + mix b (n - 16) 119)

/-- Lane `i` of the accumulators. -/
def lane (acc : Array UInt64) (i : Nat) : UInt64 := acc.getD i 0

/-- Folds the 64 bytes from `i` on into the accumulators. -/
def accumulate (b : ByteArray) (acc : Array UInt64) (i s : Nat) : Array UInt64 :=
  (Array.range 8).map fun k =>
    let own := word64 b (i + 8 * k) ^^^ word64 secret (s + 8 * k)
    let other := word64 b (i + 8 * (if k % 2 = 0 then k + 1 else k - 1))
    lane acc k + other + (own &&& (0xffffffff : UInt64)) * (own >>> 32)

def scramble (acc : Array UInt64) : Array UInt64 :=
  (Array.range 8).map fun k =>
    (shiftXor (lane acc k) 47 ^^^ word64 secret (128 + 8 * k)) * prime32a

/-- Folds the `count` stripes of the block at `i`. -/
def stripes (b : ByteArray) (acc : Array UInt64) (i count : Nat) : Array UInt64 :=
  (List.range count).foldl (fun acc k => accumulate b acc (i + 64 * k) (8 * k)) acc

def long (b : ByteArray) : UInt64 :=
  let n := b.size
  let blocks := (n - 1) / 1024
  let start : Array UInt64 :=
    #[prime32c, prime64a, prime64b, prime64c, prime64d, prime32b, prime64e, prime32a]
  let acc := (List.range blocks).foldl (fun acc k => scramble (stripes b acc (1024 * k) 16)) start
  let acc := stripes b acc (1024 * blocks) ((n - 1 - 1024 * blocks) / 64)
  let acc := accumulate b acc (n - 64) 121
  avalanche ((List.range 4).foldl (fun h k =>
    h + foldProduct (lane acc (2 * k) ^^^ word64 secret (11 + 16 * k))
      (lane acc (2 * k + 1) ^^^ word64 secret (19 + 16 * k)))
    (UInt64.ofNat n * prime64a))

/-- The digest of a byte sequence. -/
def digest (b : ByteArray) : UInt64 :=
  let n := b.size
  if n = 0 then avalanche64 (word64 secret 56 ^^^ word64 secret 64)
  else if n ≤ 3 then upTo3 b
  else if n ≤ 8 then upTo8 b
  else if n ≤ 16 then upTo16 b
  else if n ≤ 128 then upTo128 b
  else if n ≤ 240 then upTo240 b
  else long b

end Xxh3

/-- The lower case hexadecimal digits of a number, at least `width` of them. -/
def hex (width n : Nat) : String :=
  let ds := Nat.toDigits 16 n
  String.ofList (List.replicate (width - ds.length) '0' ++ ds)

/-- How the content of a file is identified: the name of the digest and its sixteen digits. -/
def contentHash (b : ByteArray) : String := "xxh3:" ++ hex 16 (Xxh3.digest b).toNat

end Bundler.Digest
