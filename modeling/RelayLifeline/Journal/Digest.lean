import Mathlib.Algebra.Group.Nat.Defs
import Mathlib.Data.List.Basic

/-!
# The digests of the journal

`crypto/sha256` and `crypto/hmac`, over lists of bytes, and their lower-case
hexadecimal text. Nothing in this development depends on what they compute
beyond the length of the text; they are here so that a chain can be evaluated.
-/

namespace RelayLifeline.Journal

namespace Sha256

/-- The eight working words. -/
structure Words where
  a : UInt32
  b : UInt32
  c : UInt32
  d : UInt32
  e : UInt32
  f : UInt32
  g : UInt32
  h : UInt32

def initial : Words where
  a := 0x6a09e667
  b := 0xbb67ae85
  c := 0x3c6ef372
  d := 0xa54ff53a
  e := 0x510e527f
  f := 0x9b05688c
  g := 0x1f83d9ab
  h := 0x5be0cd19

def constants : List UInt32 :=
  [0x428a2f98, 0x71374491, 0xb5c0fbcf, 0xe9b5dba5, 0x3956c25b, 0x59f111f1, 0x923f82a4, 0xab1c5ed5,
   0xd807aa98, 0x12835b01, 0x243185be, 0x550c7dc3, 0x72be5d74, 0x80deb1fe, 0x9bdc06a7, 0xc19bf174,
   0xe49b69c1, 0xefbe4786, 0x0fc19dc6, 0x240ca1cc, 0x2de92c6f, 0x4a7484aa, 0x5cb0a9dc, 0x76f988da,
   0x983e5152, 0xa831c66d, 0xb00327c8, 0xbf597fc7, 0xc6e00bf3, 0xd5a79147, 0x06ca6351, 0x14292967,
   0x27b70a85, 0x2e1b2138, 0x4d2c6dfc, 0x53380d13, 0x650a7354, 0x766a0abb, 0x81c2c92e, 0x92722c85,
   0xa2bfe8a1, 0xa81a664b, 0xc24b8b70, 0xc76c51a3, 0xd192e819, 0xd6990624, 0xf40e3585, 0x106aa070,
   0x19a4c116, 0x1e376c08, 0x2748774c, 0x34b0bcb5, 0x391c0cb3, 0x4ed8aa4a, 0x5b9cca4f, 0x682e6ff3,
   0x748f82ee, 0x78a5636f, 0x84c87814, 0x8cc70208, 0x90befffa, 0xa4506ceb, 0xbef9a3f7, 0xc67178f2]

def rotr (x n : UInt32) : UInt32 := (x >>> n) ||| (x <<< (32 - n))

/-- The first `n` words of the message schedule that starts with `window`. -/
def schedule : Nat → List UInt32 → List UInt32
  | 0, _ => []
  | n + 1, window =>
      let w1 := window.getD 1 0
      let w14 := window.getD 14 0
      let s0 := rotr w1 7 ^^^ rotr w1 18 ^^^ (w1 >>> 3)
      let s1 := rotr w14 17 ^^^ rotr w14 19 ^^^ (w14 >>> 10)
      let next := window.getD 0 0 + s0 + window.getD 9 0 + s1
      window.getD 0 0 :: schedule n (window.drop 1 ++ [next])

def round (v : Words) (kw : UInt32 × UInt32) : Words :=
  let s1 := rotr v.e 6 ^^^ rotr v.e 11 ^^^ rotr v.e 25
  let ch := (v.e &&& v.f) ^^^ (~~~v.e &&& v.g)
  let t1 := v.h + s1 + ch + kw.1 + kw.2
  let s0 := rotr v.a 2 ^^^ rotr v.a 13 ^^^ rotr v.a 22
  let maj := (v.a &&& v.b) ^^^ (v.a &&& v.c) ^^^ (v.b &&& v.c)
  ⟨t1 + (s0 + maj), v.a, v.b, v.c, v.d + t1, v.e, v.f, v.g⟩

def word (bytes : List UInt8) : UInt32 :=
  bytes.foldl (fun x b => (x <<< 8) ||| b.toUInt32) 0

/-- The first `n` pieces of `size` bytes. -/
def pieces (size : Nat) : Nat → List UInt8 → List (List UInt8)
  | 0, _ => []
  | n + 1, bytes => bytes.take size :: pieces size n (bytes.drop size)

def block (h : Words) (bytes : List UInt8) : Words :=
  let v := (constants.zip (schedule 64 ((pieces 4 16 bytes).map word))).foldl round h
  ⟨h.a + v.a, h.b + v.b, h.c + v.c, h.d + v.d, h.e + v.e, h.f + v.f, h.g + v.g, h.h + v.h⟩

def bigEndian (n : Nat) : Nat → List UInt8
  | 0 => []
  | k + 1 => UInt8.ofNat (n / 256 ^ k) :: bigEndian n k

def pad (bytes : List UInt8) : List UInt8 :=
  bytes ++ 0x80 :: List.replicate ((119 - bytes.length % 64) % 64) 0 ++ bigEndian (bytes.length * 8) 8

end Sha256

/-- `sha256.Sum256`. -/
def sha256 (bytes : List UInt8) : List UInt8 :=
  let padded := Sha256.pad bytes
  let h := (Sha256.pieces 64 (padded.length / 64) padded).foldl Sha256.block Sha256.initial
  [h.a, h.b, h.c, h.d, h.e, h.f, h.g, h.h].flatMap fun w => Sha256.bigEndian w.toNat 4

/-- `hmac.New(sha256.New, key)` over one message. -/
def hmac (key message : List UInt8) : List UInt8 :=
  let key := if 64 < key.length then sha256 key else key
  let block := key ++ List.replicate (64 - key.length) 0
  sha256 (block.map (· ^^^ 0x5c) ++ sha256 (block.map (· ^^^ 0x36) ++ message))

def hexDigit (n : Nat) : Char := (['0', '1', '2', '3', '4', '5', '6', '7', '8', '9', 'a', 'b',
  'c', 'd', 'e', 'f'] : List Char).getD n '0'

/-- `hex.EncodeToString`. -/
def hex (bytes : List UInt8) : String :=
  String.ofList (bytes.flatMap fun b => [hexDigit (b.toNat / 16), hexDigit (b.toNat % 16)])

/-- The bytes of a string. -/
def utf8 (s : String) : List UInt8 := s.toList.flatMap String.utf8EncodeChar

example : hex (sha256 (utf8 "abc")) =
    "ba7816bf8f01cfea414140de5dae2223b00361a396177a9cb410ff61f20015ad" := by
  decide +kernel

theorem length_bigEndian (n k : Nat) : (Sha256.bigEndian n k).length = k := by
  induction k with
  | zero => rfl
  | succ k ih => simp [Sha256.bigEndian, ih]

theorem length_sha256 (bytes : List UInt8) : (sha256 bytes).length = 32 := by
  simp [sha256, length_bigEndian]

/-- A digit of a hexadecimal text. -/
def isHex (c : Char) : Bool := c ∈ (['0', '1', '2', '3', '4', '5', '6', '7', '8', '9', 'a', 'b',
  'c', 'd', 'e', 'f'] : List Char)

theorem isHex_hexDigit (n : Nat) : isHex (hexDigit n) := by
  simp only [hexDigit, List.getD_eq_getElem?_getD, isHex, decide_eq_true_eq]
  cases h : (['0', '1', '2', '3', '4', '5', '6', '7', '8', '9', 'a', 'b', 'c', 'd', 'e',
    'f'] : List Char)[n]? with
  | none => simp
  | some c => simpa using List.mem_of_getElem? h

theorem toList_hex (bytes : List UInt8) :
    (hex bytes).toList.length = 2 * bytes.length ∧ ∀ c ∈ (hex bytes).toList, isHex c := by
  simp only [hex, String.toList_ofList]
  induction bytes with
  | nil => simp
  | cons b bytes ih =>
      refine ⟨by simp [ih.1]; omega, ?_⟩
      simp only [List.flatMap_cons, List.cons_append, List.nil_append, List.mem_cons]
      rintro c (rfl | rfl | hin)
      · exact isHex_hexDigit _
      · exact isHex_hexDigit _
      · exact ih.2 c hin

end RelayLifeline.Journal
