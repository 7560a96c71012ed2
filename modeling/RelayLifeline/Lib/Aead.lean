import Mathlib.Algebra.Group.Nat.Defs
import Mathlib.Data.List.Basic

/-!
# An authenticated cipher, and what reads a byte string piece by piece

`Aead` is an authenticated cipher with associated data as its users see it:
sealing adds `overhead` bytes, and what was sealed opens under the same key,
nonce and associated data. Nothing is said about which other keys open it: with
a tag of bounded length that cannot hold of all keys at once, and an argument
that rests on it says which texts and keys it means.

The rest is the reading side of a binary format: a four-byte length in
big-endian order, and `readFull`, which hands over exactly the bytes asked for
or says whether the input was empty or stopped short.
-/

namespace RelayLifeline.Lib

abbrev Bytes := List UInt8

structure Aead where
  nonceSize : Nat
  overhead : Nat
  sealText (key nonce plaintext aad : Bytes) : Bytes
  openText (key nonce sealed aad : Bytes) : Option Bytes
  length_sealText : ∀ key nonce plaintext aad,
    (sealText key nonce plaintext aad).length = plaintext.length + overhead
  openText_sealText : ∀ key nonce plaintext aad,
    openText key nonce (sealText key nonce plaintext aad) aad = some plaintext

attribute [simp] Aead.length_sealText Aead.openText_sealText

/-! ## Lengths in four bytes -/

/-- The four bytes of a length, the most significant first. -/
def putUint32 (n : Nat) : Bytes :=
  [UInt8.ofNat (n / 2 ^ 24), UInt8.ofNat (n / 2 ^ 16), UInt8.ofNat (n / 2 ^ 8), UInt8.ofNat n]

/-- The number a byte string writes, the most significant byte first. -/
def getUint (bytes : Bytes) : Nat := bytes.foldl (fun n b => n * 2 ^ 8 + b.toNat) 0

@[simp] theorem length_putUint32 (n : Nat) : (putUint32 n).length = 4 := rfl

theorem getUint_putUint32 {n : Nat} (h : n < 2 ^ 32) : getUint (putUint32 n) = n := by
  show (((0 * 2 ^ 8 + (UInt8.ofNat (n / 2 ^ 24)).toNat) * 2 ^ 8 +
    (UInt8.ofNat (n / 2 ^ 16)).toNat) * 2 ^ 8 + (UInt8.ofNat (n / 2 ^ 8)).toNat) * 2 ^ 8 +
    (UInt8.ofNat n).toNat = n
  rw [UInt8.toNat_ofNat', UInt8.toNat_ofNat', UInt8.toNat_ofNat', UInt8.toNat_ofNat']
  omega

theorem putUint32_getUint {bytes : Bytes} (h : bytes.length = 4) :
    putUint32 (getUint bytes) = bytes := by
  obtain ⟨a, b, c, d, rfl⟩ : ∃ a b c d, bytes = [a, b, c, d] := by
    match bytes, h with
    | [a, b, c, d], _ => exact ⟨a, b, c, d, rfl⟩
  have ha := a.toNat_lt
  have hb := b.toNat_lt
  have hc := c.toNat_lt
  have hd := d.toNat_lt
  have hn : getUint [a, b, c, d] =
      ((a.toNat * 2 ^ 8 + b.toNat) * 2 ^ 8 + c.toNat) * 2 ^ 8 + d.toNat := by
    show (((0 * 2 ^ 8 + a.toNat) * 2 ^ 8 + b.toNat) * 2 ^ 8 + c.toNat) * 2 ^ 8 + d.toNat = _
    omega
  rw [putUint32, hn]
  congr 1
  · apply UInt8.toNat_inj.mp
    rw [UInt8.toNat_ofNat']
    omega
  congr 1
  · apply UInt8.toNat_inj.mp
    rw [UInt8.toNat_ofNat']
    omega
  congr 1
  · apply UInt8.toNat_inj.mp
    rw [UInt8.toNat_ofNat']
    omega
  congr 1
  · apply UInt8.toNat_inj.mp
    rw [UInt8.toNat_ofNat']
    omega

/-! ## Reading exactly so many bytes -/

/-- What stops a read of a fixed number of bytes: the input had none left, or
some but too few. -/
inductive Short
  | eof
  | unexpectedEOF
  deriving DecidableEq, Repr

/-- The first `n` bytes and what follows them. -/
def readFull (n : Nat) (source : Bytes) : Except Short (Bytes × Bytes) :=
  if n ≤ source.length then .ok (source.take n, source.drop n)
  else if source = [] then .error .eof
  else .error .unexpectedEOF

theorem readFull_append {n : Nat} {bytes : Bytes} (h : bytes.length = n) (rest : Bytes) :
    readFull n (bytes ++ rest) = .ok (bytes, rest) := by
  subst h
  rw [readFull, if_pos (by rw [List.length_append]; omega), List.take_left, List.drop_left]

theorem readFull_ok {n : Nat} {source bytes rest : Bytes}
    (h : readFull n source = .ok (bytes, rest)) :
    source = bytes ++ rest ∧ bytes.length = n := by
  rw [readFull] at h
  split at h
  next hn =>
    cases h
    exact ⟨(List.take_append_drop n source).symm, by rw [List.length_take]; omega⟩
  · split at h <;> cases h

end RelayLifeline.Lib
