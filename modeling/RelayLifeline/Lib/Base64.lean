import Mathlib.Data.List.Basic

/-!
# Base64

`RawURLEncoding` of Go's `encoding/base64`: the alphabet that may stand in a URL,
and no padding. Decoding passes over the ends of lines and does not look at the
bits that are left of the last character.
-/

namespace RelayLifeline.Lib.Base64

/-- `encodeURL`. -/
def alphabet : List Char :=
  "ABCDEFGHIJKLMNOPQRSTUVWXYZabcdefghijklmnopqrstuvwxyz0123456789-_".toList

def charOf (n : Nat) : Char := alphabet.getD n 'A'

/-- The place of a character in the alphabet. -/
def valueOf (c : Char) : Option Nat :=
  if alphabet.contains c then some (alphabet.idxOf c) else none

/-- Three bytes are four characters, and the one or two that are left at the end
are two or three. -/
def encode : List UInt8 → List Char
  | a :: b :: c :: rest =>
      let n := (a.toNat * 256 + b.toNat) * 256 + c.toNat
      charOf (n / 262144) :: charOf (n / 4096 % 64) :: charOf (n / 64 % 64) :: charOf (n % 64) ::
        encode rest
  | [a, b] =>
      let n := (a.toNat * 256 + b.toNat) * 4
      [charOf (n / 4096), charOf (n / 64 % 64), charOf (n % 64)]
  | [a] =>
      let n := a.toNat * 16
      [charOf (n / 64), charOf (n % 64)]
  | [] => []

/-- The bytes of the characters, which stand for these numbers. -/
def decodeValues : List Nat → Option (List UInt8)
  | w :: x :: y :: z :: rest =>
      let n := ((w * 64 + x) * 64 + y) * 64 + z
      (decodeValues rest).map
        ([UInt8.ofNat (n / 65536), UInt8.ofNat (n / 256), UInt8.ofNat n] ++ ·)
  | [w, x, y] =>
      let n := (w * 64 + x) * 64 + y
      some [UInt8.ofNat (n / 1024), UInt8.ofNat (n / 4)]
  | [w, x] => some [UInt8.ofNat ((w * 64 + x) / 16)]
  | [_] => none
  | [] => some []

/-- `DecodeString`. -/
def decode (s : List Char) : Option (List UInt8) :=
  ((s.filter fun c => c ≠ '\n' && c ≠ '\r').mapM valueOf).bind decodeValues

example : encode [0x66, 0x6f, 0x6f, 0x62] = "Zm9vYg".toList := by decide

/-! ## Decoding what is encoded -/

theorem valueOf_charOf {n : Nat} (h : n < 64) :
    valueOf (charOf n) = some n ∧ (charOf n ≠ '\n' ∧ charOf n ≠ '\r') := by
  have hall : ∀ n < 64,
      valueOf (charOf n) = some n ∧ (charOf n ≠ '\n' ∧ charOf n ≠ '\r') := by decide +kernel
  exact hall n h

/-- The numbers the characters of a text stand for. -/
def values : List UInt8 → List Nat
  | a :: b :: c :: rest =>
      let n := (a.toNat * 256 + b.toNat) * 256 + c.toNat
      n / 262144 :: n / 4096 % 64 :: n / 64 % 64 :: n % 64 :: values rest
  | [a, b] =>
      let n := (a.toNat * 256 + b.toNat) * 4
      [n / 4096, n / 64 % 64, n % 64]
  | [a] =>
      let n := a.toNat * 16
      [n / 64, n % 64]
  | [] => []

theorem encode_eq (s : List UInt8) : encode s = (values s).map charOf := by
  induction s using encode.induct with
  | case1 a b c rest ih =>
      rw [encode, values, List.map_cons, List.map_cons, List.map_cons, List.map_cons, ih]
  | case2 a b => rfl
  | case3 a => rfl
  | case4 => rfl

theorem values_lt (s : List UInt8) : ∀ n ∈ values s, n < 64 := by
  induction s using encode.induct with
  | case1 a b c rest ih =>
      have ha := a.toNat_lt
      have hb := b.toNat_lt
      have hc := c.toNat_lt
      rw [values]
      simp only [List.forall_mem_cons]
      refine ⟨?_, ?_, ?_, ?_, ih⟩ <;> omega
  | case2 a b =>
      have ha := a.toNat_lt
      have hb := b.toNat_lt
      rw [values]
      simp only [List.forall_mem_cons, List.not_mem_nil, false_implies, implies_true, and_true]
      refine ⟨?_, ?_, ?_⟩ <;> omega
  | case3 a =>
      have ha := a.toNat_lt
      rw [values]
      simp only [List.forall_mem_cons, List.not_mem_nil, false_implies, implies_true, and_true]
      refine ⟨?_, ?_⟩ <;> omega
  | case4 => exact fun n hn => absurd hn List.not_mem_nil

theorem ofNat_eq {a : UInt8} {n : Nat} (h : n % 256 = a.toNat) : UInt8.ofNat n = a := by
  rw [← UInt8.toNat_inj, UInt8.toNat_ofNat', h]

theorem decodeValues_values (s : List UInt8) : decodeValues (values s) = some s := by
  induction s using encode.induct with
  | case1 a b c rest ih =>
      have ha := a.toNat_lt
      have hb := b.toNat_lt
      have hc := c.toNat_lt
      rw [values, decodeValues, ih, Option.map_some]
      refine congrArg some (congrArg₂ _ (ofNat_eq ?_) (congrArg₂ _ (ofNat_eq ?_)
        (congrArg₂ _ (ofNat_eq ?_) rfl))) <;> omega
  | case2 a b =>
      have ha := a.toNat_lt
      have hb := b.toNat_lt
      rw [values, decodeValues]
      refine congrArg some (congrArg₂ _ (ofNat_eq ?_) (congrArg₂ _ (ofNat_eq ?_) rfl)) <;> omega
  | case3 a =>
      have ha := a.toNat_lt
      rw [values, decodeValues]
      refine congrArg some (congrArg₂ _ (ofNat_eq ?_) rfl)
      omega
  | case4 => rfl

theorem mapM_valueOf {l : List Nat} (h : ∀ n ∈ l, n < 64) :
    ((l.map charOf).filter fun c => c ≠ '\n' && c ≠ '\r').mapM valueOf = some l := by
  have hkept : ((l.map charOf).filter fun c => c ≠ '\n' && c ≠ '\r') = l.map charOf := by
    refine List.filter_eq_self.2 fun c hc => ?_
    obtain ⟨n, hn, rfl⟩ := List.mem_map.1 hc
    have hends := (valueOf_charOf (h n hn)).2
    simp only [Bool.and_eq_true, decide_eq_true_eq]
    exact hends
  rw [hkept]
  clear hkept
  induction l with
  | nil => rfl
  | cons n l ih =>
      have hn := (valueOf_charOf (h n List.mem_cons_self)).1
      rw [List.map_cons, List.mapM_cons, hn, ih fun m hm => h m (List.mem_cons_of_mem _ hm)]
      rfl

/-- What is encoded decodes to itself. -/
theorem decode_encode (s : List UInt8) : decode (encode s) = some s := by
  rw [decode, encode_eq, mapM_valueOf (values_lt s), Option.bind_some, decodeValues_values]

theorem encode_ne_nil {s : List UInt8} (h : s ≠ []) : encode s ≠ [] := by
  intro hnil
  have hdecode := decode_encode s
  rw [hnil] at hdecode
  exact h (Option.some.inj hdecode).symm

end RelayLifeline.Lib.Base64
