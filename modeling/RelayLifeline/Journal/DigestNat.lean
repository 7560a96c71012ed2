import RelayLifeline.Journal.Digest

/-!
# SHA-256 over natural numbers

The kernel adds and shifts natural numbers at once, and words only by way of
their bits. Where a digest is to be evaluated it is first rewritten to this
one.
-/

namespace RelayLifeline.Journal

namespace Sha256

/-- The eight working words, as numbers below `2 ^ 32`. -/
structure Numbers where
  a : Nat
  b : Nat
  c : Nat
  d : Nat
  e : Nat
  f : Nat
  g : Nat
  h : Nat

def Words.numbers (w : Words) : Numbers :=
  ⟨w.a.toNat, w.b.toNat, w.c.toNat, w.d.toNat, w.e.toNat, w.f.toNat, w.g.toNat, w.h.toNat⟩

/-- `rotr` by `n`, where `m` is what `n` leaves of 32. -/
def rotrNat (x n m : Nat) : Nat :=
  Nat.lor (Nat.shiftRight x n) (Nat.mod (Nat.shiftLeft x m) 4294967296)

theorem toNat_rotr (x n : UInt32) (h : n.toNat < 32) (hpos : 0 < n.toNat) :
    (rotr x n).toNat = rotrNat x.toNat n.toNat (32 - n.toNat) := by
  have hle : n ≤ 32 := UInt32.le_iff_toNat_le.2 (Nat.le_of_lt h)
  have hrest : (32 - n).toNat = 32 - n.toNat := UInt32.toNat_sub_of_le _ _ hle
  simp only [rotr, UInt32.toNat_or, UInt32.toNat_shiftRight, UInt32.toNat_shiftLeft, hrest]
  rw [Nat.mod_eq_of_lt h, Nat.mod_eq_of_lt (by omega : 32 - n.toNat < 32)]
  rfl

/-! ## The message schedule -/

def nextNat (w0 w1 w9 w14 : Nat) : Nat :=
  Nat.mod
    (Nat.add
      (Nat.add
        (Nat.add w0
          (Nat.xor (Nat.xor (rotrNat w1 7 25) (rotrNat w1 18 14)) (Nat.shiftRight w1 3)))
        w9)
      (Nat.xor (Nat.xor (rotrNat w14 17 15) (rotrNat w14 19 13)) (Nat.shiftRight w14 10)))
    4294967296

def scheduleNat : Nat → List Nat → List Nat
  | 0, _ => []
  | n + 1, window =>
      window.getD 0 0 ::
        scheduleNat n (window.drop 1 ++
          [nextNat (window.getD 0 0) (window.getD 1 0) (window.getD 9 0) (window.getD 14 0)])

theorem getD_toNat (window : List UInt32) (i : Nat) :
    (window.map UInt32.toNat).getD i 0 = (window.getD i 0).toNat := by
  rw [List.getD_eq_getElem?_getD, List.getD_eq_getElem?_getD, List.getElem?_map]
  cases window[i]? with
  | none => rfl
  | some x => rfl

theorem add_toNat (x y : UInt32) : (x + y).toNat = (x.toNat + y.toNat) % 4294967296 :=
  UInt32.toNat_add x y

theorem schedule_toNat (n : Nat) (window : List UInt32) :
    (schedule n window).map UInt32.toNat = scheduleNat n (window.map UInt32.toNat) := by
  induction n generalizing window with
  | zero => rfl
  | succ n ih =>
      simp only [schedule, scheduleNat, List.map_cons, ih, List.map_append, List.map_drop,
        List.map_nil, getD_toNat]
      congr 4
      simp only [add_toNat, UInt32.toNat_xor, UInt32.toNat_shiftRight]
      rw [toNat_rotr _ 7 (by decide) (by decide), toNat_rotr _ 18 (by decide) (by decide),
        toNat_rotr _ 17 (by decide) (by decide), toNat_rotr _ 19 (by decide) (by decide)]
      simp only [Nat.mod_add_mod]
      rfl

/-! ## The rounds -/

def roundNat (v : Numbers) (kw : Nat × Nat) : Numbers :=
  let t1 :=
    Nat.add
      (Nat.add
        (Nat.add
          (Nat.add v.h
            (Nat.xor (Nat.xor (rotrNat v.e 6 26) (rotrNat v.e 11 21)) (rotrNat v.e 25 7)))
          (Nat.xor (Nat.land v.e v.f) (Nat.land (Nat.sub 4294967295 v.e) v.g)))
        kw.1)
      kw.2
  ⟨Nat.mod
      (Nat.add t1
        (Nat.add (Nat.xor (Nat.xor (rotrNat v.a 2 30) (rotrNat v.a 13 19)) (rotrNat v.a 22 10))
          (Nat.xor (Nat.xor (Nat.land v.a v.b) (Nat.land v.a v.c)) (Nat.land v.b v.c))))
      4294967296,
    v.a, v.b, v.c, Nat.mod (Nat.add v.d t1) 4294967296, v.e, v.f, v.g⟩

theorem not_toNat (x : UInt32) : (~~~x).toNat = 4294967295 - x.toNat := by
  rw [UInt32.toNat_not]
  rfl

theorem round_numbers (v : Words) (kw : UInt32 × UInt32) :
    (round v kw).numbers = roundNat v.numbers (kw.1.toNat, kw.2.toNat) := by
  simp only [round, roundNat, Words.numbers, add_toNat, UInt32.toNat_xor, UInt32.toNat_and,
    not_toNat]
  rw [toNat_rotr _ 6 (by decide) (by decide), toNat_rotr _ 11 (by decide) (by decide),
    toNat_rotr _ 25 (by decide) (by decide), toNat_rotr _ 2 (by decide) (by decide),
    toNat_rotr _ 13 (by decide) (by decide), toNat_rotr _ 22 (by decide) (by decide)]
  simp only [Nat.mod_add_mod, Nat.add_mod_mod]
  rfl

def constantsNat : List Nat := constants.map UInt32.toNat

theorem rounds_numbers (v : Words) (kws : List (UInt32 × UInt32)) :
    (kws.foldl round v).numbers =
      (kws.map fun kw => (kw.1.toNat, kw.2.toNat)).foldl roundNat v.numbers := by
  induction kws generalizing v with
  | nil => rfl
  | cons kw kws ih => rw [List.foldl_cons, ih, round_numbers, List.map_cons, List.foldl_cons]

/-! ## Blocks -/

def blockNat (h : Numbers) (bytes : List UInt8) : Numbers :=
  let words := ((pieces 4 16 bytes).map word).map UInt32.toNat
  let v := (constantsNat.zip (scheduleNat 64 words)).foldl roundNat h
  ⟨Nat.mod (Nat.add h.a v.a) 4294967296, Nat.mod (Nat.add h.b v.b) 4294967296,
    Nat.mod (Nat.add h.c v.c) 4294967296, Nat.mod (Nat.add h.d v.d) 4294967296,
    Nat.mod (Nat.add h.e v.e) 4294967296, Nat.mod (Nat.add h.f v.f) 4294967296,
    Nat.mod (Nat.add h.g v.g) 4294967296, Nat.mod (Nat.add h.h v.h) 4294967296⟩

theorem block_numbers (h : Words) (bytes : List UInt8) :
    (block h bytes).numbers = blockNat h.numbers bytes := by
  have hzip (left right : List UInt32) :
      (left.zip right).map (fun kw => (kw.1.toNat, kw.2.toNat)) =
        (left.map UInt32.toNat).zip (right.map UInt32.toNat) := by
    rw [List.zip_map]
    rfl
  have hrounds := rounds_numbers h (constants.zip (schedule 64 ((pieces 4 16 bytes).map word)))
  rw [hzip, ← constantsNat, schedule_toNat] at hrounds
  simp only [block, blockNat, ← hrounds]
  simp only [Words.numbers, add_toNat]
  rfl

theorem blocks_numbers (h : Words) (blocks : List (List UInt8)) :
    (blocks.foldl block h).numbers = blocks.foldl blockNat h.numbers := by
  induction blocks generalizing h with
  | nil => rfl
  | cons bytes blocks ih => rw [List.foldl_cons, ih, block_numbers, List.foldl_cons]

end Sha256

def sha256Nat (bytes : List UInt8) : List UInt8 :=
  let padded := Sha256.pad bytes
  let h := (Sha256.pieces 64 (padded.length / 64) padded).foldl Sha256.blockNat
    Sha256.initial.numbers
  [h.a, h.b, h.c, h.d, h.e, h.f, h.g, h.h].flatMap fun w => Sha256.bigEndian w 4

theorem sha256_eq_nat (bytes : List UInt8) : sha256 bytes = sha256Nat bytes := by
  simp only [sha256, sha256Nat, ← Sha256.blocks_numbers]
  rfl

/-- The bytes as the string holds them. -/
theorem utf8_eq_bytes (s : String) : utf8 s = s.toByteArray.data.toList := by
  rw [← String.utf8Encode_toList, List.utf8Encode, List.data_toByteArray]
  rfl

end RelayLifeline.Journal
