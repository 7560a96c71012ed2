import Mathlib.Algebra.Order.Floor.Semifield
import Mathlib.Data.Int.Log
import Mathlib.Data.Rat.Floor
import Mathlib.Tactic.FieldSimp
import Mathlib.Tactic.Linarith
import Mathlib.Tactic.NormNum
import Mathlib.Tactic.Positivity
import Mathlib.Tactic.Ring

/-!
# Binary floating point

The numbers of binary64 by their values: a sign and a magnitude that 53 bits
and an exponent can say, or an infinity, or no number. An operation rounds its
exact result to the nearest of them, and to the even one where two are equally
near.

A magnitude carries the proof that it is one. Rounding keeps the magnitudes,
which is what exact arithmetic in floating point rests on.
-/

namespace RelayLifeline.Lib

namespace Binary64

/-- An integer of 53 bits, scaled by a power of two. -/
def Representable (q : ℚ) : Prop :=
  ∃ (m : ℕ) (e : ℤ), m < 2 ^ 53 ∧ -1074 ≤ e ∧ q = m * 2 ^ e

/-- What a finite number may be in size. -/
structure Magnitude where
  val : ℚ
  representable : Representable val
  small : val < 2 ^ 1024
  deriving DecidableEq

end Binary64

inductive Binary64 where
  | nan
  | infinite (negative : Bool)
  | finite (negative : Bool) (magnitude : Binary64.Magnitude)
  deriving DecidableEq

namespace Binary64

/-! ## Rounding -/

/-- The nearest integer, and the even one of two. -/
def roundEven (x : ℚ) : ℕ :=
  let low := ⌊x⌋₊
  if x - low < 1 / 2 ∨ x - low = 1 / 2 ∧ low % 2 = 0 then low else low + 1

/-- The exponent that leaves 53 bits of the number. -/
def exponent (x : ℚ) : ℤ := max (Int.log 2 x - 52) (-1074)

/-- The nearest magnitude, were there no largest one. -/
def nearest (x : ℚ) : ℚ := roundEven (x / 2 ^ exponent x) * 2 ^ exponent x

theorem roundEven_natCast (n : ℕ) : roundEven n = n := by
  unfold roundEven
  simp

theorem roundEven_le {x : ℚ} {n : ℕ} (h : x ≤ n) : roundEven x ≤ n := by
  have hfloor : ⌊x⌋₊ ≤ n := Nat.floor_le_of_le h
  unfold roundEven
  dsimp only
  split
  · exact hfloor
  · next hup =>
      rcases Nat.lt_or_eq_of_le hfloor with hlt | heq
      · exact hlt
      · -- the number is no higher than its floor, so it is not rounded up
        refine absurd (.inl ?_) hup
        rw [heq]
        linarith

theorem lt_scaled (x : ℚ) : x < 2 ^ 53 * 2 ^ exponent x := by
  have hlog : x < (2 : ℚ) ^ (Int.log 2 x + 1) := by
    have := Int.lt_zpow_succ_log_self (b := 2) (by decide) x
    exact_mod_cast this
  have hexp : Int.log 2 x + 1 ≤ 53 + exponent x := by
    unfold exponent
    omega
  calc x < (2 : ℚ) ^ (Int.log 2 x + 1) := hlog
    _ ≤ (2 : ℚ) ^ (53 + exponent x) := zpow_le_zpow_right₀ (by norm_num) hexp
    _ = 2 ^ 53 * 2 ^ exponent x := by rw [zpow_add₀ (by norm_num)]; norm_num

theorem zpow_exponent_pos (x : ℚ) : (0 : ℚ) < 2 ^ exponent x :=
  zpow_pos (by norm_num) _

theorem roundEven_scaled_le (x : ℚ) : roundEven (x / 2 ^ exponent x) ≤ 2 ^ 53 := by
  refine roundEven_le ?_
  rw [div_le_iff₀ (zpow_exponent_pos x)]
  exact_mod_cast (lt_scaled x).le

theorem le_exponent (x : ℚ) : -1074 ≤ exponent x := le_max_right _ _

theorem representable_nearest (x : ℚ) : Representable (nearest x) := by
  rcases Nat.lt_or_eq_of_le (roundEven_scaled_le x) with hlt | heq
  · exact ⟨_, _, hlt, le_exponent x, rfl⟩
  · -- one more bit, and one less in front of the power
    refine ⟨2 ^ 52, exponent x + 1, by norm_num, ?_, ?_⟩
    · have := le_exponent x
      omega
    · rw [nearest, heq, zpow_add₀ (by norm_num)]
      push_cast
      ring

/-- A magnitude is its own rounding. -/
theorem nearest_of_representable {q : ℚ} (h : Representable q) : nearest q = q := by
  obtain ⟨m, e, hm, he, hq⟩ := h
  rcases Nat.eq_zero_or_pos m with hzero | hpos
  · have hq : q = 0 := by rw [hq, hzero]; simp
    have hnone : roundEven 0 = 0 := by simpa using roundEven_natCast 0
    rw [hq, nearest, zero_div, hnone]
    simp
  · have hqpos : 0 < q := by
      rw [hq]
      exact mul_pos (by exact_mod_cast hpos) (zpow_pos (by norm_num) e)
    -- the exponent is no higher than that of the magnitude
    have hlog : Int.log 2 q < 53 + e := by
      rw [← Int.lt_zpow_iff_log_lt (by decide) hqpos, hq, zpow_add₀ (by norm_num)]
      have hlt : (m : ℚ) < 2 ^ 53 := by exact_mod_cast hm
      push_cast
      exact mul_lt_mul_of_pos_right hlt (zpow_pos (by norm_num) e)
    have hexp : exponent q ≤ e := by
      unfold exponent
      omega
    have hscaled : q / 2 ^ exponent q = ((m * 2 ^ (e - exponent q).toNat : ℕ) : ℚ) := by
      rw [div_eq_iff (zpow_exponent_pos q).ne']
      push_cast
      rw [← zpow_natCast (2 : ℚ) (e - exponent q).toNat, Int.toNat_of_nonneg (by omega), mul_assoc,
        ← zpow_add₀ (by norm_num), hq]
      congr 2
      omega
    rw [nearest, hscaled, roundEven_natCast, ← hscaled, div_mul_cancel₀ _ (zpow_exponent_pos q).ne']

/-- Nothing below a power of two is rounded beyond it. -/
theorem nearest_le_two_pow {x : ℚ} {k : ℕ} (h : x ≤ 2 ^ k) : nearest x ≤ 2 ^ k := by
  have hexp : exponent x ≤ k := by
    rcases le_or_gt x 0 with hneg | hpos
    · rw [exponent, Int.log_of_right_le_zero 2 hneg]
      omega
    · have hlog : Int.log 2 x < k + 1 := by
        rw [← Int.lt_zpow_iff_log_lt (by decide) hpos, zpow_add₀ (by norm_num)]
        have hlt : x < 2 ^ k * 2 := lt_of_le_of_lt h (by linarith [pow_pos (two_pos (α := ℚ)) k])
        exact_mod_cast hlt
      unfold exponent
      omega
  have hwhole : (2 : ℚ) ^ k = ((2 ^ (k - exponent x).toNat : ℕ) : ℚ) * 2 ^ exponent x := by
    push_cast
    rw [← zpow_natCast (2 : ℚ) (k - exponent x).toNat, Int.toNat_of_nonneg (by omega),
      ← zpow_add₀ (by norm_num), Int.sub_add_cancel, zpow_natCast]
  rw [nearest, hwhole]
  refine mul_le_mul_of_nonneg_right ?_ (zpow_exponent_pos x).le
  have hle : x / 2 ^ exponent x ≤ ((2 ^ (k - exponent x).toNat : ℕ) : ℚ) := by
    rw [div_le_iff₀ (zpow_exponent_pos x), ← hwhole]
    exact h
  exact_mod_cast roundEven_le hle

/-! ## Integers -/

/-- The integers of 53 bits, and those that are even enough. -/
theorem representable_natCast_iff {n : ℕ} :
    Representable n ↔ ∃ m k : ℕ, m < 2 ^ 53 ∧ n = m * 2 ^ k := by
  constructor
  · rintro ⟨m, e, hm, he, hn⟩
    rcases le_or_gt 0 e with hnonneg | hneg
    · obtain ⟨k, rfl⟩ := Int.eq_ofNat_of_zero_le hnonneg
      refine ⟨m, k, hm, ?_⟩
      have hn : (n : ℚ) = m * 2 ^ k := by rw [hn, ← zpow_natCast]
      exact_mod_cast hn
    · refine ⟨n, 0, ?_, by simp⟩
      have hle : (n : ℚ) ≤ m := by
        rw [hn]
        refine mul_le_of_le_one_right (Nat.cast_nonneg m) ?_
        exact zpow_le_one_of_nonpos₀ (by norm_num) hneg.le
      have hle : n ≤ m := by exact_mod_cast hle
      omega
  · rintro ⟨m, k, hm, hn⟩
    refine ⟨m, k, hm, by omega, ?_⟩
    rw [hn, zpow_natCast]
    push_cast
    rfl

theorem representable_of_lt {n : ℕ} (h : n < 2 ^ 53) : Representable n :=
  representable_natCast_iff.2 ⟨n, 0, h, by simp⟩

/-- Rounding an integer leaves an integer. -/
theorem exists_nearest_natCast (n : ℕ) : ∃ r : ℕ, nearest n = r := by
  rcases Nat.lt_or_ge n (2 ^ 53) with hlt | hge
  · exact ⟨n, nearest_of_representable (representable_of_lt hlt)⟩
  · have hlog : 53 ≤ Int.log 2 (n : ℚ) := by
      rw [← Int.zpow_le_iff_le_log (by decide) (by exact_mod_cast (by omega : 0 < n))]
      exact_mod_cast hge
    have hexp : 0 ≤ exponent (n : ℚ) := by
      unfold exponent
      omega
    refine ⟨roundEven (n / 2 ^ exponent (n : ℚ)) * 2 ^ (exponent (n : ℚ)).toNat, ?_⟩
    rw [nearest]
    push_cast
    rw [← zpow_natCast (2 : ℚ) (exponent (n : ℚ)).toNat, Int.toNat_of_nonneg hexp]

/-- Integers of 63 bits are rounded to multiples of 1024, so the last 512 of them
are rounded up to the next power of two. -/
theorem nearest_eq_two_pow_iff {n : ℕ} (h : n < 2 ^ 63) :
    nearest n = 2 ^ 63 ↔ 2 ^ 63 - 512 ≤ n := by
  rcases Nat.lt_or_ge n (2 ^ 62) with hlt | hge
  · have hle : (n : ℚ) ≤ 2 ^ 62 := by exact_mod_cast hlt.le
    have hnearest := nearest_le_two_pow hle
    constructor
    · intro heq
      rw [heq] at hnearest
      norm_num at hnearest
    · intro hlast
      omega
  · have hlog : Nat.log 2 n = 62 := Nat.log_eq_of_pow_le_of_lt_pow hge h
    have hexp : exponent (n : ℚ) = (10 : ℕ) := by
      rw [exponent, Int.log_natCast, hlog]
      rfl
    have hsplit : (n : ℚ) / 2 ^ 10 - ((n / 2 ^ 10 : ℕ) : ℚ) = ((n % 2 ^ 10 : ℕ) : ℚ) / 2 ^ 10 := by
      have hdiv : (n : ℚ) = 2 ^ 10 * ((n / 2 ^ 10 : ℕ) : ℚ) + ((n % 2 ^ 10 : ℕ) : ℚ) := by
        exact_mod_cast (Nat.div_add_mod n (2 ^ 10)).symm
      field_simp
      linarith
    have hfloor : ⌊(n : ℚ) / 2 ^ 10⌋₊ = n / 2 ^ 10 := by
      have hcast : (n : ℚ) / 2 ^ 10 = (n : ℚ) / ((2 ^ 10 : ℕ) : ℚ) := by norm_num
      rw [hcast, Nat.floor_div_eq_div]
    have hround : roundEven ((n : ℚ) / 2 ^ 10) =
        if n % 2 ^ 10 < 512 ∨ n % 2 ^ 10 = 512 ∧ n / 2 ^ 10 % 2 = 0 then n / 2 ^ 10
        else n / 2 ^ 10 + 1 := by
      have hless : ((n % 2 ^ 10 : ℕ) : ℚ) / 2 ^ 10 < 1 / 2 ↔ n % 2 ^ 10 < 512 := by
        rw [div_lt_iff₀ (by norm_num), show (1 : ℚ) / 2 * 2 ^ 10 = ((512 : ℕ) : ℚ) by norm_num,
          Nat.cast_lt]
      have hsame : ((n % 2 ^ 10 : ℕ) : ℚ) / 2 ^ 10 = 1 / 2 ↔ n % 2 ^ 10 = 512 := by
        rw [div_eq_iff (by norm_num), show (1 : ℚ) / 2 * 2 ^ 10 = ((512 : ℕ) : ℚ) by norm_num,
          Nat.cast_inj]
      unfold roundEven
      dsimp only
      rw [hfloor, hsplit]
      simp only [hless, hsame]
    have hnearest : nearest n = ((roundEven ((n : ℚ) / 2 ^ 10) * 2 ^ 10 : ℕ) : ℚ) := by
      rw [nearest, hexp, zpow_natCast]
      push_cast
      rfl
    rw [hnearest, show (2 : ℚ) ^ 63 = ((2 ^ 63 : ℕ) : ℚ) by norm_num, Nat.cast_inj, hround]
    split <;> omega

/-! ## Operations -/

/-- The float64 for a number of this sign and size. -/
def round (negative : Bool) (x : ℚ) : Binary64 :=
  if h : nearest x < 2 ^ 1024 then .finite negative ⟨nearest x, representable_nearest x, h⟩
  else .infinite negative

def ofNat (n : ℕ) : Binary64 := round false n

def mul : Binary64 → Binary64 → Binary64
  | .nan, _ => .nan
  | _, .nan => .nan
  | .infinite a, .infinite b => .infinite (a ^^ b)
  | .infinite a, .finite b q => if q.val = 0 then .nan else .infinite (a ^^ b)
  | .finite a p, .infinite b => if p.val = 0 then .nan else .infinite (a ^^ b)
  | .finite a p, .finite b q => round (a ^^ b) (p.val * q.val)

/-- It is less than zero. -/
def isNegative : Binary64 → Bool
  | .nan => false
  | .infinite negative => negative
  | .finite negative q => negative && q.val ≠ 0

/-- The integer that is left without the fraction. -/
def truncate (negative : Bool) (q : Magnitude) : ℤ := if negative then -⌊q.val⌋₊ else ⌊q.val⌋₊

/-- The conversion to a signed integer of 64 bits. What becomes of a number that
none of them is differs from machine to machine. -/
def toInt64 (elsewhere : Binary64 → ℤ) (x : Binary64) : ℤ :=
  match x with
  | .finite negative q =>
      if -2 ^ 63 ≤ truncate negative q ∧ truncate negative q < 2 ^ 63 then truncate negative q
      else elsewhere x
  | _ => elsewhere x

theorem round_eq {x : ℚ} (negative : Bool) (h : nearest x < 2 ^ 1024) :
    round negative x = .finite negative ⟨nearest x, representable_nearest x, h⟩ :=
  dif_pos h

theorem Magnitude.nonneg (q : Magnitude) : 0 ≤ q.val := by
  obtain ⟨m, e, -, -, hq⟩ := q.representable
  rw [hq]
  exact mul_nonneg (Nat.cast_nonneg m) (zpow_pos (by norm_num) e).le

/-- Below the end of int64. -/
def Fits : Binary64 → Prop
  | .finite _ q => q.val < 2 ^ 63
  | _ => False

/-- The integer is negative only where the machine makes it so. -/
theorem toInt64_nonneg_iff {elsewhere : Binary64 → ℤ} {x : Binary64} (h : x.isNegative = false) :
    0 ≤ toInt64 elsewhere x ↔ x.Fits ∨ 0 ≤ elsewhere x := by
  cases x with
  | nan => simp [toInt64, Fits]
  | infinite negative => simp [toInt64, Fits]
  | finite negative q =>
      have hfloor : (⌊q.val⌋₊ : ℤ) < 2 ^ 63 ↔ q.val < 2 ^ 63 := by
        have hlt : ⌊q.val⌋₊ < 2 ^ 63 ↔ q.val < ((2 ^ 63 : ℕ) : ℚ) := Nat.floor_lt q.nonneg
        rw [show (2 : ℚ) ^ 63 = ((2 ^ 63 : ℕ) : ℚ) by norm_num, ← hlt]
        omega
      have htruncate : truncate negative q = ⌊q.val⌋₊ := by
        cases negative with
        | false => rfl
        | true =>
            have hzero : q.val = 0 := by simpa [isNegative] using h
            simp [truncate, hzero]
      simp only [toInt64, htruncate, Fits]
      by_cases hfits : q.val < 2 ^ 63
      · rw [if_pos ⟨by omega, hfloor.2 hfits⟩]
        exact iff_of_true (by omega) (.inl hfits)
      · rw [if_neg fun hin => hfits (hfloor.1 hin.2)]
        exact (or_iff_right hfits).symm

theorem round_nonneg (x : ℚ) : (round false x).isNegative = false := by
  unfold round
  split <;> rfl

/-- A product is negative only where a factor is. -/
theorem mul_nonneg {x : Binary64} {q : Magnitude} (h : x.isNegative = false) :
    (mul x (.finite false q)).isNegative = false := by
  cases x with
  | nan => rfl
  | infinite negative =>
      have hpositive : negative = false := h
      show (if q.val = 0 then nan else infinite (negative ^^ false)).isNegative = false
      split
      · rfl
      · rw [hpositive]
        rfl
  | finite negative p =>
      cases negative with
      | false => exact round_nonneg _
      | true =>
          -- a negative zero
          have hzero : p.val = 0 := by simpa [isNegative] using h
          have hnearest : nearest 0 = 0 :=
            nearest_of_representable ⟨0, 0, by norm_num, by norm_num, by simp⟩
          show (round true (p.val * q.val)).isNegative = false
          have hsmall : nearest 0 < 2 ^ 1024 := by
            rw [hnearest]
            exact pow_pos (by norm_num) _
          rw [hzero, zero_mul, round_eq true hsmall]
          simp [isNegative, hnearest]

/-- A product that is a magnitude is exact. -/
theorem mul_of_representable {a b : Bool} {p q : Magnitude} (h : Representable (p.val * q.val))
    (hsmall : p.val * q.val < 2 ^ 1024) :
    mul (.finite a p) (.finite b q) = .finite (a ^^ b) ⟨p.val * q.val, h, hsmall⟩ := by
  have hnearest := nearest_of_representable h
  have hlt : nearest (p.val * q.val) < 2 ^ 1024 := hnearest.symm ▸ hsmall
  show round (a ^^ b) (p.val * q.val) = _
  rw [round_eq _ hlt]
  congr 2

end Binary64

end RelayLifeline.Lib
