import RelayLifeline.Lib.Word
import Mathlib.Algebra.Order.Group.Unbundled.Int
import Mathlib.Tactic.Linarith

/-!
# Governance arithmetic

The manager adds what it accumulates with `safeAdd64` and multiplies prices
with `safeMul64`, both of which stop at the ends of the signed range, and it
compares limits with plain `+`, which does not. Each helper is read here as
the operation on integers it performs, so that the proofs about budgets talk
about integers and owe a range only where the code itself wraps.
-/

namespace RelayLifeline.Governance

open Lib.Word

def max64 (value minimum : Int64) : Int64 := if value > minimum then value else minimum

def min64 (left right : Int64) : Int64 := if left < right then left else right

/-- Go's `int64(^uint64(0) >> 1)`. -/
def maxInt64Value : Int64 := 9223372036854775807

def safeAdd64 (left right : Int64) : Int64 :=
  if right > 0 ∧ left > maxInt64Value - right then maxInt64Value
  else if right < 0 ∧ left < -maxInt64Value - 1 - right then -maxInt64Value - 1
  else left + right

def safeMul64 (left right : Int64) : Int64 :=
  if left = 0 ∨ right = 0 then 0
  else if (left = -1 ∧ right = -maxInt64Value - 1) ∨ (right = -1 ∧ left = -maxInt64Value - 1) then
    maxInt64Value
  else
    let negative := decide (left < 0) != decide (right < 0)
    let a := if left < 0 then -left else left
    let b := if right < 0 then -right else right
    if a > maxInt64Value / b then
      if negative then -maxInt64Value - 1 else maxInt64Value
    else
      let result := a * b
      if negative then -result else result

/-! ## Read as integers -/

@[simp] theorem toInt_maxInt64Value : maxInt64Value.toInt = top := by decide

@[simp] theorem toInt_max64 (a b : Int64) : (max64 a b).toInt = max a.toInt b.toInt := by
  unfold max64
  split
  · next h =>
      have := Int64.lt_iff_toInt_lt.1 h
      omega
  · next h =>
      have := mt Int64.lt_iff_toInt_lt.2 h
      omega

@[simp] theorem toInt_min64 (a b : Int64) : (min64 a b).toInt = min a.toInt b.toInt := by
  unfold min64
  split
  · next h =>
      have := Int64.lt_iff_toInt_lt.1 h
      omega
  · next h =>
      have := mt Int64.lt_iff_toInt_lt.2 h
      omega

/-- Adding something non-negative stops at the top. -/
theorem toInt_safeAdd64 {a b : Int64} (hb : 0 ≤ b.toInt) :
    (safeAdd64 a b).toInt = min top (a.toInt + b.toInt) := by
  have ha := neg_top_le_toInt a
  have hat := toInt_le_top a
  have hbt := toInt_le_top b
  have hroom : (maxInt64Value - b).toInt = top - b.toInt := by
    rw [toInt_sub_of_fits] <;> simp only [toInt_maxInt64Value, top] at * <;> omega
  unfold safeAdd64
  split
  · next h =>
      have := Int64.lt_iff_toInt_lt.1 h.2
      rw [hroom] at this
      simp only [toInt_maxInt64Value]
      omega
  · next h =>
      rw [if_neg (by
        rintro ⟨hneg, -⟩
        have := Int64.lt_iff_toInt_lt.1 hneg
        simp at this
        omega)]
      have hfit : a.toInt + b.toInt ≤ top := by
        by_contra hgt
        refine h ⟨Int64.lt_iff_toInt_lt.2 ?_, Int64.lt_iff_toInt_lt.2 ?_⟩
        · simp only [Int64.toInt_zero]
          omega
        · rw [hroom]
          omega
      rw [toInt_add_of_fits] <;> simp only [top] at * <;> omega

/-- Taking an amount off, down to zero at the lowest. -/
theorem toInt_max64_sub {a b : Int64} (ha : 0 ≤ a.toInt) (hb : 0 ≤ b.toInt) :
    (max64 (a - b) 0).toInt = max (a.toInt - b.toInt) 0 := by
  have hbt := toInt_le_top b
  have hat := toInt_le_top a
  have hsub : (a - b).toInt = a.toInt - b.toInt := by
    apply toInt_sub_of_fits <;> simp only [top] at * <;> omega
  rw [toInt_max64, hsub, Int64.toInt_zero]

theorem safeAdd64_nonneg {a b : Int64} (ha : 0 ≤ a.toInt) (hb : 0 ≤ b.toInt) :
    0 ≤ (safeAdd64 a b).toInt := by
  rw [toInt_safeAdd64 hb]
  simp only [top]
  omega

/-- Multiplying non-negative words stops at the top. -/
theorem toInt_safeMul64 {a b : Int64} (ha : 0 ≤ a.toInt) (hb : 0 ≤ b.toInt) :
    (safeMul64 a b).toInt = min top (a.toInt * b.toInt) := by
  unfold safeMul64
  split
  · next h =>
      rcases h with rfl | rfl <;> simp
  · next hne =>
      have hapos : 0 < a.toInt := by
        have : a.toInt ≠ 0 := fun h0 => hne (.inl (Int64.toInt_inj.1 (by simpa using h0)))
        omega
      have hbpos : 0 < b.toInt := by
        have : b.toInt ≠ 0 := fun h0 => hne (.inr (Int64.toInt_inj.1 (by simpa using h0)))
        omega
      have halt : ¬ a < 0 := fun h => by
        have := Int64.lt_iff_toInt_lt.1 h
        simp at this
        omega
      have hblt : ¬ b < 0 := fun h => by
        have := Int64.lt_iff_toInt_lt.1 h
        simp at this
        omega
      have hone : ¬ ((a = -1 ∧ b = -maxInt64Value - 1) ∨ (b = -1 ∧ a = -maxInt64Value - 1)) := by
        rintro (⟨rfl, -⟩ | ⟨rfl, -⟩)
        · exact halt (by decide)
        · exact hblt (by decide)
      rw [if_neg hone]
      simp only [halt, hblt, decide_false, bne_self_eq_false, if_false, Bool.false_eq_true]
      have hroom : (maxInt64Value / b).toInt = top / b.toInt := by
        rw [Int64.toInt_div_of_ne_left _ _ (by decide), toInt_maxInt64Value,
          Int.tdiv_eq_ediv_of_nonneg (by decide)]
      split
      · next hgt =>
          have hlt := Int64.lt_iff_toInt_lt.1 hgt
          rw [hroom, Int.ediv_lt_iff_lt_mul hbpos] at hlt
          rw [toInt_maxInt64Value]
          omega
      · next hgt =>
          have hle := Int.not_lt.1 (mt Int64.lt_iff_toInt_lt.2 hgt)
          rw [hroom, Int.le_ediv_iff_mul_le hbpos] at hle
          have hnn := Int.mul_nonneg ha hb
          rw [toInt_mul_of_fits] <;> simp only [top] at * <;> omega

theorem safeMul64_nonneg {a b : Int64} (ha : 0 ≤ a.toInt) (hb : 0 ≤ b.toInt) :
    0 ≤ (safeMul64 a b).toInt := by
  have := Int.mul_nonneg ha hb
  rw [toInt_safeMul64 ha hb]
  simp only [top]
  omega

/-! ## Repeated addition -/

/-- One amount added plainly to a sum, once for each of `n` attempts. -/
def addTimes (amount : Int64) : Nat → Int64 → Int64
  | 0, sum => sum
  | n + 1, sum => addTimes amount n (sum + amount)

theorem foldl_add_const {α : Type*} (l : List α) (amount sum : Int64) :
    l.foldl (fun sum _ => sum + amount) sum = addTimes amount l.length sum := by
  induction l generalizing sum with
  | nil => rfl
  | cons a l ih => exact ih (sum + amount)

theorem toInt_addTimes {amount sum : Int64} {n : Nat} (hs : 0 ≤ sum.toInt)
    (ha : 0 ≤ amount.toInt) (hfits : sum.toInt + n * amount.toInt < 2 ^ 63) :
    (addTimes amount n sum).toInt = sum.toInt + n * amount.toInt := by
  induction n generalizing sum with
  | zero => simp [addTimes]
  | succ n ih =>
      have hn : 0 ≤ (n : Int) * amount.toInt := Int.mul_nonneg (Int.natCast_nonneg n) ha
      have hsplit : ((n + 1 : Nat) : Int) * amount.toInt = n * amount.toInt + amount.toInt := by
        rw [Nat.cast_succ, Int.add_mul, Int.one_mul]
      have hone : (sum + amount).toInt = sum.toInt + amount.toInt :=
        toInt_add_of_fits (by omega) (by omega)
      rw [addTimes, ih (by omega) (by omega), hone]
      omega

end RelayLifeline.Governance
