import Mathlib.Algebra.Group.Int.Defs
import Mathlib.Algebra.Group.Nat.Defs
import Mathlib.Data.Int.Order.Basic

/-!
# Sixty-four bit words read as integers

A signed word adds, subtracts and multiplies modulo `2 ^ 64`, and it orders as
the integer it stands for. Everything proved about word arithmetic in this
development goes through that integer: an operation whose exact result fits
the word is the exact operation, and an addition that runs past the top comes
out `2 ^ 64` too low. The lemmas say which, so that a caller only owes the
range.
-/

namespace RelayLifeline.Lib.Word

/-- The largest value a signed word holds. -/
abbrev top : Int := 2 ^ 63 - 1

theorem toInt_le_top (a : Int64) : a.toInt ≤ top := by
  have := a.toInt_lt
  simp only [top]
  omega

theorem neg_top_le_toInt (a : Int64) : -2 ^ 63 ≤ a.toInt := a.le_toInt

theorem bmod_of_fits {x : Int} (hlo : -2 ^ 63 ≤ x) (hhi : x < 2 ^ 63) :
    x.bmod (2 ^ 64) = x := by
  apply Int.bmod_eq_of_le <;> omega

/-- Past the top by less than a full turn, the word reads `2 ^ 64` too low. -/
theorem bmod_of_past_top {x : Int} (hlo : 2 ^ 63 ≤ x) (hhi : x < 2 ^ 64) :
    x.bmod (2 ^ 64) = x - 2 ^ 64 := by
  have hshift : x.bmod (2 ^ 64) = (x - 2 ^ 64).bmod (2 ^ 64) := by
    have := Int.sub_bmod_right x (2 ^ 64)
    simpa using this.symm
  rw [hshift]
  exact bmod_of_fits (by omega) (by omega)

theorem toInt_add_of_fits {a b : Int64} (hlo : -2 ^ 63 ≤ a.toInt + b.toInt)
    (hhi : a.toInt + b.toInt < 2 ^ 63) : (a + b).toInt = a.toInt + b.toInt := by
  rw [Int64.toInt_add]
  exact bmod_of_fits hlo hhi

theorem toInt_sub_of_fits {a b : Int64} (hlo : -2 ^ 63 ≤ a.toInt - b.toInt)
    (hhi : a.toInt - b.toInt < 2 ^ 63) : (a - b).toInt = a.toInt - b.toInt := by
  rw [Int64.toInt_sub]
  exact bmod_of_fits hlo hhi

theorem toInt_mul_of_fits {a b : Int64} (hlo : -2 ^ 63 ≤ a.toInt * b.toInt)
    (hhi : a.toInt * b.toInt < 2 ^ 63) : (a * b).toInt = a.toInt * b.toInt := by
  rw [Int64.toInt_mul]
  exact bmod_of_fits hlo hhi

/-! ## Order -/

theorem toInt_max (a b : Int64) : (max a b).toInt = max a.toInt b.toInt := by
  show (if a ≤ b then b else a).toInt = _
  split
  · next h =>
      have := Int64.le_iff_toInt_le.1 h
      omega
  · next h =>
      have := mt Int64.le_iff_toInt_le.2 h
      omega

theorem toInt_min (a b : Int64) : (min a b).toInt = min a.toInt b.toInt := by
  show (if a ≤ b then a else b).toInt = _
  split
  · next h =>
      have := Int64.le_iff_toInt_le.1 h
      omega
  · next h =>
      have := mt Int64.le_iff_toInt_le.2 h
      omega

/-- Half of a word that is not negative. -/
theorem toInt_half {a : Int64} (h : 0 ≤ a.toInt) : (a / 2).toInt = a.toInt / 2 := by
  rw [Int64.toInt_div_of_ne_right a 2 (by decide)]
  exact Int.tdiv_eq_ediv_of_nonneg h

end RelayLifeline.Lib.Word
