import RelayLifeline.Governance.Budget

/-!
# What a usage costs

`usageCostLocked` adds and multiplies with helpers that stop at the top of a
word, and takes what the components leave of the total from a sum that may
already have stopped there. It nevertheless comes out as the exact cost, cut
once at the top: a sum of cut parts is the cut sum where no part is negative,
and where the sum of the components has stopped, no total is above it, so
nothing is left to price.
-/

namespace RelayLifeline.Governance

open Lib.Word

namespace Usage

/-- The tokens of both directions, neither taken as negative. -/
def components (usage : Usage) : Int :=
  max usage.inputTokens.toInt 0 + max usage.outputTokens.toInt 0

/-- The tokens a usage is charged for. -/
def total (usage : Usage) : Int := max usage.totalTokens.toInt (min (2 ^ 63 - 1) usage.components)

/-- The cost at a price for each direction: what the directions do not account
for is charged at the higher price. -/
def cost (usage : Usage) (inputPrice outputPrice : Int) : Int :=
  max usage.inputTokens.toInt 0 * inputPrice + max usage.outputTokens.toInt 0 * outputPrice +
    max (usage.total - usage.components) 0 * max inputPrice outputPrice

end Usage

/-- A sum of amounts that were cut at the top, cut at the top. -/
theorem min_top_add {x y : Int} (hx : 0 ≤ x) (hy : 0 ≤ y) :
    min top (min top x + min top y) = min top (x + y) := by
  simp only [top]
  omega

/-- Both directions at their prices. -/
theorem toInt_safeAdd64_safeMul64 {a b p q : Int64} (ha : 0 ≤ a.toInt) (hb : 0 ≤ b.toInt)
    (hp : 0 ≤ p.toInt) (hq : 0 ≤ q.toInt) :
    (safeAdd64 (safeMul64 a p) (safeMul64 b q)).toInt =
      min top (a.toInt * p.toInt + b.toInt * q.toInt) := by
  rw [toInt_safeAdd64 (safeMul64_nonneg hb hq), toInt_safeMul64 ha hp, toInt_safeMul64 hb hq]
  exact min_top_add (Int.mul_nonneg ha hp) (Int.mul_nonneg hb hq)

/-- A total above the sum of the components is above the exact sum, which the
addition then had room for. -/
theorem components_of_lt {total sum : Int64} {components : Int}
    (hsum : sum.toInt = min top components) (hlt : sum < total) : sum.toInt = components := by
  have hroom := toInt_le_top total
  have := Int64.lt_iff_toInt_lt.1 hlt
  omega

namespace GovernanceConfig

variable (cfg : GovernanceConfig)

/-- Known usage is charged for its exact total, at its exact cost as far as a
word goes. -/
theorem usageCost_exact (model : String) {usage : Usage} (hknown : usage.known = true) :
    (cfg.usageCost model usage).1.toInt = usage.total ∧
      (cfg.usageCost model usage).2.toInt =
        min (2 ^ 63 - 1) (usage.cost (cfg.price model).1.toInt (cfg.price model).2.toInt) := by
  obtain ⟨hinPrice, houtPrice⟩ := price_nonneg cfg model
  have hinput := max64_zero_nonneg usage.inputTokens
  have houtput := max64_zero_nonneg usage.outputTokens
  have hsum : (safeAdd64 (max64 usage.inputTokens 0) (max64 usage.outputTokens 0)).toInt =
      min top usage.components := by
    rw [toInt_safeAdd64 houtput, toInt_max64, toInt_max64]
    rfl
  have hsumNonneg := safeAdd64_nonneg hinput houtput
  have hdirections := toInt_safeAdd64_safeMul64 hinput houtput hinPrice houtPrice
  have htotal : (max64 usage.totalTokens
      (safeAdd64 (max64 usage.inputTokens 0) (max64 usage.outputTokens 0))).toInt =
        usage.total := by
    rw [toInt_max64, hsum]
    rfl
  have hunit := max64_nonneg (b := (cfg.price model).2) hinPrice
  rw [usageCost, if_pos hknown]
  dsimp only
  generalize safeAdd64 (max64 usage.inputTokens 0) (max64 usage.outputTokens 0) = sum at *
  generalize max64 usage.totalTokens sum = total at *
  have hge : sum.toInt ≤ total.toInt := by
    rw [htotal, hsum]
    exact le_max_right _ _
  constructor
  · rw [toInt_max64, htotal]
    have := Int64.toInt_zero
    omega
  · rw [Usage.cost, ← htotal]
    simp only [toInt_max64, Int64.toInt_zero] at hdirections
    have hdirectionsNonneg : 0 ≤ max usage.inputTokens.toInt 0 * (cfg.price model).1.toInt +
        max usage.outputTokens.toInt 0 * (cfg.price model).2.toInt :=
      Int.add_nonneg (Int.mul_nonneg (le_max_right _ _) hinPrice)
        (Int.mul_nonneg (le_max_right _ _) houtPrice)
    split
    · next hgt =>
        have hexact := components_of_lt hsum hgt
        have hrest := sub_nonneg_of_gt hsumNonneg hgt
        have hsub : (total - sum).toInt = max (total.toInt - usage.components) 0 := by
          have hlt := Int64.lt_iff_toInt_lt.1 hgt
          have htop := toInt_le_top total
          rw [toInt_sub_of_fits] <;> simp only [top] at * <;> omega
        rw [toInt_safeAdd64 (safeMul64_nonneg hrest hunit), hdirections,
          toInt_safeMul64 hrest hunit,
          hsub, toInt_max64]
        refine min_top_add hdirectionsNonneg (Int.mul_nonneg (le_max_right _ _) ?_)
        exact le_max_of_le_left hinPrice
    · next hle =>
        have heq : total.toInt = sum.toInt := by
          have := mt Int64.lt_iff_toInt_lt.2 hle
          omega
        have hnone : max (total.toInt - usage.components) 0 = 0 := by
          rw [heq, hsum]
          omega
        rw [hdirections, hnone, Int.zero_mul, Int.add_zero]

/-- Three tokens of no known direction, at the dearer of two prices. -/
theorem usageCost_exact_totalOnly :
    let cfg : GovernanceConfig :=
      { mode := .observe, prices := [⟨"m", 2, 5, by decide, by decide⟩] }
    (cfg.usageCost "m" { totalTokens := 3, known := true }).2.toInt = 15 := by
  refine ((usageCost_exact _ "m" rfl).2).trans ?_
  decide

end GovernanceConfig

end RelayLifeline.Governance
