import RelayLifeline.Governance.Arith
import RelayLifeline.Governance.State
import RelayLifeline.Journal.Digest

/-!
# Budgets, prices and reservation amounts

The manager's pure readings of its configuration: which keys an admission is
charged under, what limits hold for a key, what a usage costs and how much an
attempt reserves ahead of its usage.
-/

namespace RelayLifeline.Governance

open Lib.Word

/-! ## Keys and limits -/

structure BudgetLimits where
  unknownUsageDeny : Bool := false
  maxConcurrent : Nat := 0
  requestsPerMinute : Nat := 0
  tokenLimit : Int64 := 0
  costLimitMicros : Int64 := 0
  deriving DecidableEq, Repr

def stricterInt (left right : Nat) : Nat :=
  if left = 0 then right
  else if right = 0 ∨ left < right then left
  else right

def stricterInt64 (left right : Int64) : Int64 :=
  if left = 0 then right
  else if right = 0 ∨ left < right then left
  else right

def mergeBudgetLimits (left right : BudgetLimits) : BudgetLimits where
  unknownUsageDeny := left.unknownUsageDeny || right.unknownUsageDeny
  maxConcurrent := stricterInt left.maxConcurrent right.maxConcurrent
  requestsPerMinute := stricterInt left.requestsPerMinute right.requestsPerMinute
  tokenLimit := stricterInt64 left.tokenLimit right.tokenLimit
  costLimitMicros := stricterInt64 left.costLimitMicros right.costLimitMicros

/-- The order in which the limits of one key are tried, against what the key
would hold. Every check of the manager is this one, on sums of its own. -/
def BudgetLimits.refusal (budget : BudgetLimits) (unknownUsage active requests : Nat)
    (tokens costMicros : Int64) : Option Reason :=
  if budget.unknownUsageDeny ∧ unknownUsage > 0 then some .unknownUsage
  else if budget.maxConcurrent > 0 ∧ active > budget.maxConcurrent then some .concurrentLimit
  else if budget.requestsPerMinute > 0 ∧ requests > budget.requestsPerMinute then
    some .rateLimit
  else if budget.tokenLimit > 0 ∧ tokens > budget.tokenLimit then some .tokenLimit
  else if budget.costLimitMicros > 0 ∧ costMicros > budget.costLimitMicros then some .costLimit
  else none

/-- `budgetMatches(budget.Key, value)`, for a value that is UTF-8. -/
def GovernanceBudgetConfig.covers (budget : GovernanceBudgetConfig) (value : String) : Bool :=
  budgetMatches (Journal.utf8 budget.key) (Journal.utf8 value)

namespace GovernanceConfig

variable (cfg : GovernanceConfig)

/-- The value a budget's scope picks out of an admission. -/
def scopeValue (admission : AdmissionContext) (principal model : String) : Scope → String
  | .principal => principal
  | .tenant => trimSpace admission.tenant
  | .model => model
  | .upstream => trimSpace admission.upstream

/-- `budgetKeysLocked`. -/
def budgetKeys (admission : AdmissionContext) (principal model : String) : List String :=
  cfg.budgets.foldl (fun keys budget =>
    let value := scopeValue admission principal model budget.scope
    if value ≠ "" ∧ budget.covers value then
      let key := canonicalBudgetKey budget.scope.text value
      if key ∈ keys then keys else keys ++ [key]
    else keys) [canonicalBudgetKey "principal" principal]

/-- `tenantContextRequiredLocked`. -/
def tenantContextRequired : Bool := cfg.budgets.any (fun budget => budget.scope = .tenant)

/-- `budgetForKeyLocked`. -/
def budgetForKey (key : String) : BudgetLimits :=
  let parsed := parseBudgetKey key
  let deny := decide (cfg.unknownUsagePolicy = .deny)
  let global : BudgetLimits :=
    { maxConcurrent := cfg.maxConcurrent, requestsPerMinute := cfg.requestsPerMinute,
      tokenLimit := cfg.tokenLimit, costLimitMicros := cfg.costLimitMicros }
  let limits : BudgetLimits := { unknownUsageDeny := deny }
  let limits := if parsed.1 = "principal" then mergeBudgetLimits limits global else limits
  cfg.budgets.foldl (fun limits budget =>
    if budget.scope.text = parsed.1 ∧ budget.covers parsed.2 then
      mergeBudgetLimits limits
        { unknownUsageDeny := deny, maxConcurrent := budget.maxConcurrent,
          requestsPerMinute := budget.requestsPerMinute, tokenLimit := budget.tokenLimit,
          costLimitMicros := budget.costLimitMicros }
    else limits) limits

/-! ## Prices -/

/-- `m.prices[model]`: the last price configured for the model, or zero. -/
def price (model : String) : Int64 × Int64 :=
  match cfg.prices.reverse.find? (fun item => item.model = model) with
  | some item => (item.inputMicrosPerToken, item.outputMicrosPerToken)
  | none => (0, 0)

/-- `usageCostLocked`: total tokens and cost. -/
def usageCost (model : String) (usage : Usage) : Int64 × Int64 :=
  if usage.known then
    let input := max64 usage.inputTokens 0
    let output := max64 usage.outputTokens 0
    let componentTotal := safeAdd64 input output
    let total := max64 usage.totalTokens componentTotal
    let price := cfg.price model
    let cost := safeAdd64 (safeMul64 input price.1) (safeMul64 output price.2)
    let cost :=
      if total > componentTotal then
        safeAdd64 cost (safeMul64 (total - componentTotal) (max64 price.1 price.2))
      else cost
    (max64 total 0, cost)
  else (0, 0)

/-! ## Reservation amounts

`reservationAmountsForKeysLocked`, in its three parts: what the configuration
and the estimate suggest, the smallest limit among the keys, and the cap. -/

/-- Reservations follow the model's own usage only when a bound or a forecast
is configured. -/
def adaptive : Bool :=
  cfg.reservationMaxTokens > 0 || cfg.reservationMinTokens > 0 || cfg.forecastWindow > 0

def suggestedTokens (estimate : ReservationEstimate) : Int64 :=
  let tokens := max64 cfg.tokenReservation 0
  let tokens :=
    if cfg.adaptive ∧ tokens = 0 ∧ estimate.tokens > 0 then estimate.tokens else tokens
  let tokens := if tokens = 0 then max64 cfg.reservationMinTokens 1 else tokens
  let tokens :=
    if cfg.reservationMaxTokens > 0 then min64 tokens cfg.reservationMaxTokens else tokens
  if cfg.reservationMinTokens > 0 then max64 tokens cfg.reservationMinTokens else tokens

def suggestedCost (estimate : ReservationEstimate) (model : String) (tokens : Int64) : Int64 :=
  let cost := max64 cfg.costReservationMicros 0
  let cost :=
    if cfg.adaptive ∧ cost = 0 ∧ estimate.costMicros > 0 then estimate.costMicros else cost
  let cost :=
    if cost = 0 then safeMul64 tokens (max64 (cfg.price model).1 (cfg.price model).2) else cost
  let cost :=
    if cfg.reservationMaxCostMicros > 0 then min64 cost cfg.reservationMaxCostMicros else cost
  if cfg.reservationMinCostMicros > 0 then max64 cost cfg.reservationMinCostMicros else cost

/-- The smallest positive token limit and the smallest positive cost limit of
the keys, zero where there is none. -/
def tightestLimits (keys : List String) : Int64 × Int64 :=
  keys.foldl (fun limits key =>
    let budget := cfg.budgetForKey key
    (if budget.tokenLimit > 0 ∧ (limits.1 = 0 ∨ budget.tokenLimit < limits.1) then
        budget.tokenLimit
      else limits.1,
     if budget.costLimitMicros > 0 ∧ (limits.2 = 0 ∨ budget.costLimitMicros < limits.2) then
        budget.costLimitMicros
      else limits.2)) (0, 0)

/-- `reservationAmountsForKeysLocked`: what an attempt of this model reserves,
and nothing of a kind that no key limits. -/
def reservationAmountsForKeys (estimate : ReservationEstimate) (model : String)
    (keys : List String) : Int64 × Int64 :=
  let tokens := cfg.suggestedTokens estimate
  let cost := cfg.suggestedCost estimate model tokens
  let limits := cfg.tightestLimits keys
  (if limits.1 = 0 then 0 else min64 tokens limits.1,
   if limits.2 = 0 then 0 else min64 cost limits.2)

end GovernanceConfig

/-- `updateEstimateLocked`. -/
def ReservationEstimate.update (estimate : ReservationEstimate) (total cost : Int64) :
    ReservationEstimate where
  samples := estimate.samples + 1
  tokens :=
    if estimate.tokens = 0 then max64 total 0
    else safeAdd64 (safeMul64 estimate.tokens 3) (max64 total 0) / 4
  costMicros :=
    if estimate.costMicros = 0 then max64 cost 0
    else safeAdd64 (safeMul64 estimate.costMicros 3) (max64 cost 0) / 4

/-! ## What the readings keep -/

/-- Nothing a key would hold is over a limit of its. -/
structure BudgetLimits.Allows (budget : BudgetLimits) (unknownUsage active requests : Nat)
    (tokens costMicros : Int64) : Prop where
  unknown : budget.unknownUsageDeny = true → unknownUsage = 0
  concurrent : 0 < budget.maxConcurrent → active ≤ budget.maxConcurrent
  rate : 0 < budget.requestsPerMinute → requests ≤ budget.requestsPerMinute
  token : budget.tokenLimit > 0 → tokens ≤ budget.tokenLimit
  cost : budget.costLimitMicros > 0 → costMicros ≤ budget.costLimitMicros

theorem BudgetLimits.refusal_eq_none {budget : BudgetLimits} {unknownUsage active requests : Nat}
    {tokens costMicros : Int64} :
    budget.refusal unknownUsage active requests tokens costMicros = none ↔
      budget.Allows unknownUsage active requests tokens costMicros := by
  unfold refusal
  constructor
  · intro h
    split at h
    · cases h
    · next hu =>
      split at h
      · cases h
      · next hc =>
        split at h
        · cases h
        · next hr =>
          split at h
          · cases h
          · next ht =>
            split at h
            · cases h
            · next hm =>
              exact ⟨fun hd => by_contra fun hne => hu ⟨hd, Nat.pos_of_ne_zero hne⟩,
                fun hpos => not_lt.1 fun hlt => hc ⟨hpos, hlt⟩,
                fun hpos => not_lt.1 fun hlt => hr ⟨hpos, hlt⟩,
                fun hpos => Int64.not_lt.1 fun hlt => ht ⟨hpos, hlt⟩,
                fun hpos => Int64.not_lt.1 fun hlt => hm ⟨hpos, hlt⟩⟩
  · intro h
    rw [if_neg fun hu => hu.2.ne' (h.unknown hu.1),
      if_neg fun hc => not_lt.2 (h.concurrent hc.1) hc.2,
      if_neg fun hr => not_lt.2 (h.rate hr.1) hr.2,
      if_neg fun ht => Int64.not_lt.2 (h.token ht.1) ht.2,
      if_neg fun hm => Int64.not_lt.2 (h.cost hm.1) hm.2]

section

variable (cfg : GovernanceConfig)

theorem pos_iff {a : Int64} : a > 0 ↔ 0 < a.toInt := by
  rw [gt_iff_lt, Int64.lt_iff_toInt_lt, Int64.toInt_zero]

theorem eq_zero_iff {a : Int64} : a = 0 ↔ a.toInt = 0 := by
  rw [← Int64.toInt_inj, Int64.toInt_zero]

theorem max64_zero_nonneg (a : Int64) : 0 ≤ (max64 a 0).toInt := by
  rw [toInt_max64]
  exact le_max_right _ _

theorem max64_nonneg {a b : Int64} (h : 0 ≤ a.toInt) : 0 ≤ (max64 a b).toInt := by
  rw [toInt_max64]
  exact le_max_of_le_left h

theorem min64_nonneg {a b : Int64} (ha : 0 ≤ a.toInt) (hb : 0 ≤ b.toInt) :
    0 ≤ (min64 a b).toInt := by
  rw [toInt_min64]
  exact le_min ha hb

theorem sub_nonneg_of_gt {a b : Int64} (hb : 0 ≤ b.toInt) (h : a > b) :
    0 ≤ (a - b).toInt := by
  have hlt := Int64.lt_iff_toInt_lt.1 h
  have htop := toInt_le_top a
  rw [toInt_sub_of_fits] <;> simp only [top] at * <;> omega

/-- Capping from above by a positive bound, then from below. -/
theorem bounded_nonneg {a lower upper : Int64} (h : 0 ≤ a.toInt) :
    0 ≤ (if lower > 0 then max64 (if upper > 0 then min64 a upper else a) lower
      else if upper > 0 then min64 a upper else a).toInt := by
  have hcap : 0 ≤ (if upper > 0 then min64 a upper else a).toInt := by
    split
    · next hu => exact min64_nonneg h (pos_iff.1 hu).le
    · exact h
  split
  · exact max64_nonneg hcap
  · exact hcap

theorem price_nonneg (model : String) :
    0 ≤ (cfg.price model).1.toInt ∧ 0 ≤ (cfg.price model).2.toInt := by
  unfold GovernanceConfig.price
  split
  · next item _ => exact ⟨item.input_nonneg, item.output_nonneg⟩
  · exact ⟨by decide, by decide⟩

theorem stricterInt64_nonneg {a b : Int64} (ha : 0 ≤ a.toInt) (hb : 0 ≤ b.toInt) :
    0 ≤ (stricterInt64 a b).toInt := by
  unfold stricterInt64
  split
  · exact hb
  · split
    · exact ha
    · exact hb

/-- Neither amount limit is negative. -/
def BudgetLimits.Nonneg (limits : BudgetLimits) : Prop :=
  0 ≤ limits.tokenLimit.toInt ∧ 0 ≤ limits.costLimitMicros.toInt

theorem mergeBudgetLimits_nonneg {left right : BudgetLimits} (hl : left.Nonneg)
    (hr : right.Nonneg) : (mergeBudgetLimits left right).Nonneg :=
  ⟨stricterInt64_nonneg hl.1 hr.1, stricterInt64_nonneg hl.2 hr.2⟩

theorem BudgetLimits.nonneg_of_unlimited (deny : Bool) :
    ({ unknownUsageDeny := deny } : BudgetLimits).Nonneg :=
  ⟨le_of_eq Int64.toInt_zero.symm, le_of_eq Int64.toInt_zero.symm⟩

/-- The limits of a key are merged from configured ones. -/
theorem budgetForKey_nonneg (key : String) : (cfg.budgetForKey key).Nonneg := by
  unfold GovernanceConfig.budgetForKey
  refine List.foldlRecOn (motive := BudgetLimits.Nonneg) _ _ ?_ fun limits h budget _ => ?_
  · have hdeny := BudgetLimits.nonneg_of_unlimited (decide (cfg.unknownUsagePolicy = .deny))
    split
    · exact mergeBudgetLimits_nonneg hdeny ⟨cfg.token_nonneg, cfg.cost_nonneg⟩
    · exact hdeny
  · split
    · exact mergeBudgetLimits_nonneg h ⟨budget.token_nonneg, budget.cost_nonneg⟩
    · exact h

theorem suggestedTokens_nonneg (estimate : ReservationEstimate) :
    0 ≤ (cfg.suggestedTokens estimate).toInt := by
  have hbase : 0 ≤ (if cfg.adaptive ∧ max64 cfg.tokenReservation 0 = 0 ∧ estimate.tokens > 0
      then estimate.tokens else max64 cfg.tokenReservation 0).toInt := by
    split
    · next h => exact (pos_iff.1 h.2.2).le
    · exact max64_zero_nonneg _
  unfold GovernanceConfig.suggestedTokens
  dsimp only
  generalize (if cfg.adaptive ∧ max64 cfg.tokenReservation 0 = 0 ∧ estimate.tokens > 0
      then estimate.tokens else max64 cfg.tokenReservation 0) = base at hbase
  have hfilled : 0 ≤ (if base = 0 then max64 cfg.reservationMinTokens 1 else base).toInt := by
    split
    · rw [toInt_max64]
      exact le_max_of_le_right (by decide)
    · exact hbase
  exact bounded_nonneg hfilled

theorem suggestedCost_nonneg (estimate : ReservationEstimate) (model : String) {tokens : Int64}
    (ht : 0 ≤ tokens.toInt) : 0 ≤ (cfg.suggestedCost estimate model tokens).toInt := by
  have hbase : 0 ≤ (if cfg.adaptive ∧ max64 cfg.costReservationMicros 0 = 0 ∧
      estimate.costMicros > 0 then estimate.costMicros
      else max64 cfg.costReservationMicros 0).toInt := by
    split
    · next h => exact (pos_iff.1 h.2.2).le
    · exact max64_zero_nonneg _
  unfold GovernanceConfig.suggestedCost
  dsimp only
  generalize (if cfg.adaptive ∧ max64 cfg.costReservationMicros 0 = 0 ∧ estimate.costMicros > 0
      then estimate.costMicros else max64 cfg.costReservationMicros 0) = base at hbase
  have hfilled : 0 ≤ (if base = 0 then
      safeMul64 tokens (max64 (cfg.price model).1 (cfg.price model).2) else base).toInt := by
    split
    · exact safeMul64_nonneg ht (max64_nonneg (price_nonneg cfg model).1)
    · exact hbase
  exact bounded_nonneg hfilled

theorem tightestLimits_nonneg (keys : List String) :
    0 ≤ (cfg.tightestLimits keys).1.toInt ∧ 0 ≤ (cfg.tightestLimits keys).2.toInt := by
  unfold GovernanceConfig.tightestLimits
  refine List.foldlRecOn
    (motive := fun (limits : Int64 × Int64) => 0 ≤ limits.1.toInt ∧ 0 ≤ limits.2.toInt) keys _ ⟨by decide, by decide⟩ fun limits h key _ => ?_
  obtain ⟨htoken, hcost⟩ := budgetForKey_nonneg cfg key
  constructor
  · dsimp only
    split
    · exact htoken
    · exact h.1
  · dsimp only
    split
    · exact hcost
    · exact h.2

theorem reservationAmountsForKeys_nonneg (estimate : ReservationEstimate) (model : String)
    (keys : List String) :
    0 ≤ (cfg.reservationAmountsForKeys estimate model keys).1.toInt ∧
      0 ≤ (cfg.reservationAmountsForKeys estimate model keys).2.toInt := by
  obtain ⟨htoken, hcost⟩ := tightestLimits_nonneg cfg keys
  have hst := suggestedTokens_nonneg cfg estimate
  have hsc := suggestedCost_nonneg cfg estimate model hst
  unfold GovernanceConfig.reservationAmountsForKeys
  constructor
  · dsimp only
    split
    · decide
    · exact min64_nonneg hst htoken
  · dsimp only
    split
    · decide
    · exact min64_nonneg hsc hcost

end

end RelayLifeline.Governance
