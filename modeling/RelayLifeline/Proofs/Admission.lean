import RelayLifeline.Lib.Ceiling
import RelayLifeline.Proofs.Accounting

/-!
# Admission against its reference

The manager first collects the keys an admission is charged under and then, for
each key, merges every budget that matches it. Looked at from the budgets, each
of them just has to hold on its own key, and so do the global limits on the
principal's. What an admission reserves is capped by the strictest limit among
them.
-/

namespace RelayLifeline.Governance

open Lib Lib.Word Lib.Ceiling

/-! ## The reference -/

/-- The limits hold of a key in this state, with one more attempt and these
amounts on top. -/
structure BudgetLimits.Holds (limits : BudgetLimits) (state : UsageState) (active : Nat)
    (reserved : Int × Int) : Prop where
  unknown : limits.unknownUsageDeny = true → state.unknownUsage = 0
  concurrent : Admits limits.maxConcurrent (active + 1)
  rate : Admits limits.requestsPerMinute (state.requests + 1)
  token : Admits limits.tokenLimit.toInt
    (state.tokens.toInt + state.reservedTokens.toInt + reserved.1)
  cost : Admits limits.costLimitMicros.toInt
    (state.costMicros.toInt + state.reservedCostMicros.toInt + reserved.2)

namespace GovernanceConfig

variable (cfg : GovernanceConfig)

def globalLimits : BudgetLimits where
  unknownUsageDeny := cfg.unknownUsagePolicy = .deny
  maxConcurrent := cfg.maxConcurrent
  requestsPerMinute := cfg.requestsPerMinute
  tokenLimit := cfg.tokenLimit
  costLimitMicros := cfg.costLimitMicros

def budgetLimits (budget : GovernanceBudgetConfig) : BudgetLimits where
  unknownUsageDeny := cfg.unknownUsagePolicy = .deny
  maxConcurrent := budget.maxConcurrent
  requestsPerMinute := budget.requestsPerMinute
  tokenLimit := budget.tokenLimit
  costLimitMicros := budget.costLimitMicros

/-- What the budget's scope picks out of the admission. -/
def valueOf (admission : AdmissionContext) (budget : GovernanceBudgetConfig) : String :=
  scopeValue admission admission.principal admission.model budget.scope

/-- The budget's scope has a value and its pattern matches it. -/
def applies (admission : AdmissionContext) (budget : GovernanceBudgetConfig) : Bool :=
  valueOf admission budget ≠ "" && budget.covers (valueOf admission budget)

/-- Every limit an admission comes under, each with the key it is about: the
global limits, and those of each budget that applies. -/
def applied (admission : AdmissionContext) : List (String × BudgetLimits) :=
  (Scope.principal.key admission.principal, cfg.globalLimits) ::
    (cfg.budgets.filter (applies admission)).map fun budget =>
      (budget.scope.key (valueOf admission budget), cfg.budgetLimits budget)

/-- What is suggested, under the strictest limit of its kind; nothing where
there is none. -/
def capped (suggested : Int64) (limits : List Int64) : Int :=
  let limit := strictest (limits.map Int64.toInt)
  if limit = 0 then 0 else min suggested.toInt limit

/-- The amounts an admission is to reserve. -/
def reservedFor (estimate : ReservationEstimate) (admission : AdmissionContext) : Int × Int :=
  let limits := (cfg.applied admission).map Prod.snd
  let tokens := cfg.suggestedTokens estimate
  (capped tokens (limits.map BudgetLimits.tokenLimit),
    capped (cfg.suggestedCost estimate admission.model tokens)
      (limits.map BudgetLimits.costLimitMicros))

end GovernanceConfig

namespace Manager

/-- What the reference reserves for an admission. -/
def referenceAmounts (m : Manager) (admission : AdmissionContext) : Int × Int :=
  m.config.reservedFor (m.estimates admission.model) admission

/-- Each limit the admission comes under holds on its own. -/
def EachHolds (m : Manager) (window : Int) (admission : AdmissionContext) : Prop :=
  ∀ limit ∈ m.config.applied admission,
    limit.2.Holds (m.windows.get limit.1 window) (m.activeForBudget limit.1)
      (m.referenceAmounts admission)

end Manager

/-! ## Merging -/

theorem toInt_stricterInt64 (left right : Int64) :
    (stricterInt64 left right).toInt = stricter left.toInt right.toInt := by
  simp only [stricterInt64, stricter, eq_zero_iff, Int64.lt_iff_toInt_lt]
  split
  · rfl
  split
  · rfl
  · rfl

/-- Both limits hold exactly when the merged one does. -/
theorem BudgetLimits.holds_merge {left right : BudgetLimits} (hl : left.Nonneg)
    (hr : right.Nonneg) {state : UsageState} {active : Nat} {reserved : Int × Int} :
    (mergeBudgetLimits left right).Holds state active reserved ↔
      left.Holds state active reserved ∧ right.Holds state active reserved := by
  have hconcurrent := @admits_stricter _ _ _ _ _ (active + 1)
    (Nat.zero_le left.maxConcurrent) (Nat.zero_le right.maxConcurrent)
  have hrate := @admits_stricter _ _ _ _ _ (state.requests + 1)
    (Nat.zero_le left.requestsPerMinute) (Nat.zero_le right.requestsPerMinute)
  have htoken (value : Int) : Admits (mergeBudgetLimits left right).tokenLimit.toInt value ↔
      Admits left.tokenLimit.toInt value ∧ Admits right.tokenLimit.toInt value := by
    rw [mergeBudgetLimits, toInt_stricterInt64]
    exact admits_stricter hl.1 hr.1
  have hcost (value : Int) : Admits (mergeBudgetLimits left right).costLimitMicros.toInt value ↔
      Admits left.costLimitMicros.toInt value ∧ Admits right.costLimitMicros.toInt value := by
    rw [mergeBudgetLimits, toInt_stricterInt64]
    exact admits_stricter hl.2 hr.2
  constructor
  · intro h
    exact
      ⟨⟨fun hdeny => h.unknown (by rw [mergeBudgetLimits, hdeny]; rfl),
        (hconcurrent.mp h.concurrent).1, (hrate.mp h.rate).1, ((htoken _).mp h.token).1,
        ((hcost _).mp h.cost).1⟩,
      ⟨fun hdeny => h.unknown (by rw [mergeBudgetLimits, hdeny, Bool.or_true]),
        (hconcurrent.mp h.concurrent).2, (hrate.mp h.rate).2, ((htoken _).mp h.token).2,
        ((hcost _).mp h.cost).2⟩⟩
  · rintro ⟨h, h'⟩
    refine ⟨fun hdeny => ?_, hconcurrent.mpr ⟨h.concurrent, h'.concurrent⟩,
      hrate.mpr ⟨h.rate, h'.rate⟩, (htoken _).mpr ⟨h.token, h'.token⟩,
      (hcost _).mpr ⟨h.cost, h'.cost⟩⟩
    rcases Bool.or_eq_true_iff.mp hdeny with hleft | hright
    · exact h.unknown hleft
    · exact h'.unknown hright

namespace GovernanceConfig

/-- A condition on limits that a merge has to meet for both, and that nothing but
the policy on unknown usage can break where there are no figures. -/
structure Splits (cfg : GovernanceConfig) (P : BudgetLimits → Prop) : Prop where
  merge : ∀ {left right : BudgetLimits}, left.Nonneg → right.Nonneg →
    (P (mergeBudgetLimits left right) ↔ P left ∧ P right)
  bare : ∀ {limits : BudgetLimits},
    limits.unknownUsageDeny = decide (cfg.unknownUsagePolicy = .deny) → P limits →
      P { unknownUsageDeny := decide (cfg.unknownUsagePolicy = .deny) }

variable {cfg : GovernanceConfig} {admission : AdmissionContext} {P : BudgetLimits → Prop}

theorem globalLimits_nonneg : cfg.globalLimits.Nonneg := ⟨cfg.token_nonneg, cfg.cost_nonneg⟩

theorem budgetLimits_nonneg (budget : GovernanceBudgetConfig) :
    (cfg.budgetLimits budget).Nonneg := ⟨budget.token_nonneg, budget.cost_nonneg⟩

theorem merge_globalLimits :
    mergeBudgetLimits { unknownUsageDeny := decide (cfg.unknownUsagePolicy = .deny) }
      { maxConcurrent := cfg.maxConcurrent, requestsPerMinute := cfg.requestsPerMinute,
        tokenLimit := cfg.tokenLimit, costLimitMicros := cfg.costLimitMicros } =
      cfg.globalLimits := by
  simp [mergeBudgetLimits, globalLimits, stricterInt, stricterInt64]

/-- What the merged limits of a key come to: the limits the merge starts from,
and those of each budget that matches. -/
theorem Splits.foldl (h : cfg.Splits P) (scope : Scope) (value : String)
    (budgets : List GovernanceBudgetConfig) {limits : BudgetLimits} (hlimits : limits.Nonneg) :
    P (budgets.foldl (fun limits budget =>
        if budget.scope.text = scope.text ∧ budget.covers value then
          mergeBudgetLimits limits (cfg.budgetLimits budget)
        else limits) limits) ↔
      P limits ∧ ∀ budget ∈ budgets, budget.scope = scope → budget.covers value = true →
        P (cfg.budgetLimits budget) := by
  induction budgets generalizing limits with
  | nil => exact (and_iff_left nofun).symm
  | cons budget budgets ih =>
    rw [List.foldl_cons, List.forall_mem_cons]
    split
    · next hmatch =>
      have hscope : budget.scope = scope := Scope.text_injective hmatch.1
      rw [ih (mergeBudgetLimits_nonneg hlimits (budgetLimits_nonneg budget)),
        h.merge hlimits (budgetLimits_nonneg budget), and_assoc]
      refine and_congr_right fun _ => and_congr_left fun _ => ?_
      exact ⟨fun hP _ _ => hP, fun hP => hP hscope hmatch.2⟩
    · next hmatch =>
      rw [ih hlimits]
      refine and_congr_right fun _ => (and_iff_right ?_).symm
      intro hscope hmatches
      exact absurd ⟨congrArg Scope.text hscope, hmatches⟩ hmatch

theorem Splits.budgetForKey (h : cfg.Splits P) (scope : Scope) (value : String) :
    P (cfg.budgetForKey (scope.key value)) ↔
      P (if scope = .principal then cfg.globalLimits
        else { unknownUsageDeny := decide (cfg.unknownUsagePolicy = .deny) }) ∧
      ∀ budget ∈ cfg.budgets, budget.scope = scope → budget.covers value = true →
        P (cfg.budgetLimits budget) := by
  have hprincipal : scope.text = "principal" ↔ scope = .principal :=
    ⟨fun heq => Scope.text_injective heq, fun heq => by rw [heq]; rfl⟩
  simp only [GovernanceConfig.budgetForKey, parseBudgetKey_key, hprincipal, merge_globalLimits]
  refine h.foldl scope value cfg.budgets ?_
  split
  · exact globalLimits_nonneg
  · exact BudgetLimits.nonneg_of_unlimited _

theorem mem_applied {limit : String × BudgetLimits} :
    limit ∈ cfg.applied admission ↔
      limit = (Scope.principal.key admission.principal, cfg.globalLimits) ∨
        ∃ budget ∈ cfg.budgets, applies admission budget = true ∧
          (budget.scope.key (valueOf admission budget), cfg.budgetLimits budget) = limit := by
  rw [applied, List.mem_cons, List.mem_map]
  simp only [List.mem_filter, and_assoc]

/-- The keys an admission is charged under are those of the limits it comes
under. -/
theorem mem_budgetKeys {key : String} :
    key ∈ cfg.budgetKeys admission admission.principal admission.model ↔
      ∃ limit ∈ cfg.applied admission, limit.1 = key := by
  have hfold (budgets : List GovernanceBudgetConfig) (keys : List String) :
      key ∈ budgets.foldl (fun keys budget =>
        if valueOf admission budget ≠ "" ∧ budget.covers (valueOf admission budget) then
          if budget.scope.key (valueOf admission budget) ∈ keys then keys
          else keys ++ [budget.scope.key (valueOf admission budget)]
        else keys) keys ↔
      key ∈ keys ∨ ∃ budget ∈ budgets, applies admission budget = true ∧
        budget.scope.key (valueOf admission budget) = key := by
    induction budgets generalizing keys with
    | nil => simp
    | cons budget budgets ih =>
      rw [List.foldl_cons, ih]
      by_cases happlies : applies admission budget = true
      · have hcond : valueOf admission budget ≠ "" ∧
            budget.covers (valueOf admission budget) = true := by
          simpa [applies] using happlies
        rw [if_pos hcond]
        split
        · next hin =>
          constructor
          · rintro (hkey | ⟨budget', hbudget', hrest⟩)
            · exact .inl hkey
            · exact .inr ⟨budget', List.mem_cons_of_mem _ hbudget', hrest⟩
          · rintro (hkey | ⟨budget', hbudget', hrest⟩)
            · exact .inl hkey
            · rcases List.mem_cons.mp hbudget' with rfl | hbudget'
              · exact .inl (hrest.2 ▸ hin)
              · exact .inr ⟨budget', hbudget', hrest⟩
        · simp only [List.mem_append, List.mem_singleton, List.exists_mem_cons_iff, happlies,
            true_and, or_assoc, eq_comm (a := key)]
      · have hcond : ¬(valueOf admission budget ≠ "" ∧
            budget.covers (valueOf admission budget) = true) := by
          simpa [applies] using happlies
        rw [if_neg hcond]
        simp [happlies]
  have hstart := hfold cfg.budgets [Scope.principal.key admission.principal]
  constructor
  · intro hkey
    rcases hstart.mp hkey with hin | ⟨budget, hbudget, happlies, heq⟩
    · exact ⟨_, mem_applied.mpr (.inl rfl), (List.mem_singleton.mp hin).symm⟩
    · exact ⟨_, mem_applied.mpr (.inr ⟨budget, hbudget, happlies, rfl⟩), heq⟩
  · rintro ⟨limit, hlimit, rfl⟩
    refine hstart.mpr ?_
    rcases mem_applied.mp hlimit with rfl | ⟨budget, hbudget, happlies, rfl⟩
    · exact .inl (List.mem_singleton_self _)
    · exact .inr ⟨budget, hbudget, happlies, rfl⟩

/-- Every limit is about a scope for which the admission has a value. -/
theorem scope_of_applied {limit : String × BudgetLimits} (h : limit ∈ cfg.applied admission)
    (hprincipal : admission.principal ≠ "") :
    ∃ scope : Scope,
      limit.1 = scope.key (scopeValue admission admission.principal admission.model scope) ∧
        scopeValue admission admission.principal admission.model scope ≠ "" ∧
        limit.2.unknownUsageDeny = decide (cfg.unknownUsagePolicy = .deny) := by
  rcases mem_applied.mp h with rfl | ⟨budget, hbudget, happlies, rfl⟩
  · exact ⟨.principal, rfl, hprincipal, rfl⟩
  · refine ⟨budget.scope, rfl, ?_, rfl⟩
    simp only [applies, Bool.and_eq_true, decide_eq_true_eq] at happlies
    exact happlies.1

/-- The merged limits of a key meet the condition when each limit about the key
does. -/
theorem Splits.budgetForKey_iff (h : cfg.Splits P) {key : String}
    (hkey : key ∈ cfg.budgetKeys admission admission.principal admission.model)
    (hprincipal : admission.principal ≠ "") :
    P (cfg.budgetForKey key) ↔ ∀ limit ∈ cfg.applied admission, limit.1 = key → P limit.2 := by
  obtain ⟨known, hknown, rfl⟩ := mem_budgetKeys.mp hkey
  obtain ⟨scope, hscope, hvalue, hdeny⟩ := scope_of_applied hknown hprincipal
  rw [hscope, h.budgetForKey]
  constructor
  · rintro ⟨hstart, hbudgets⟩ limit hlimit hsame
    rcases mem_applied.mp hlimit with rfl | ⟨budget, hbudget, happlies, rfl⟩
    · obtain ⟨rfl, -⟩ := Scope.key_inj.mp hsame
      rwa [if_pos rfl] at hstart
    · obtain ⟨hsameScope, hsameValue⟩ := Scope.key_inj.mp hsame
      simp only [applies, Bool.and_eq_true] at happlies
      exact hbudgets budget hbudget hsameScope (hsameValue ▸ happlies.2)
  · intro hall
    refine ⟨?_, fun budget hbudget hsame hmatches => ?_⟩
    · split
      · next hown =>
        subst hown
        exact hall _ (mem_applied.mpr (.inl rfl)) rfl
      · exact h.bare hdeny (hall known hknown hscope)
    · subst hsame
      refine hall _ (mem_applied.mpr (.inr ⟨budget, hbudget, ?_, rfl⟩)) rfl
      rw [applies, Bool.and_eq_true, decide_eq_true_eq]
      exact ⟨hvalue, hmatches⟩

/-- The same over all the keys, for a condition that looks at the key as well. -/
theorem forall_budgetKeys_iff {Q : String → BudgetLimits → Prop} (h : ∀ key, cfg.Splits (Q key))
    (hprincipal : admission.principal ≠ "") :
    (∀ key ∈ cfg.budgetKeys admission admission.principal admission.model,
        Q key (cfg.budgetForKey key)) ↔
      ∀ limit ∈ cfg.applied admission, Q limit.1 limit.2 := by
  constructor
  · intro hkeys limit hlimit
    have hkey : limit.1 ∈ cfg.budgetKeys admission admission.principal admission.model :=
      mem_budgetKeys.mpr ⟨limit, hlimit, rfl⟩
    exact ((h limit.1).budgetForKey_iff hkey hprincipal).mp (hkeys limit.1 hkey) limit hlimit rfl
  · intro hlimits key hkey
    refine ((h key).budgetForKey_iff hkey hprincipal).mpr ?_
    rintro limit hlimit rfl
    exact hlimits limit hlimit

theorem splits_holds (state : UsageState) (active : Nat) (reserved : Int × Int) :
    cfg.Splits fun limits => limits.Holds state active reserved where
  merge hl hr := BudgetLimits.holds_merge hl hr
  bare hdeny h :=
    ⟨fun hset => h.unknown (hdeny.trans hset), admits_zero _, admits_zero _, admits_zero _,
      admits_zero _⟩

/-! ## What an admission reserves -/

theorem splits_token (value : Int) :
    cfg.Splits fun limits => Admits limits.tokenLimit.toInt value where
  merge {left right} hl hr := by
    rw [mergeBudgetLimits, toInt_stricterInt64]
    exact admits_stricter hl.1 hr.1
  bare _ _ := admits_zero value

theorem splits_cost (value : Int) :
    cfg.Splits fun limits => Admits limits.costLimitMicros.toInt value where
  merge {left right} hl hr := by
    rw [mergeBudgetLimits, toInt_stricterInt64]
    exact admits_stricter hl.2 hr.2
  bare _ _ := admits_zero value

/-- The step of `tightestLimits` on one kind of limit. -/
theorem tighter_eq {limit budget : Int64} (hlimit : 0 ≤ limit.toInt) (hbudget : 0 ≤ budget.toInt) :
    (if budget > 0 ∧ (limit = 0 ∨ budget < limit) then budget else limit).toInt =
      stricter limit.toInt budget.toInt := by
  simp only [stricter, gt_iff_lt, eq_zero_iff, Int64.lt_iff_toInt_lt, Int64.toInt_zero]
  split
  · next htighter =>
    split
    · rfl
    · next hset =>
      have := htighter.2.resolve_left hset
      rw [if_neg (by omega)]
  · next hkept =>
    split
    · next hunset => omega
    · split
      · rfl
      · next hset => omega

/-- The tightest limits of the keys admit what every key admits. -/
theorem admits_tightestLimits (keys : List String) (tokens cost : Int) :
    (Admits (cfg.tightestLimits keys).1.toInt tokens ↔
        ∀ key ∈ keys, Admits (cfg.budgetForKey key).tokenLimit.toInt tokens) ∧
      (Admits (cfg.tightestLimits keys).2.toInt cost ↔
        ∀ key ∈ keys, Admits (cfg.budgetForKey key).costLimitMicros.toInt cost) := by
  have hfold (limits : Int64 × Int64) (ht : 0 ≤ limits.1.toInt) (hc : 0 ≤ limits.2.toInt) :
      let tightest := keys.foldl (fun limits key =>
        let budget := cfg.budgetForKey key
        (if budget.tokenLimit > 0 ∧ (limits.1 = 0 ∨ budget.tokenLimit < limits.1) then
            budget.tokenLimit
          else limits.1,
         if budget.costLimitMicros > 0 ∧ (limits.2 = 0 ∨ budget.costLimitMicros < limits.2) then
            budget.costLimitMicros
          else limits.2)) limits
      (Admits tightest.1.toInt tokens ↔ Admits limits.1.toInt tokens ∧
          ∀ key ∈ keys, Admits (cfg.budgetForKey key).tokenLimit.toInt tokens) ∧
        (Admits tightest.2.toInt cost ↔ Admits limits.2.toInt cost ∧
          ∀ key ∈ keys, Admits (cfg.budgetForKey key).costLimitMicros.toInt cost) := by
    induction keys generalizing limits with
    | nil => exact ⟨(and_iff_left nofun).symm, (and_iff_left nofun).symm⟩
    | cons key keys ih =>
      obtain ⟨htoken, hcost⟩ := budgetForKey_nonneg cfg key
      intro tightest
      have hnext := ih
        (if (cfg.budgetForKey key).tokenLimit > 0 ∧
            (limits.1 = 0 ∨ (cfg.budgetForKey key).tokenLimit < limits.1) then
          (cfg.budgetForKey key).tokenLimit else limits.1,
        if (cfg.budgetForKey key).costLimitMicros > 0 ∧
            (limits.2 = 0 ∨ (cfg.budgetForKey key).costLimitMicros < limits.2) then
          (cfg.budgetForKey key).costLimitMicros else limits.2)
        (by rw [tighter_eq ht htoken]; exact stricter_nonneg ht htoken)
        (by rw [tighter_eq hc hcost]; exact stricter_nonneg hc hcost)
      rw [tighter_eq ht htoken, tighter_eq hc hcost, admits_stricter ht htoken,
        admits_stricter hc hcost, and_assoc, and_assoc] at hnext
      rw [List.forall_mem_cons, List.forall_mem_cons]
      exact hnext
  have hstart := hfold (0, 0) (by decide) (by decide)
  have hzero (value : Int) : Admits (0 : Int64).toInt value := by
    rw [Int64.toInt_zero]
    exact admits_zero value
  exact ⟨hstart.1.trans (and_iff_right (hzero tokens)), hstart.2.trans (and_iff_right (hzero cost))⟩

theorem nonneg_of_applied {limit : String × BudgetLimits} (h : limit ∈ cfg.applied admission) :
    limit.2.Nonneg := by
  rcases mem_applied.mp h with rfl | ⟨budget, hbudget, happlies, rfl⟩
  · exact globalLimits_nonneg
  · exact budgetLimits_nonneg budget

/-- The tightest limits of the keys are the strictest limits of the reference. -/
theorem tightestLimits_eq (hprincipal : admission.principal ≠ "") :
    let tightest := cfg.tightestLimits
      (cfg.budgetKeys admission admission.principal admission.model)
    let limits := (cfg.applied admission).map Prod.snd
    tightest.1.toInt = strictest ((limits.map BudgetLimits.tokenLimit).map Int64.toInt) ∧
      tightest.2.toInt = strictest ((limits.map BudgetLimits.costLimitMicros).map Int64.toInt) := by
  intro tightest limits
  obtain ⟨htokens, hcost⟩ := tightestLimits_nonneg cfg
    (cfg.budgetKeys admission admission.principal admission.model)
  have hlimits : ∀ limits' ∈ limits, limits'.Nonneg := by
    intro limits' hin
    obtain ⟨limit, hlimit, rfl⟩ := List.mem_map.mp hin
    exact nonneg_of_applied hlimit
  have hall (figure : BudgetLimits → Int64) (hfigure : ∀ limits' ∈ limits, 0 ≤ (figure limits').toInt) :
      ∀ value ∈ (limits.map figure).map Int64.toInt, 0 ≤ value := by
    rw [List.forall_mem_map, List.forall_mem_map]
    exact hfigure
  constructor
  · have hnonneg := hall BudgetLimits.tokenLimit fun limits' hin => (hlimits limits' hin).1
    refine eq_of_admits htokens (strictest_nonneg hnonneg) fun value => ?_
    rw [admits_strictest hnonneg, (cfg.admits_tightestLimits _ value 0).1,
      forall_budgetKeys_iff (fun _ => splits_token value) hprincipal]
    simp only [limits, List.forall_mem_map]
  · have hnonneg := hall BudgetLimits.costLimitMicros fun limits' hin => (hlimits limits' hin).2
    refine eq_of_admits hcost (strictest_nonneg hnonneg) fun value => ?_
    rw [admits_strictest hnonneg, (cfg.admits_tightestLimits _ 0 value).2,
      forall_budgetKeys_iff (fun _ => splits_cost value) hprincipal]
    simp only [limits, List.forall_mem_map]

/-- The amounts the manager reserves are those of the reference. -/
theorem reservationAmounts_eq (hprincipal : admission.principal ≠ "")
    (estimate : ReservationEstimate) :
    let amounts := cfg.reservationAmountsForKeys estimate admission.model
      (cfg.budgetKeys admission admission.principal admission.model)
    (amounts.1.toInt, amounts.2.toInt) = cfg.reservedFor estimate admission := by
  obtain ⟨htoken, hcost⟩ := @tightestLimits_eq cfg _ hprincipal
  have hcapped {suggested limit : Int64} {limits : List Int64}
      (hlimit : limit.toInt = strictest (limits.map Int64.toInt)) :
      (if limit = 0 then 0 else min64 suggested limit).toInt = capped suggested limits := by
    simp only [capped, ← hlimit, eq_zero_iff]
    split
    · rfl
    · exact toInt_min64 suggested limit
  exact Prod.ext (hcapped htoken) (hcapped hcost)

end GovernanceConfig

/-! ## The decision -/

/-- The journal takes writes: it is open, its file turns out writable and the
next write gets through. -/
def Ledger.Healthy (ledger : Ledger) : Prop :=
  ledger.state = .healthy ∧ ledger.probes.head? ≠ some true ∧ ledger.faults.head? ≠ some true

theorem Ledger.Healthy.health {ledger : Ledger} (h : ledger.Healthy) :
    ledger.health.2 = true ∧ ledger.health.1.state = .healthy ∧
      ledger.health.1.faults = ledger.faults := by
  obtain ⟨hstate, hprobes, -⟩ := h
  cases hlist : ledger.probes with
  | nil => simp [Ledger.health, hstate, hlist]
  | cons unwritable probes =>
    rw [hlist] at hprobes
    cases unwritable with
    | false => simp [Ledger.health, hstate, hlist]
    | true => exact absurd rfl hprobes

theorem Ledger.append_of_open {ledger : Ledger} (hstate : ledger.state = .healthy)
    (hfaults : ledger.faults.head? ≠ some true) (entry : Entry) : (ledger.append entry).2 = true := by
  rw [Ledger.append, hstate]
  cases hlist : ledger.faults with
  | nil => rfl
  | cons fault faults =>
    rw [hlist] at hfaults
    cases fault with
    | false => rfl
    | true => exact absurd rfl hfaults

/-- The number fits a word. -/
def FitsWord (value : Int) : Prop := -2 ^ 63 ≤ value ∧ value < 2 ^ 63

instance (value : Int) : Decidable (FitsWord value) := inferInstanceAs (Decidable (_ ∧ _))

namespace Manager

variable {m : Manager} {admission : AdmissionContext} {window : Int} {key : String}

/-- The sums a check of the key compares with its limits do not overflow. -/
structure Fits (m : Manager) (window : Int) (admission : AdmissionContext) (key : String) :
    Prop where
  tokens : FitsWord ((m.windows.get key window).tokens.toInt +
    (m.windows.get key window).reservedTokens.toInt)
  allTokens : FitsWord ((m.windows.get key window).tokens.toInt +
    (m.windows.get key window).reservedTokens.toInt + (m.referenceAmounts admission).1)
  cost : FitsWord ((m.windows.get key window).costMicros.toInt +
    (m.windows.get key window).reservedCostMicros.toInt)
  allCost : FitsWord ((m.windows.get key window).costMicros.toInt +
    (m.windows.get key window).reservedCostMicros.toInt + (m.referenceAmounts admission).2)

theorem toInt_sum {recorded reserved amount : Int64} {more : Int} (hamount : amount.toInt = more)
    (hfits : FitsWord (recorded.toInt + reserved.toInt))
    (hall : FitsWord (recorded.toInt + reserved.toInt + more)) :
    (recorded + reserved + amount).toInt = recorded.toInt + reserved.toInt + more := by
  have hsum := toInt_add_of_fits hfits.1 hfits.2
  rw [← hamount, ← hsum] at hall ⊢
  exact toInt_add_of_fits hall.1 hall.2

theorem admits_toInt {limit value : Int64} {sum : Int} (h : value.toInt = sum) :
    (limit > 0 → value ≤ limit) ↔ Admits limit.toInt sum := by
  rw [Admits, pos_iff, Int64.le_iff_toInt_le, h]

/-- The manager's check of a key is that its merged limits hold. -/
theorem limitReason_none_iff (hfits : m.Fits window admission key) {amounts : Int64 × Int64}
    (hamounts : (amounts.1.toInt, amounts.2.toInt) = m.referenceAmounts admission) :
    m.limitReason window amounts.1 amounts.2 1 none key = none ↔
      (m.config.budgetForKey key).Holds (m.windows.get key window) (m.activeForBudget key)
        (m.referenceAmounts admission) := by
  have htoken := toInt_sum (congrArg Prod.fst hamounts) hfits.tokens hfits.allTokens
  have hmicros := toInt_sum (congrArg Prod.snd hamounts) hfits.cost hfits.allCost
  rw [limitReason, BudgetLimits.refusal_eq_none]
  constructor
  · intro h
    exact ⟨h.unknown, h.concurrent, h.rate, (admits_toInt htoken).mp h.token,
      (admits_toInt hmicros).mp h.cost⟩
  · intro h
    exact ⟨h.unknown, h.concurrent, h.rate, (admits_toInt htoken).mpr h.token,
      (admits_toInt hmicros).mpr h.cost⟩

/-- What `decisionLocked` answers in enforce mode over a ledger that takes
writes: it allows what no key refuses, and the ledger takes the next write. -/
theorem decisionFor_of_healthy (principal model : String) (window : Int) (keys : List String)
    (henforce : m.enforcing = true) (hledger : ∀ ledger ∈ m.ledger, ledger.Healthy) :
    let amounts := m.reservationAmountsForKeys model keys
    let decided := m.decisionFor principal model window keys
    (decided.2.allowed = true ↔
        ∀ key ∈ keys, m.limitReason window amounts.1 amounts.2 1 none key = none) ∧
      (decided.2.reservedTokens, decided.2.reservedCostMicros) = amounts ∧
      decided.1.enforcing = true ∧
      ∀ clk id event, (decided.1.append clk id event).2 = true := by
  intro amounts decided
  have hquiet := m.quiet_ledgerUnhealthy
  have hprobe : m.ledgerUnhealthy.2 = false ∧
      ∀ ledger ∈ m.ledgerUnhealthy.1.ledger,
        ledger.state = .healthy ∧ ledger.faults.head? ≠ some true := by
    rw [ledgerUnhealthy]
    split
    · next hnone =>
      refine ⟨rfl, fun ledger hin => ?_⟩
      rw [hnone] at hin
      cases hin
    · next ledger hsome =>
      obtain ⟨hok, hstate, hfaults⟩ := (hledger ledger hsome).health
      refine ⟨?_, fun ledger' hin => ?_⟩
      · show (!ledger.health.2) = false
        rw [hok]
        rfl
      · obtain rfl := Option.some.inj hin
        exact ⟨hstate, hfaults ▸ (hledger ledger hsome).2.2⟩
  obtain ⟨hhealthy, hopen⟩ := hprobe
  have hdecided : decided = (m.ledgerUnhealthy.1, m.ledgerUnhealthy.1.evaluateDecisionLimits
      (m.openDecision principal model window (m.activeForBudget (keys.headD "")) amounts)
      window keys amounts.1 amounts.2 1 none) := by
    simp only [decided, decisionFor, if_pos henforce, hhealthy]
    rfl
  have henforcing : m.ledgerUnhealthy.1.enforcing = true := hquiet.enforcing.trans henforce
  obtain ⟨hallowed, htokens, hcost⟩ := m.ledgerUnhealthy.1.evaluateDecisionLimits_spec
    (m.openDecision principal model window (m.activeForBudget (keys.headD "")) amounts)
    window keys amounts.1 amounts.2 1 none
  rw [hdecided]
  refine ⟨?_, Prod.ext htokens hcost, henforcing, fun clk id event => ?_⟩
  · rw [hallowed]
    constructor
    · intro h key hkey
      rw [← limitReason_congr hquiet]
      exact h.2 henforcing key hkey
    · intro h
      refine ⟨rfl, fun _ key hkey => ?_⟩
      rw [limitReason_congr hquiet]
      exact h key hkey
  · rw [append]
    split
    · rfl
    · next ledger hsome =>
      obtain ⟨hstate, hfaults⟩ := hopen ledger hsome
      exact Ledger.append_of_open hstate hfaults _

/-- No key refuses exactly when each limit of the reference holds. -/
theorem limits_iff_eachHolds (hprincipal : admission.principal ≠ "")
    (hfits : ∀ limit ∈ m.config.applied admission, m.Fits window admission limit.1)
    {amounts : Int64 × Int64}
    (hamounts : (amounts.1.toInt, amounts.2.toInt) = m.referenceAmounts admission) :
    (∀ key ∈ m.config.budgetKeys admission admission.principal admission.model,
        m.limitReason window amounts.1 amounts.2 1 none key = none) ↔
      m.EachHolds window admission := by
  have hkeys := @GovernanceConfig.forall_budgetKeys_iff m.config admission _
    (fun key => GovernanceConfig.splits_holds (m.windows.get key window) (m.activeForBudget key)
      (m.referenceAmounts admission)) hprincipal
  rw [EachHolds, ← hkeys]
  refine forall₂_congr fun key hkey => ?_
  obtain ⟨limit, hlimit, rfl⟩ := GovernanceConfig.mem_budgetKeys.mp hkey
  exact limitReason_none_iff (hfits limit hlimit) hamounts

/-- An admission that only the limits can refuse: the manager enforces them over
a ledger that takes writes, the identifier is a fresh one, the tenant is given
where it is asked for, and no sum overflows. -/
structure Ready (m : Manager) (clk : Clock) (id : String) (admission : AdmissionContext) :
    Prop where
  enforces : m.config.mode = .enforce
  ledger : ∀ ledger ∈ m.ledger, ledger.Healthy
  named : trimSpace id ≠ "" ∧ (trimSpace id).utf8ByteSize ≤ 128
  fresh : m.reservations.get? (trimSpace id) = none
  tenant : m.config.tenantContextRequired = true → admission.normalized.tenant ≠ ""
  fits : ∀ limit ∈ m.config.applied admission.normalized,
    m.Fits clk.window admission.normalized limit.1

/-- The admission is granted exactly when each limit holds, and the decision
reserves what the reference does. -/
theorem Ready.admitted {clk : Clock} {id : String} (h : m.Ready clk id admission) :
    let answer := m.admitWithContext clk false id admission
    (answer.2.2 = none ↔ m.EachHolds clk.window admission.normalized) ∧
      (answer.2.1.reservedTokens.toInt, answer.2.1.reservedCostMicros.toInt) =
        m.referenceAmounts admission.normalized := by
  intro answer
  have henforcing : m.enforcing = true := by
    rw [enforcing, h.enforces]
    rfl
  have hprincipal := admission.principal_normalized
  have hanswer : answer = m.admitNormalized clk (trimSpace id) admission.normalized := by
    simp only [answer, admitWithContext, Bool.false_eq_true, if_false]
    rw [if_neg]
    rintro (hempty | hlong)
    · exact h.named.1 hempty
    · exact absurd h.named.2 (Nat.not_le.mpr hlong)
  rw [hanswer]
  generalize hnormal : admission.normalized = normal at hprincipal ⊢
  have htenant : ¬(m.enforcing = true ∧ m.config.tenantContextRequired = true ∧
      normal.tenant = "") := by
    rintro ⟨-, hrequired, hempty⟩
    exact h.tenant hrequired (hnormal ▸ hempty)
  have hfresh : ¬(m.reservations.get? (trimSpace id)).isSome = true := by
    rw [h.fresh]
    simp
  have hreserved := @GovernanceConfig.reservationAmounts_eq m.config normal hprincipal (m.estimates normal.model)
  have hholds := limits_iff_eachHolds hprincipal (hnormal ▸ h.fits) hreserved
  obtain ⟨hallowed, hamounts, hstill, happends⟩ := m.decisionFor_of_healthy normal.principal
    normal.model clk.window (m.config.budgetKeys normal normal.principal normal.model) henforcing
    h.ledger
  have hreference {decision : Decision}
      (htokens : decision.reservedTokens = (m.reservationAmountsForKeys normal.model
        (m.config.budgetKeys normal normal.principal normal.model)).1)
      (hcost : decision.reservedCostMicros = (m.reservationAmountsForKeys normal.model
        (m.config.budgetKeys normal normal.principal normal.model)).2) :
      (decision.reservedTokens.toInt, decision.reservedCostMicros.toInt) =
        m.referenceAmounts normal := by
    rw [htokens, hcost]
    exact hreserved
  have htokens := congrArg Prod.fst hamounts
  have hcost := congrArg Prod.snd hamounts
  simp only [admitNormalized, if_neg htenant, if_neg hfresh]
  rcases hdecided : m.decisionFor normal.principal normal.model clk.window
    (m.config.budgetKeys normal normal.principal normal.model) with ⟨m₁, decision⟩
  rw [hdecided] at hallowed hstill happends htokens hcost
  dsimp only at hallowed hstill happends htokens hcost ⊢
  split
  · next hyes =>
    rcases happended : m₁.append clk (trimSpace id) (.reserved (reservedEvent clk normal
      (decision.reservedTokens, decision.reservedCostMicros)
      (m.config.budgetKeys normal normal.principal normal.model))) with ⟨m₂, ok⟩
    have hok := happends clk (trimSpace id) (.reserved (reservedEvent clk normal
      (decision.reservedTokens, decision.reservedCostMicros)
      (m.config.budgetKeys normal normal.principal normal.model)))
    rw [happended] at hok
    obtain rfl : ok = true := hok
    exact ⟨iff_of_true rfl (hholds.mp (hallowed.mp hyes)), hreference htokens hcost⟩
  · next hno =>
    refine ⟨iff_of_false nofun fun heach => ?_, hreference htokens hcost⟩
    exact hno (hallowed.mpr (hholds.mpr heach))

end Manager

/-! ## Other lists of budgets -/

/-- Whatever a limit of these asks for, some limit of the list asks for at least
as much of the same key. -/
structure Covered (limits : List (String × BudgetLimits)) (limit : String × BudgetLimits) :
    Prop where
  unknown : limit.2.unknownUsageDeny = true →
    ∃ other ∈ limits, other.1 = limit.1 ∧ other.2.unknownUsageDeny = true
  concurrent : 0 < limit.2.maxConcurrent →
    ∃ other ∈ limits, other.1 = limit.1 ∧ 0 < other.2.maxConcurrent ∧
      other.2.maxConcurrent ≤ limit.2.maxConcurrent
  rate : 0 < limit.2.requestsPerMinute →
    ∃ other ∈ limits, other.1 = limit.1 ∧ 0 < other.2.requestsPerMinute ∧
      other.2.requestsPerMinute ≤ limit.2.requestsPerMinute
  token : 0 < limit.2.tokenLimit.toInt →
    ∃ other ∈ limits, other.1 = limit.1 ∧ 0 < other.2.tokenLimit.toInt ∧
      other.2.tokenLimit.toInt ≤ limit.2.tokenLimit.toInt
  cost : 0 < limit.2.costLimitMicros.toInt →
    ∃ other ∈ limits, other.1 = limit.1 ∧ 0 < other.2.costLimitMicros.toInt ∧
      other.2.costLimitMicros.toInt ≤ limit.2.costLimitMicros.toInt

theorem Covered.of_mem {limits : List (String × BudgetLimits)} {limit : String × BudgetLimits}
    (h : limit ∈ limits) : Covered limits limit where
  unknown hset := ⟨limit, h, rfl, hset⟩
  concurrent hset := ⟨limit, h, rfl, hset, Nat.le_refl _⟩
  rate hset := ⟨limit, h, rfl, hset, Nat.le_refl _⟩
  token hset := ⟨limit, h, rfl, hset, Int.le_refl _⟩
  cost hset := ⟨limit, h, rfl, hset, Int.le_refl _⟩

namespace GovernanceConfig

def withBudgets (cfg : GovernanceConfig) (budgets : List GovernanceBudgetConfig) :
    GovernanceConfig := { cfg with budgets := budgets }

/-- The budget changes nothing for the admission: it does not apply, or others
cover its limits. -/
def Redundant (cfg : GovernanceConfig) (admission : AdmissionContext)
    (budget : GovernanceBudgetConfig) : Prop :=
  applies admission budget = true →
    Covered (cfg.applied admission)
      (budget.scope.key (valueOf admission budget), cfg.budgetLimits budget)

/-- The same budgets in any order and number, and redundant ones. -/
structure Rearranges (cfg : GovernanceConfig) (admission : AdmissionContext)
    (budgets : List GovernanceBudgetConfig) : Prop where
  keeps : ∀ budget ∈ cfg.budgets, budget ∈ budgets
  adds : ∀ budget ∈ budgets, budget ∈ cfg.budgets ∨ cfg.Redundant admission budget

variable {cfg : GovernanceConfig} {admission : AdmissionContext}
  {budgets : List GovernanceBudgetConfig}

theorem Rearranges.mem_applied (h : cfg.Rearranges admission budgets)
    {limit : String × BudgetLimits} (hlimit : limit ∈ cfg.applied admission) :
    limit ∈ (cfg.withBudgets budgets).applied admission := by
  rcases GovernanceConfig.mem_applied.mp hlimit with rfl | ⟨budget, hbudget, happlies, rfl⟩
  · exact GovernanceConfig.mem_applied.mpr (.inl rfl)
  · exact GovernanceConfig.mem_applied.mpr (.inr ⟨budget, h.keeps budget hbudget, happlies, rfl⟩)

theorem Rearranges.covered (h : cfg.Rearranges admission budgets) {limit : String × BudgetLimits}
    (hlimit : limit ∈ (cfg.withBudgets budgets).applied admission) :
    Covered (cfg.applied admission) limit := by
  rcases GovernanceConfig.mem_applied.mp hlimit with rfl | ⟨budget, hbudget, happlies, rfl⟩
  · exact .of_mem (GovernanceConfig.mem_applied.mpr (.inl rfl))
  · rcases h.adds budget hbudget with hold | hredundant
    · exact .of_mem (GovernanceConfig.mem_applied.mpr (.inr ⟨budget, hold, happlies, rfl⟩))
    · exact hredundant happlies

/-- A figure that others cover has the same strictest value. -/
theorem Rearranges.strictest_eq (h : cfg.Rearranges admission budgets) (figure : BudgetLimits → Int)
    (hnonneg : ∀ limits : BudgetLimits, limits.Nonneg → 0 ≤ figure limits)
    (hcovered : ∀ limit, Covered (cfg.applied admission) limit → 0 < figure limit.2 →
      ∃ other ∈ cfg.applied admission, other.1 = limit.1 ∧ 0 < figure other.2 ∧
        figure other.2 ≤ figure limit.2) :
    strictest ((((cfg.withBudgets budgets).applied admission).map Prod.snd).map figure) =
      strictest (((cfg.applied admission).map Prod.snd).map figure) := by
  have hall (cfg' : GovernanceConfig) :
      ∀ value ∈ ((cfg'.applied admission).map Prod.snd).map figure, 0 ≤ value := by
    rw [List.forall_mem_map, List.forall_mem_map]
    exact fun limit hlimit => hnonneg limit.2 (nonneg_of_applied hlimit)
  refine eq_of_admits (strictest_nonneg (hall _)) (strictest_nonneg (hall _)) fun value => ?_
  rw [admits_strictest (hall _), admits_strictest (hall _)]
  simp only [List.forall_mem_map]
  constructor
  · exact fun hmore limit hlimit => hmore limit (h.mem_applied hlimit)
  · intro hfewer limit hlimit hset
    obtain ⟨other, hother, -, hpos, hle⟩ := hcovered limit (h.covered hlimit) hset
    exact Int.le_trans (hfewer other hother hpos) hle

theorem Rearranges.reservedFor_eq (h : cfg.Rearranges admission budgets)
    (estimate : ReservationEstimate) :
    (cfg.withBudgets budgets).reservedFor estimate admission = cfg.reservedFor estimate admission := by
  have htoken := h.strictest_eq (fun limits => limits.tokenLimit.toInt)
    (fun _ hlimits => hlimits.1) fun limit hlimit => hlimit.token
  have hcost := h.strictest_eq (fun limits => limits.costLimitMicros.toInt)
    (fun _ hlimits => hlimits.2) fun limit hlimit => hlimit.cost
  have hcapped {suggested : Int64} {limits limits' : List Int64}
      (hsame : strictest (limits.map Int64.toInt) = strictest (limits'.map Int64.toInt)) :
      capped suggested limits = capped suggested limits' := by
    simp only [capped, hsame]
  refine Prod.ext (hcapped ?_) (hcapped ?_)
  · rw [List.map_map (g := Int64.toInt), List.map_map (g := Int64.toInt)]
    exact htoken
  · rw [List.map_map (g := Int64.toInt), List.map_map (g := Int64.toInt)]
    exact hcost

end GovernanceConfig

theorem BudgetLimits.Holds.of_covered {limits : List (String × BudgetLimits)}
    {limit : String × BudgetLimits} (hcovered : Covered limits limit) {state : UsageState}
    {active : Nat} {reserved : Int × Int}
    (h : ∀ other ∈ limits, other.1 = limit.1 → other.2.Holds state active reserved) :
    limit.2.Holds state active reserved := by
  refine ⟨fun hset => ?_, fun hset => ?_, fun hset => ?_, fun hset => ?_, fun hset => ?_⟩
  · obtain ⟨other, hother, hkey, hsame⟩ := hcovered.unknown hset
    exact (h other hother hkey).unknown hsame
  · obtain ⟨other, hother, hkey, hpos, hle⟩ := hcovered.concurrent hset
    exact Nat.le_trans ((h other hother hkey).concurrent hpos) hle
  · obtain ⟨other, hother, hkey, hpos, hle⟩ := hcovered.rate hset
    exact Nat.le_trans ((h other hother hkey).rate hpos) hle
  · obtain ⟨other, hother, hkey, hpos, hle⟩ := hcovered.token hset
    exact Int.le_trans ((h other hother hkey).token hpos) hle
  · obtain ⟨other, hother, hkey, hpos, hle⟩ := hcovered.cost hset
    exact Int.le_trans ((h other hother hkey).cost hpos) hle

namespace Manager

/-- The manager under another list of budgets. -/
def withBudgets (m : Manager) (budgets : List GovernanceBudgetConfig) : Manager :=
  { m with config := m.config.withBudgets budgets }

variable {m : Manager} {admission : AdmissionContext} {budgets : List GovernanceBudgetConfig}

theorem referenceAmounts_withBudgets (h : m.config.Rearranges admission budgets) :
    (m.withBudgets budgets).referenceAmounts admission = m.referenceAmounts admission :=
  h.reservedFor_eq (m.estimates admission.model)

theorem eachHolds_withBudgets (h : m.config.Rearranges admission budgets) (window : Int) :
    (m.withBudgets budgets).EachHolds window admission ↔ m.EachHolds window admission := by
  rw [EachHolds, EachHolds, referenceAmounts_withBudgets h]
  constructor
  · exact fun hmore limit hlimit => hmore limit (h.mem_applied hlimit)
  · intro hfewer limit hlimit
    refine BudgetLimits.Holds.of_covered (h.covered hlimit) fun other hother hkey => ?_
    rw [← hkey]
    exact hfewer other hother

/-- **Admission against its reference.** In enforce mode, over a ledger that takes
writes, an admission that is in order succeeds exactly when each limit it comes
under holds on its own key: the global ones on the principal's, and those of each
budget that applies on the budget's. It reserves what the strictest of these
limits leave of the suggested amounts. So another order of the budgets, a budget
listed twice or a redundant one changes neither. -/
theorem admission_exact {clk : Clock} {id : String} (h : m.Ready clk id admission) :
    let answer := m.admitWithContext clk false id admission
    (answer.2.2 = none ↔ m.EachHolds clk.window admission.normalized) ∧
      (answer.2.1.reservedTokens.toInt, answer.2.1.reservedCostMicros.toInt) =
        m.referenceAmounts admission.normalized ∧
      ∀ budgets : List GovernanceBudgetConfig,
        m.config.Rearranges admission.normalized budgets →
        (m.withBudgets budgets).Ready clk id admission →
        let answer' := (m.withBudgets budgets).admitWithContext clk false id admission
        (answer'.2.2 = none ↔ answer.2.2 = none) ∧
          answer'.2.1.reservedTokens = answer.2.1.reservedTokens ∧
          answer'.2.1.reservedCostMicros = answer.2.1.reservedCostMicros := by
  intro answer
  obtain ⟨houtcome, hamounts⟩ := h.admitted
  refine ⟨houtcome, hamounts, fun budgets hrearranges hready => ?_⟩
  intro answer'
  obtain ⟨houtcome', hamounts'⟩ := hready.admitted
  rw [referenceAmounts_withBudgets hrearranges, ← hamounts] at hamounts'
  obtain ⟨htokens, hcost⟩ := Prod.mk.inj hamounts'
  refine ⟨?_, Int64.toInt_inj.mp htokens, Int64.toInt_inj.mp hcost⟩
  rw [houtcome', houtcome]
  exact eachHolds_withBudgets hrearranges clk.window

/-- A wildcard and an exact budget for one tenant. -/
def acme : Manager where
  config :=
    { mode := .enforce
      tokenReservation := 4
      budgets :=
        [{ scope := .tenant, key := "acme-*", tokenLimit := 8 },
          { scope := .tenant, key := "acme-prod", tokenLimit := 5 }] }

/-- The same budgets the other way round, with one that asks for less. -/
def acmeTurned : List GovernanceBudgetConfig :=
  [{ scope := .tenant, key := "*", tokenLimit := 10 },
    { scope := .tenant, key := "acme-prod", tokenLimit := 5 },
    { scope := .tenant, key := "acme-*", tokenLimit := 8 }]

/-- A request of that tenant. -/
def prod : AdmissionContext where
  principal := "p1"
  tenant := "acme-prod"
  model := "m"

theorem acme_ready (budgets : List GovernanceBudgetConfig)
    (hamounts : (acme.withBudgets budgets).referenceAmounts prod.normalized = (4, 0)) :
    (acme.withBudgets budgets).Ready { now := minute, stamp := 0 } "r1" prod where
  enforces := rfl
  ledger := nofun
  named := by decide +kernel
  fresh := rfl
  tenant _ := by decide +kernel
  fits limit _ := by
    have hempty : ((acme.withBudgets budgets).windows.get limit.1
      ({ now := minute, stamp := 0 } : Clock).window) = {} := rfl
    constructor
    · rw [hempty]
      decide
    · rw [hempty, hamounts]
      decide
    · rw [hempty]
      decide
    · rw [hempty, hamounts]
      decide

theorem acmeTurned_rearranges : acme.config.Rearranges prod.normalized acmeTurned where
  keeps budget hbudget := by
    simp only [acme, List.mem_cons, List.not_mem_nil, or_false] at hbudget
    rcases hbudget with rfl | rfl
    · exact .tail _ (.tail _ (.head _))
    · exact .tail _ (.head _)
  adds budget hbudget := by
    simp only [acmeTurned, List.mem_cons, List.not_mem_nil, or_false] at hbudget
    rcases hbudget with rfl | rfl | rfl
    · right
      intro _
      have hexact : (Scope.tenant.key "acme-prod", { tokenLimit := 5 }) ∈
          acme.config.applied prod.normalized := by decide +kernel
      refine ⟨nofun, nofun, nofun, fun _ => ?_, fun hset => ?_⟩
      · exact ⟨_, hexact, by decide +kernel, by decide, by decide⟩
      · exact absurd hset (by decide)
    · exact .inl (.tail _ (.head _))
    · exact .inl (.head _)

/-- The admission fits under both budgets, in either order. -/
theorem admission_exact_acme :
    let clk : Clock := { now := minute, stamp := 0 }
    let answer := acme.admitWithContext clk false "r1" prod
    let answer' := (acme.withBudgets acmeTurned).admitWithContext clk false "r1" prod
    (answer.2.2 = none ↔ acme.EachHolds clk.window prod.normalized) ∧
      (answer'.2.2 = none ↔ answer.2.2 = none) ∧
      answer'.2.1.reservedTokens = answer.2.1.reservedTokens ∧
      answer.2.2 = none ∧ answer.2.1.reservedTokens = 4 := by
  have hready : acme.Ready { now := minute, stamp := 0 } "r1" prod :=
    acme_ready acme.config.budgets (by decide +kernel)
  obtain ⟨houtcome, -, hbudgets⟩ := admission_exact hready
  obtain ⟨hsame, htokens, -⟩ := hbudgets acmeTurned acmeTurned_rearranges
    (acme_ready acmeTurned (by decide +kernel))
  exact ⟨houtcome, hsame, htokens, by decide +kernel, by decide +kernel⟩

end Manager

end RelayLifeline.Governance
