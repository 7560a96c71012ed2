import RelayLifeline.Proxy.RetryDelay

/-!
# Retry delays stay in range

The delays in words are the delays in integers: a validated policy and a
validated configuration leave no room for a word to wrap around. A drawn delay
lies between the bounds it is drawn from, the doubling delay is the least of the
power and the maximum, and a `Retry-After` header only ever raises a delay. What
`awaitRetry` waits is not negative and ends within both windows.
-/

namespace RelayLifeline.Proxy

open Lib

/-! ## In integers -/

/-- The doubling loop computes the least of the power and the maximum. -/
theorem exponentialDelay_eq {base maximum : Int} (h : 0 ≤ base) (i : Nat) :
    exponentialDelay base maximum i = min (base * 2 ^ i) maximum := by
  induction i generalizing base with
  | zero => simp [exponentialDelay]
  | succ i ih =>
      have hpower : (0 : Int) < 2 ^ i := Int.pow_pos (by decide)
      have hpow : base * 2 ^ (i + 1) = base * 2 * 2 ^ i := by ring
      have hgrows : base * 2 ≤ base * 2 * 2 ^ i := by
        simpa using Int.mul_le_mul_of_nonneg_left (show (1 : Int) ≤ 2 ^ i by omega)
          (show 0 ≤ base * 2 by omega)
      rw [exponentialDelay, hpow]
      split
      · split
        · omega
        · exact ih (by omega)
      · omega

theorem randomDelay_bounds (random : Nat) {minimum maximum : Int} (h : minimum ≤ maximum) :
    minimum ≤ randomDelay random minimum maximum ∧
      randomDelay random minimum maximum ≤ maximum := by
  simp only [randomDelay]
  split
  · omega
  · have hlo := Int.emod_nonneg random (show maximum - minimum + 1 ≠ 0 by omega)
    have hhi := Int.emod_lt_of_pos random (show 0 < maximum - minimum + 1 by omega)
    omega

namespace Words

/-! ## In words -/

theorem toInt_exponentialDelay {base maximum : Int64} (h : 0 ≤ base.toInt) (i : Nat) :
    (exponentialDelay base maximum i).toInt =
      Proxy.exponentialDelay base.toInt maximum.toInt i := by
  induction i generalizing base with
  | zero => exact Word.toInt_min base maximum
  | succ i ih =>
      rw [exponentialDelay, Proxy.exponentialDelay]
      simp only [Int64.lt_iff_toInt_lt]
      split
      · next hless =>
          rw [Word.toInt_half (by omega)]
          split
          · rfl
          · next hhalf =>
              have htop := Word.toInt_le_top maximum
              have hdouble : (base * 2).toInt = base.toInt * 2 := by
                refine Word.toInt_mul_of_fits ?_ ?_
                · show -2 ^ 63 ≤ base.toInt * 2
                  omega
                · show base.toInt * 2 < 2 ^ 63
                  simp only [Word.top] at htop
                  omega
              rw [ih (by omega), hdouble]
      · exact Word.toInt_min base maximum

theorem int63n_of_pos (random : Nat) {n : Int64} (h : 0 < n.toInt) :
    ∃ drawn, int63n random n = some drawn ∧ drawn.toInt = random % n.toInt := by
  have hpos : ¬n ≤ 0 := by
    rw [Int64.le_iff_toInt_le]
    show ¬n.toInt ≤ 0
    omega
  have hlt : random % n.toInt.toNat < n.toInt.toNat := Nat.mod_lt _ (by omega)
  have htop := Word.toInt_le_top n
  refine ⟨_, if_neg hpos, ?_⟩
  rw [Int64.toInt_ofNat_of_lt (by simp only [Word.top] at htop; omega), Int.natCast_mod,
    Int.toNat_of_nonneg h.le]

/-- A draw above a positive minimum is the draw in integers. -/
theorem randomDelay_of_pos (random : Nat) {minimum : Int64} (maximum : Int64)
    (h : 0 < minimum.toInt) :
    ∃ delay, randomDelay random minimum maximum = some delay ∧
      delay.toInt = Proxy.randomDelay random minimum.toInt maximum.toInt := by
  simp only [randomDelay, Proxy.randomDelay, Int64.le_iff_toInt_le]
  split
  · exact ⟨minimum, rfl, rfl⟩
  · next hless =>
      have htop := Word.toInt_le_top maximum
      simp only [Word.top] at htop
      have hwidth : (maximum - minimum).toInt = maximum.toInt - minimum.toInt :=
        Word.toInt_sub_of_fits (by omega) (by omega)
      have hrange : (maximum - minimum + 1).toInt = maximum.toInt - minimum.toInt + 1 := by
        rw [Word.toInt_add_of_fits] <;> rw [hwidth, show (1 : Int64).toInt = 1 from rfl] <;> omega
      obtain ⟨drawn, hdrawn, hvalue⟩ := int63n_of_pos random (show 0 < _ by rw [hrange]; omega)
      refine ⟨minimum + drawn, by rw [hdrawn]; rfl, ?_⟩
      rw [hrange] at hvalue
      have hlo := Int.emod_nonneg random (show maximum.toInt - minimum.toInt + 1 ≠ 0 by omega)
      have hhi := Int.emod_lt_of_pos random (show 0 < maximum.toInt - minimum.toInt + 1 by omega)
      rw [Word.toInt_add_of_fits (by omega) (by omega), hvalue]

theorem randomDelay_between (random : Nat) {minimum maximum : Int64} (h : 0 < minimum.toInt)
    (hle : minimum.toInt ≤ maximum.toInt) :
    ∃ delay, randomDelay random minimum maximum = some delay ∧
      minimum.toInt ≤ delay.toInt ∧ delay.toInt ≤ maximum.toInt := by
  obtain ⟨delay, hdelay, hvalue⟩ := randomDelay_of_pos random maximum h
  refine ⟨delay, hdelay, ?_⟩
  rw [hvalue]
  exact randomDelay_bounds random hle

/-! ### The header -/

theorem capRetryAfter_le {cap : Int64} (value : Int64) (h : 0 < cap) :
    (capRetryAfter value [cap]).toInt ≤ cap.toInt := by
  simp only [capRetryAfter]
  split
  · exact Int.le_refl _
  · next hless =>
      have := mt Int64.lt_iff_toInt_lt.2 fun hlt => hless ⟨h, hlt⟩
      omega

/-- A header never asks for more than a positive cap. -/
theorem retryAfter_le_cap (parsers : Parsers) (now : Int) (header : Option String) {cap : Int64}
    (h : 0 < cap) : (retryAfter parsers now header [cap]).toInt ≤ cap.toInt := by
  have hzero : (0 : Int64).toInt ≤ cap.toInt := (Int64.lt_iff_toInt_lt.1 h).le
  cases header with
  | none => exact hzero
  | some text =>
      simp only [retryAfter]
      split
      · exact hzero
      · split
        · exact capRetryAfter_le _ h
        · split
          · exact capRetryAfter_le _ h
          · exact hzero

/-! ### The schedule -/

/-- The least delay a schedule has. -/
def RetrySchedule.least (cfg : RetryConfig) (schedule : RetrySchedule) : Int64 :=
  match schedule.mode with
  | .immediate => 0
  | .fixed => schedule.interval
  | .random => schedule.minimum
  | .exponential => schedule.base
  | .inherit => cfg.minInterval

/-- The greatest delay a schedule has. -/
def RetrySchedule.greatest (cfg : RetryConfig) (schedule : RetrySchedule) : Int64 :=
  match schedule.mode with
  | .immediate => 0
  | .fixed => schedule.interval
  | .random => schedule.maximum
  | .exponential => schedule.maximum
  | .inherit => cfg.maxInterval

/-- The policy is one made from a validated specification, and activated. -/
def RetryPolicy.Validated (policy : RetryPolicy) : Prop :=
  ∃ spec appliedAt attempt now, RetryPolicySpec.validate spec = true ∧
    policy = (RetryPolicy.new spec appliedAt).activate attempt now

theorem RetryConfig.validate_iff {cfg : RetryConfig} : cfg.validate = true ↔
    0 < cfg.minInterval.toInt ∧ cfg.minInterval.toInt ≤ cfg.maxInterval.toInt ∧
      0 ≤ cfg.maxElapsed.toInt ∧ 0 ≤ cfg.retryAfterCap.toInt := by
  simp only [RetryConfig.validate, Bool.not_eq_true', decide_eq_false_iff_not, not_or,
    Int64.lt_iff_toInt_lt, Int64.le_iff_toInt_le, Int64.toInt_zero, Int.not_lt, Int.not_le]

theorem le_of_validPolicyInterval {interval duration : Int64}
    (h : validPolicyInterval interval duration = true) : 0 < interval.toInt := by
  simp only [validPolicyInterval, decide_eq_true_eq, Int64.le_iff_toInt_le] at h
  have := h.1
  rw [show minimumRetryPolicyDuration.toInt = 5000000000 by decide] at this
  omega

theorem scheduledDelay_between {cfg : RetryConfig} {policy : RetryPolicy} (random : Nat)
    (attempt : Int64) (hcfg : cfg.validate = true) (hpolicy : policy.Validated) :
    ∃ delay, scheduledDelay random policy cfg attempt = some delay ∧
      (policy.schedule.least cfg).toInt ≤ delay.toInt ∧
        delay.toInt ≤ (policy.schedule.greatest cfg).toInt ∧ 0 ≤ delay.toInt := by
  obtain ⟨hmin, hmax, -⟩ := RetryConfig.validate_iff.1 hcfg
  obtain ⟨spec, appliedAt, baseline, now, hspec, rfl⟩ := hpolicy
  simp only [RetryPolicySpec.validate] at hspec
  split_ifs at hspec
  simp only [scheduledDelay, RetrySchedule.least, RetrySchedule.greatest, RetryPolicy.activate,
    RetryPolicy.new]
  cases hmode : spec.schedule.mode with
  | immediate => exact ⟨0, rfl, Int.le_refl _, Int.le_refl _, Int.le_refl _⟩
  | fixed =>
      simp only [hmode] at hspec
      exact ⟨_, rfl, Int.le_refl _, Int.le_refl _, (le_of_validPolicyInterval hspec).le⟩
  | random =>
      simp only [hmode, Bool.not_eq_true', decide_eq_false_iff_not, not_or, Bool.not_eq_false,
        Int64.lt_iff_toInt_lt, Int.not_lt] at hspec
      have hpos := le_of_validPolicyInterval hspec.1
      obtain ⟨delay, hdelay, hlo, hhi⟩ := randomDelay_between random hpos hspec.2.1
      exact ⟨delay, hdelay, hlo, hhi, by omega⟩
  | exponential =>
      simp only [hmode, Bool.not_eq_true', decide_eq_false_iff_not, not_or, Bool.not_eq_false,
        Int64.lt_iff_toInt_lt, Int.not_lt] at hspec
      have hpos := le_of_validPolicyInterval hspec.1
      dsimp only
      generalize (max (attempt - baseline) 0).toInt.toNat = index
      have hvalue := @toInt_exponentialDelay _ spec.schedule.maximum hpos.le index
      rw [exponentialDelay_eq hpos.le] at hvalue
      have hpower : (0 : Int) < 2 ^ index := Int.pow_pos (by decide)
      have hgrows : spec.schedule.base.toInt ≤ spec.schedule.base.toInt * 2 ^ index := by
        simpa using Int.mul_le_mul_of_nonneg_left (show (1 : Int) ≤ 2 ^ index by omega) hpos.le
      generalize exponentialDelay spec.schedule.base spec.schedule.maximum index = doubled at hvalue
      have hhalf := Word.toInt_half (a := doubled) (by omega)
      have hfrom := Word.toInt_max spec.schedule.base (doubled / 2)
      rw [hhalf] at hfrom
      have hdoubled := hspec.2.1
      obtain ⟨delay, hdelay, hlo, hhi⟩ := randomDelay_between random
        (show 0 < (max spec.schedule.base (doubled / 2)).toInt by rw [hfrom]; omega)
        (show _ ≤ doubled.toInt by rw [hfrom]; omega)
      rw [hfrom] at hlo
      exact ⟨delay, hdelay, by omega, by omega, by omega⟩
  | inherit =>
      obtain ⟨delay, hdelay, hlo, hhi⟩ := randomDelay_between random hmin hmax
      exact ⟨delay, hdelay, hlo, hhi, by omega⟩

/-! ### The wait -/

variable {cfg : RetryConfig} {policy : RetryPolicy} {parsers : Parsers}

/-- The delay of a policy is the scheduled one, which the header may only raise. -/
theorem policyDelay_of_scheduled {random : Nat} {attempt : Int64} {delay : Int64}
    (h : scheduledDelay random policy cfg attempt = some delay) (now : Int)
    (header : Option String) :
    policyDelay parsers random now policy cfg header attempt =
      some (if policy.honorRetryAfter then
        max delay (retryAfter parsers now header [cfg.retryAfterCap]) else delay) := by
  simp only [policyDelay, h, Option.bind_eq_bind, Option.bind_some]
  split <;> rfl

theorem retryDelay_nonneg (parsers : Parsers) (random : Nat) (now : Int) (header : Option String)
    (hcfg : cfg.validate = true) :
    ∃ delay, retryDelay parsers random now cfg header = some delay ∧ 0 ≤ delay.toInt := by
  obtain ⟨hmin, hmax, -⟩ := RetryConfig.validate_iff.1 hcfg
  obtain ⟨delay, hdelay, hlo, -⟩ := randomDelay_between random hmin hmax
  simp only [retryDelay, hdelay, Option.bind_eq_bind, Option.bind_some]
  split
  · refine ⟨_, rfl, ?_⟩
    rw [Word.toInt_max]
    omega
  · exact ⟨_, rfl, by omega⟩

theorem toInt_sub (t u : Int) : (sub t u).toInt = max (-2 ^ 63) (min (2 ^ 63 - 1) (t - u)) :=
  Int64.toInt_ofInt_of_le (by omega) (by omega)

/-- What is left of the window of the configuration, where anything is. -/
theorem remaining_le {elapsed : Int64} {now started : Int} (h : 0 < elapsed.toInt)
    (hleft : 0 < (elapsed - sub now started).toInt) :
    (elapsed - sub now started).toInt ≤ elapsed.toInt - (now - started) := by
  have hsub := toInt_sub now started
  have htop := Word.toInt_le_top elapsed
  simp only [Word.top] at htop
  rw [Int64.toInt_sub] at hleft ⊢
  by_cases hfits : elapsed.toInt - (sub now started).toInt < 2 ^ 63
  · rw [Word.bmod_of_fits (by omega) hfits] at hleft ⊢
    omega
  · rw [Word.bmod_of_past_top (by omega) (by omega)] at hleft
    omega

/-- A capped delay is not negative and ends within the window. -/
theorem capElapsed_waits {started now : Int} {delay waited : Int64} (hdelay : 0 ≤ delay.toInt)
    (h : capElapsed cfg started now delay = .waits waited) :
    0 ≤ waited.toInt ∧ waited.toInt ≤ delay.toInt ∧
      (0 < cfg.maxElapsed.toInt → waited.toInt ≤ cfg.maxElapsed.toInt - (now - started)) := by
  simp only [capElapsed] at h
  split at h
  · next hlimited =>
      have hlimited : 0 < cfg.maxElapsed.toInt := Int64.lt_iff_toInt_lt.1 hlimited
      split at h
      · cases h
      · next hopen =>
          have hleft : 0 < (cfg.maxElapsed - sub now started).toInt := by
            have := mt Int64.le_iff_toInt_le.2 hopen
            simpa using this
          obtain rfl := Wait.waits.inj h
          have := remaining_le hlimited hleft
          rw [Word.toInt_min]
          omega
  · next hunlimited =>
      obtain rfl := Wait.waits.inj h
      have := mt Int64.lt_iff_toInt_lt.2 hunlimited
      refine ⟨hdelay, Int.le_refl _, fun hlimited => absurd hlimited ?_⟩
      simpa using this

/-- For a validated configuration and validated policies, whatever the response,
the attempt and the numbers drawn: the delay of a policy is at least the least
of its schedule, is not lowered by the header, and is at most the greatest of
its schedule or what a heeded header asks for, which is at most a positive cap;
the doubling loop is exact; and what is waited is not negative and ends within
both windows. -/
theorem delays_in_range (parsers : Parsers) (header : Option String) (attempt : Int64)
    (hcfg : cfg.validate = true) :
    (∀ policy : RetryPolicy, policy.Validated → ∀ random now, ∃ delay scheduled,
      policyDelay parsers random now policy cfg header attempt = some delay ∧
      policyDelay parsers random now { policy with honorRetryAfter := false } cfg header attempt =
        some scheduled ∧
      (policy.schedule.least cfg).toInt ≤ scheduled.toInt ∧ scheduled.toInt ≤ delay.toInt ∧
      delay.toInt ≤ (if policy.honorRetryAfter then
        max (policy.schedule.greatest cfg).toInt
          (retryAfter parsers now header [cfg.retryAfterCap]).toInt
        else (policy.schedule.greatest cfg).toInt)) ∧
    (∀ now, 0 < cfg.retryAfterCap →
      (retryAfter parsers now header [cfg.retryAfterCap]).toInt ≤ cfg.retryAfterCap.toInt) ∧
    (∀ base maximum : Int64, 0 ≤ base.toInt → ∀ i,
      (exponentialDelay base maximum i).toInt = min (base.toInt * 2 ^ i) maximum.toInt) ∧
    ∀ (policy : Option RetryPolicy) (turn : Turn) (started : Int),
      (∀ p ∈ policy, p.Validated) →
      ∃ wait, awaitDelay parsers turn cfg header attempt started policy = some wait ∧
        ∀ delay, wait = .waits delay → 0 ≤ delay.toInt ∧
          (∀ p ∈ policy, delay.toInt ≤ p.deadline - turn.deadline) ∧
          (0 < cfg.maxElapsed.toInt →
            delay.toInt ≤ cfg.maxElapsed.toInt - (turn.elapsed - started)) := by
  refine ⟨?_, fun now hcap => retryAfter_le_cap parsers now header hcap, ?_, ?_⟩
  · intro policy hpolicy random now
    obtain ⟨scheduled, hscheduled, hleast, hgreatest, -⟩ :=
      scheduledDelay_between random attempt hcfg hpolicy
    refine ⟨_, scheduled, policyDelay_of_scheduled hscheduled now header, ?_, hleast, ?_, ?_⟩
    · exact @policyDelay_of_scheduled cfg { policy with honorRetryAfter := false } parsers random
        attempt scheduled hscheduled now header
    · split
      · rw [Word.toInt_max]
        omega
      · exact Int.le_refl _
    · split
      · rw [Word.toInt_max]
        omega
      · exact hgreatest
  · intro base maximum hbase i
    rw [toInt_exponentialDelay hbase, exponentialDelay_eq hbase]
  · intro policy turn started hpolicy
    obtain ⟨configured, hconfigured, hnonneg⟩ :=
      retryDelay_nonneg parsers turn.draw turn.header header hcfg
    simp only [awaitDelay, hconfigured, Option.bind_eq_bind, Option.bind_some]
    cases policy with
    | none =>
        refine ⟨_, rfl, fun delay hdelay => ?_⟩
        obtain ⟨hnonneg, -, hwindow⟩ := capElapsed_waits hnonneg hdelay
        exact ⟨hnonneg, by simp, hwindow⟩
    | some policy =>
        obtain ⟨scheduled, hscheduled, -, -, hscheduledNonneg⟩ :=
          scheduledDelay_between turn.policyDraw attempt hcfg (hpolicy policy rfl)
        dsimp only
        rw [policyDelay_of_scheduled hscheduled turn.policyHeader header, Option.bind_some]
        split
        · exact ⟨_, rfl, by simp⟩
        · next hopen =>
            have hleft : 0 < (sub policy.deadline turn.deadline).toInt := by
              have := mt Int64.le_iff_toInt_le.2 hopen
              simpa using this
            have hremaining := toInt_sub policy.deadline turn.deadline
            refine ⟨_, rfl, fun delay hdelay => ?_⟩
            obtain ⟨hnonneg, hcapped, hwindow⟩ := capElapsed_waits (by
              rw [Word.toInt_min]
              split <;> first | rw [Word.toInt_max]; omega | omega) hdelay
            rw [Word.toInt_min] at hcapped
            refine ⟨hnonneg, ?_, hwindow⟩
            rintro _ ⟨rfl⟩
            omega

/-- A policy that doubles five seconds up to a minute, after its third attempt. -/
def doubling : RetryPolicy :=
  (RetryPolicy.new
    { duration := 600000000000
      schedule := { mode := .exponential, base := 5000000000, maximum := 60000000000 }
      honorRetryAfter := true } 0).activate 3 0

/-- A header that asks for ten minutes, with a cap of two. -/
theorem delays_in_range_doubling :
    ∃ delay, policyDelay ⟨fun text => if text = "600s" then some 600000000000 else none, fun _ => none⟩
        7 0 doubling { minInterval := 1, maxInterval := 1, retryAfterCap := 120000000000 }
        (some " 600 ") 5 = some delay ∧
      5000000000 ≤ delay.toInt ∧ delay.toInt ≤ 120000000000 := by
  obtain ⟨hpolicy, hcap, -⟩ := delays_in_range
    ⟨fun text => if text = "600s" then some 600000000000 else none, fun _ => none⟩ (some " 600 ") 5
    (show RetryConfig.validate { minInterval := 1, maxInterval := 1, retryAfterCap := 120000000000 } =
      true by decide)
  obtain ⟨delay, scheduled, hdelay, -, hleast, hraised, hgreatest⟩ :=
    hpolicy doubling ⟨_, _, _, _, by decide, rfl⟩ 7 0
  have hcap : _ ≤ (120000000000 : Int) := hcap 0 (by decide)
  rw [if_pos (by decide), show (RetrySchedule.greatest _ doubling.schedule).toInt = 60000000000 from
    rfl] at hgreatest
  rw [show (RetrySchedule.least _ doubling.schedule).toInt = 5000000000 from rfl] at hleast
  exact ⟨delay, hdelay, by omega, by omega⟩

end Words

end RelayLifeline.Proxy
