import RelayLifeline.Lib.Trace
import RelayLifeline.Lib.Word
import RelayLifeline.Policy.Shadow

/-!
# The budget of shadow traffic

The manager counts the leases of one hour only, that of the last request to
come. The hours before are over for good, since the clock does not go back, so
what was accepted in them stays within what the budget then allowed.
-/

namespace RelayLifeline.Policy

open Lib

variable {F : Type} [Float64 F] {u : Unicode}

namespace Manager

variable {m : Manager F}

/-- What shadow traffic is accepted by. -/
def shadowView (m : Manager F) : Shadow × Int × Int × Int × Int :=
  (m.config.shadow, m.shadowActive, m.shadowWindow, m.shadowWindowRequests,
    m.shadowWindowCostMicros)

omit [Float64 F] in
theorem shadowView_record (decision : Decision F) :
    (m.record decision).1.shadowView = m.shadowView := rfl

theorem shadowView_adaptiveTarget (cfg : Adaptive F) (input : Input F) (now : Int) :
    (m.adaptiveTarget cfg input now).1.shadowView = m.shadowView := by
  rw [adaptiveTarget]
  split
  · rfl
  · split
    · rfl
    · dsimp only
      split
      · rfl
      · split
        · rfl
        · rfl

theorem shadowView_decideAdaptive (input : Input F) (dryRun : Bool) (now : Int)
    (decision : Decision F) :
    (m.decideAdaptive input dryRun now decision).1.shadowView = m.shadowView := by
  have hview := shadowView_adaptiveTarget (m := m) m.config.adaptive input now
  rw [decideAdaptive]
  dsimp only
  split
  · split
    · exact hview
    · split
      · split
        · exact hview
        · exact hview
      · exact hview
  · rfl

theorem shadowView_evaluate (input : Input F) (dryRun : Bool) (now later : Int) :
    (m.evaluate u input dryRun now later).1.shadowView = m.shadowView := by
  rw [evaluate]
  split
  · rfl
  · rw [evaluateLocked]
    dsimp only
    split
    · rfl
    · rw [shadowView_record, shadowView_decideAdaptive]
      rfl

end Manager

namespace ShadowTraffic

/-- The leases are within the limits of the configuration, and the manager's
counters say so of those that are open and of those of its window. -/
structure Within (shadow : Shadow) (t : ShadowTraffic F) : Prop where
  config : t.manager.config.shadow = shadow
  active : t.manager.shadowActive = t.outstanding
  active_le : t.manager.shadowActive ≤ shadow.maxConcurrent
  past : ∀ lease ∈ t.leases, lease.window ≤ t.manager.shadowWindow
  opened : t.leases = [] ∨ t.manager.shadowWindow ≤ truncateHour t.clock
  requests : t.manager.shadowWindowRequests = t.accepted t.manager.shadowWindow
  cost : t.manager.shadowWindowCostMicros =
    t.accepted t.manager.shadowWindow * shadow.costReservationMicros
  budget : ∀ window, t.accepted window ≤ shadow.requestBudgetPerHour ∧
    t.accepted window * shadow.costReservationMicros ≤ shadow.costBudgetMicrosPerHour

variable {shadow : Shadow} {t : ShadowTraffic F}

omit [Float64 F] in
/-- A step that leaves alone what shadow traffic is accepted by. -/
theorem Within.frame (h : t.Within shadow) {m : Manager F} {clock : Int}
    (hclock : t.clock ≤ clock) (hview : m.shadowView = t.manager.shadowView) :
    ({ t with manager := m, clock := clock } : ShadowTraffic F).Within shadow := by
  simp only [Manager.shadowView, Prod.mk.injEq] at hview
  obtain ⟨hconfig, hactive, hwindow, hrequests, hcost⟩ := hview
  constructor
  · rw [hconfig]
    exact h.config
  · rw [hactive]
    exact h.active
  · rw [hactive]
    exact h.active_le
  · rw [hwindow]
    exact h.past
  · rw [hwindow]
    exact h.opened.imp_right fun hopened => hopened.trans (truncateHour_mono hclock)
  · rw [hrequests, hwindow]
    exact h.requests
  · rw [hcost, hwindow]
    exact h.cost
  · exact h.budget

omit [Float64 F] in
theorem accepted_of_past {window : Int} (h : ∀ lease ∈ t.leases, lease.window < window) :
    t.accepted window = 0 := by
  rw [accepted, List.countP_eq_zero]
  intro lease hlease
  simpa using (h lease hlease).ne

omit [Float64 F] in
/-- The window of the clock is opened. -/
theorem Within.openShadowWindow (h : t.Within shadow) :
    ({ t with manager := t.manager.openShadowWindow (truncateHour t.clock) } :
      ShadowTraffic F).Within shadow := by
  rw [Manager.openShadowWindow]
  split
  · exact h
  next hother =>
  have hpast : ∀ lease ∈ t.leases, lease.window < truncateHour t.clock := by
    intro lease hlease
    rcases h.opened with hnone | hopened
    · rw [hnone] at hlease
      cases hlease
    · have := h.past lease hlease
      omega
  have hnone : t.accepted (truncateHour t.clock) = 0 := accepted_of_past hpast
  constructor
  · exact h.config
  · exact h.active
  · exact h.active_le
  · intro lease hlease
    exact (hpast lease hlease).le
  · exact .inr le_rfl
  · show (0 : Int) = t.accepted (truncateHour t.clock)
    rw [hnone]
    rfl
  · show (0 : Int) = t.accepted (truncateHour t.clock) * shadow.costReservationMicros
    rw [hnone]
    simp
  · exact h.budget

omit [Float64 F] in
theorem openShadowWindow_window (m : Manager F) (window : Int) :
    (m.openShadowWindow window).shadowWindow = window := by
  rw [Manager.openShadowWindow]
  split
  · next h => exact h
  · rfl

omit [Float64 F] in
/-- A lease is handed out where the window of the clock has room for it. -/
theorem Within.sendShadow (h : t.Within shadow)
    (hfits : shadow.costBudgetMicrosPerHour + shadow.costReservationMicros < 2 ^ 63)
    (hreservation : 0 ≤ shadow.costReservationMicros)
    (hwindow : t.manager.shadowWindow = truncateHour t.clock)
    (hroom : t.manager.shadowFull = false) :
    ({ t with
        manager := t.manager.sendShadow
        leases := t.leases ++ [⟨truncateHour t.clock, false⟩] } : ShadowTraffic F).Within
      shadow := by
  have hspent := h.budget t.manager.shadowWindow
  have hspent_nonneg : 0 ≤ (t.accepted t.manager.shadowWindow : Int) *
      shadow.costReservationMicros := Int.mul_nonneg (by omega) hreservation
  have hsum : Manager.addMicros t.manager.shadowWindowCostMicros shadow.costReservationMicros =
      ((t.accepted t.manager.shadowWindow + 1 : Nat) : Int) * shadow.costReservationMicros := by
    rw [Manager.addMicros, h.cost, Word.bmod_of_fits (by omega) (by omega)]
    push_cast
    rw [Int.add_mul, Int.one_mul]
  simp only [Manager.shadowFull, h.config, hsum, h.requests, Bool.or_eq_false_iff,
    decide_eq_false_iff_not, not_le, not_lt] at hroom
  obtain ⟨⟨hactive, hrequests⟩, hcost⟩ := hroom
  have haccepted : ∀ window,
      (t.leases ++ [(⟨truncateHour t.clock, false⟩ : ShadowLease)]).countP
          (fun lease => lease.window = window) =
        t.accepted window + if window = t.manager.shadowWindow then 1 else 0 := by
    intro window
    rw [List.countP_append, accepted]
    simp [hwindow, eq_comm]
  have hhere := haccepted t.manager.shadowWindow
  rw [if_pos rfl] at hhere
  constructor
  · exact h.config
  · show t.manager.shadowActive + 1 = _
    rw [h.active, outstanding, outstanding, List.countP_append]
    simp
  · show t.manager.shadowActive + 1 ≤ _
    omega
  · intro lease hlease
    rcases List.mem_append.1 hlease with hlease | hlease
    · exact h.past lease hlease
    · rw [List.mem_singleton.1 hlease]
      exact hwindow.ge
  · exact .inr hwindow.le
  · show t.manager.shadowWindowRequests + 1 =
      ((t.leases ++ [_]).countP fun lease : ShadowLease => lease.window = t.manager.shadowWindow : Nat)
    rw [h.requests, hhere]
    rfl
  · show Manager.addMicros t.manager.shadowWindowCostMicros
        t.manager.config.shadow.costReservationMicros =
      ((t.leases ++ [_]).countP fun lease : ShadowLease => lease.window = t.manager.shadowWindow : Nat) * _
    rw [h.config, hsum, hhere]
  · intro window
    rw [accepted, haccepted]
    split
    · next heq =>
        rw [heq]
        exact ⟨by omega, hcost⟩
    · exact h.budget window

omit [Float64 F] in
theorem Within.acquire (h : t.Within shadow)
    (hfits : shadow.costBudgetMicrosPerHour + shadow.costReservationMicros < 2 ^ 63)
    (hreservation : 0 ≤ shadow.costReservationMicros) (decision : Decision F) :
    (t.acquire decision).Within shadow := by
  rw [ShadowTraffic.acquire, Manager.acquireShadow]
  split
  · exact h.frame le_rfl rfl
  dsimp only
  split
  · exact h.openShadowWindow.frame le_rfl rfl
  next hroom =>
    exact h.openShadowWindow.sendShadow hfits hreservation (openShadowWindow_window _ _)
      (Bool.eq_false_iff.2 hroom)

omit [Float64 F] in
/-- An open lease is completed. -/
theorem Within.complete (h : t.Within shadow) (lease : Nat) (success : Bool) :
    (t.complete lease success).Within shadow := by
  rw [ShadowTraffic.complete]
  split
  · exact h
  next held hheld =>
  split
  · exact h
  next hopen =>
  obtain ⟨hlt, hget⟩ := List.getElem?_eq_some_iff.1 hheld
  have hcount : 0 < t.outstanding :=
    List.countP_pos_iff.2 ⟨held, List.mem_of_getElem? hheld, by simpa using hopen⟩
  have houtstanding : (t.leases.set lease { held with done := true }).countP
      (fun lease => !lease.done) = t.outstanding - 1 := by
    rw [List.countP_set hlt, hget]
    simp [outstanding, hopen]
  have haccepted : ∀ window, (t.leases.set lease { held with done := true }).countP
      (fun lease => lease.window = window) = t.accepted window := by
    intro window
    have hmem : held.window = window → 0 < t.accepted window := fun heq =>
      List.countP_pos_iff.2 ⟨held, List.mem_of_getElem? hheld, by simpa using heq⟩
    rw [List.countP_set hlt, hget, accepted]
    rw [accepted] at hmem
    by_cases heq : held.window = window
    · have := hmem heq
      simp only [heq, decide_true, if_true]
      omega
    · simp [heq]
  have hactive := h.active
  have hactive_le := h.active_le
  have hdown : (if 0 < t.manager.shadowActive then t.manager.shadowActive - 1
      else t.manager.shadowActive) = t.manager.shadowActive - 1 := if_pos (by omega)
  constructor
  · exact h.config
  · show (if 0 < t.manager.shadowActive then _ else _) = _
    rw [hdown, outstanding, houtstanding]
    omega
  · show (if 0 < t.manager.shadowActive then _ else _) ≤ _
    rw [hdown]
    omega
  · intro other hother
    rcases List.mem_or_eq_of_mem_set hother with hother | rfl
    · exact h.past other hother
    · exact h.past held (List.mem_of_getElem? hheld)
  · rcases h.opened with hnone | hopened
    · rw [hnone] at hlt
      cases hlt
    · exact .inr hopened
  · rw [accepted, haccepted]
    exact h.requests
  · rw [accepted, haccepted]
    exact h.cost
  · intro window
    rw [accepted, haccepted]
    exact h.budget window

theorem Within.step (h : t.Within shadow)
    (hfits : shadow.costBudgetMicrosPerHour + shadow.costReservationMicros < 2 ^ 63)
    (hreservation : 0 ≤ shadow.costReservationMicros) (op : ShadowOp F) :
    (t.step u op).Within shadow := by
  cases op with
  | tick elapsed => exact h.frame (by omega) rfl
  | acquire decision => exact h.acquire hfits hreservation decision
  | complete lease success => exact h.complete lease success
  | skip => exact h.frame le_rfl rfl
  | recordCost costMicros =>
      refine h.frame le_rfl ?_
      rw [Manager.recordShadowCost]
      split
      · rfl
      · rfl
  | evaluate input dryRun elapsed =>
      exact h.frame (by omega) (Manager.shadowView_evaluate input dryRun t.clock (t.clock + elapsed))
  | stopAdaptive reason => exact h.frame le_rfl rfl
  | resumeAdaptive => exact h.frame le_rfl rfl

theorem within_start {cfg : Config F} {targets : List String}
    (hvalid : cfg.shadow.valid targets = true) (clock : Int) :
    (start cfg clock).Within cfg.shadow := by
  simp only [Shadow.valid, Bool.and_eq_true, decide_eq_true_eq] at hvalid
  obtain ⟨⟨⟨⟨⟨⟨⟨-, -⟩, hconcurrent⟩, -⟩, hrequests⟩, hcost⟩, -⟩, -⟩ := hvalid
  have hnone : ∀ window, (start cfg clock).accepted window = 0 := fun _ => rfl
  constructor
  · rfl
  · rfl
  · show (0 : Int) ≤ _
    omega
  · intro lease hlease
    cases hlease
  · exact .inl rfl
  · rfl
  · show (0 : Int) = 0 * _
    simp
  · intro window
    rw [hnone]
    exact ⟨by omega, by simpa using hcost⟩

/-- Under a configuration that is valid and whose costs add up in an `int64`,
the leases that count as active are those not yet completed, no more than may be
concurrent, and each hour accepts no more than its budgets of requests and of
cost. -/
theorem run_within {cfg : Config F} {targets : List String}
    (hvalid : cfg.shadow.valid targets = true)
    (hfits : cfg.shadow.costBudgetMicrosPerHour + cfg.shadow.costReservationMicros < 2 ^ 63)
    (clock : Int) (ops : List (ShadowOp F)) :
    let t := (start cfg clock).run u ops
    t.manager.shadowActive = t.outstanding ∧
      t.manager.shadowActive ≤ cfg.shadow.maxConcurrent ∧
      ∀ window, t.accepted window ≤ cfg.shadow.requestBudgetPerHour ∧
        t.accepted window * cfg.shadow.costReservationMicros ≤
          cfg.shadow.costBudgetMicrosPerHour := by
  intro t
  have hreservation : 0 ≤ cfg.shadow.costReservationMicros := by
    simp only [Shadow.valid, Bool.and_eq_true, decide_eq_true_eq] at hvalid
    exact hvalid.1.2
  have hwithin : t.Within cfg.shadow :=
    foldl_invariant (P := Within cfg.shadow)
      (fun _ op h => Within.step h hfits hreservation op) (within_start hvalid clock) ops
  exact ⟨hwithin.active, hwithin.active_le, hwithin.budget⟩

/-- Two requests an hour to the relay, one at a time. -/
def shadowPolicy : Config ℚ :=
  { adaptivePolicy with
    shadow :=
      { enabled := true, targetID := "relay", samplePercent := 100, requestBudgetPerHour := 2
        costBudgetMicrosPerHour := 3000 } }

/-- What the plan decides of a request it picks. -/
def picked : Decision ℚ where
  id := 1
  evaluatedAt := 0
  dryRun := false
  enabled := true
  mode := "observe"
  shadowEligible := true
  shadowTargetID := "relay"
  adaptiveScore := 0

/-- A lease completed twice makes room for one other, a third request of the
hour is refused, and the next hour accepts again. -/
theorem run_within_shadowPolicy :
    let t := (start shadowPolicy 0).run ascii
      [.acquire picked, .acquire picked, .complete 0 true, .complete 0 true, .acquire picked,
        .complete 1 false, .acquire picked, .tick 3600000000000, .acquire picked]
    (t.manager.shadowActive = t.outstanding ∧
      t.manager.shadowActive ≤ shadowPolicy.shadow.maxConcurrent ∧
      ∀ window, t.accepted window ≤ shadowPolicy.shadow.requestBudgetPerHour ∧
        t.accepted window * shadowPolicy.shadow.costReservationMicros ≤
          shadowPolicy.shadow.costBudgetMicrosPerHour) ∧
      t.leases = [⟨0, true⟩, ⟨0, true⟩, ⟨hour, false⟩] ∧ t.manager.shadowSkipped = 2 := by
  have hvalid : shadowPolicy.shadow.valid ["relay"] = true := by decide
  exact ⟨run_within hvalid (by decide) 0 _, by decide +kernel, by decide +kernel⟩

end ShadowTraffic

end RelayLifeline.Policy
