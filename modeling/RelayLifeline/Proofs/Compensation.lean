import RelayLifeline.Proofs.Uncertain

/-!
# No blind retry of a lost response

A request whose response was lost is held until an operator asks for a
compensation. The permission comes through the same one-slot channel as an
ordinary retry-now, and a token of that kind may still be on its way, or lie in
the channel, when the next attempt loses its response: then it lets that one
through as well. As long as no token is left when an attempt loses its response,
only a compensation does.
-/

namespace RelayLifeline.Proxy

open Lib Lifecycle Registry

/-! ## What a log may say -/

/-- Between a lost response and the next attempt there is a compensation. -/
def Compensates (log : List Happening) : Prop :=
  ∀ front n target result mid m rest,
    log = front ++ .ended n target result :: (mid ++ .started m :: rest) →
      result.undelivered = true → .compensated ∈ mid

/-- Whether a lost response still waits for its compensation. -/
def awaits (log : List Happening) : Bool :=
  log.foldl (fun waits x =>
    match x with
    | .ended _ _ result => waits || result.undelivered
    | .compensated => false
    | _ => waits) false

theorem awaits_concat (log : List Happening) (x : Happening) :
    awaits (log ++ [x]) =
      match x with
      | .ended _ _ result => awaits log || result.undelivered
      | .compensated => false
      | _ => awaits log := by
  cases x <;> simp [awaits]

theorem awaits_append {log rest : List Happening} (h : awaits log = true)
    (hrest : .compensated ∉ rest) : awaits (log ++ rest) = true := by
  induction rest using List.reverseRecOn with
  | nil => simpa using h
  | append_singleton rest x ih =>
      simp only [List.mem_append, List.mem_singleton, not_or] at hrest
      rw [← List.append_assoc, awaits_concat]
      have hwaits := ih hrest.1
      cases x <;> simp_all

theorem exists_lost_of_awaits {log : List Happening} (h : awaits log = true) :
    ∃ front n target result mid, log = front ++ .ended n target result :: mid ∧
      result.undelivered = true ∧ .compensated ∉ mid := by
  induction log using List.reverseRecOn with
  | nil => simp [awaits] at h
  | append_singleton log x ih =>
      have hearlier (hx : x ≠ .compensated) (h : awaits log = true) :
          ∃ front n target result mid, log ++ [x] = front ++ .ended n target result :: mid ∧
            result.undelivered = true ∧ .compensated ∉ mid := by
        obtain ⟨front, n, target, result, mid, rfl, hlost, hmid⟩ := ih h
        exact ⟨front, n, target, result, mid ++ [x], by simp, hlost, by simp [hmid, hx.symm]⟩
      rw [awaits_concat] at h
      cases x with
      | ended n target result =>
          rcases Bool.or_eq_true_iff.1 h with h | hlost
          · exact hearlier (by simp) h
          · exact ⟨log, n, target, result, [], rfl, hlost, by simp⟩
      | compensated => simp at h
      | started m => exact hearlier (by simp) h
      | unselected n => exact hearlier (by simp) h
      | begun n => exact hearlier (by simp) h
      | recorded n usage => exact hearlier (by simp) h
      | uncertain n => exact hearlier (by simp) h

/-- An attempt that starts while a lost response waits is a blind retry. -/
theorem not_compensates_of_awaits {log : List Happening} {m : Nat} (h : awaits log = true) :
    ¬Compensates (log ++ [.started m]) := by
  intro hall
  obtain ⟨front, n, target, result, mid, rfl, hlost, hmid⟩ := exists_lost_of_awaits h
  exact hmid (hall front n target result mid m [] (by simp) hlost)

/-- An attempt may start where nothing waits. -/
theorem Compensates.concat {log : List Happening} (h : Compensates log) (x : Happening)
    (hx : ∀ m, x = .started m → awaits log = false) : Compensates (log ++ [x]) := by
  intro front n target result mid m rest heq hlost
  rcases List.eq_nil_or_concat rest with rfl | ⟨rest, y, rfl⟩
  · have hsplit : log ++ [x] = (front ++ .ended n target result :: mid) ++ [.started m] := by
      simpa using heq
    obtain ⟨rfl, hlast⟩ := List.append_inj' hsplit rfl
    have hnone := hx m (List.cons.inj hlast).1
    by_contra hmid
    have hwaits : awaits ((front ++ [.ended n target result]) ++ mid) = true :=
      awaits_append (by simp [awaits_concat, hlost]) hmid
    simp [hnone] at hwaits
  · have hsplit : log ++ [x] =
        (front ++ .ended n target result :: (mid ++ .started m :: rest)) ++ [y] := by
      simpa using heq
    obtain ⟨rfl, -⟩ := List.append_inj' hsplit rfl
    exact h front n target result mid m rest rfl hlost

/-- The result a request is held back with, or about to be. -/
def Point.stalled : Point → Option AttemptResult
  | .attemptFailed result | .awaitRetry result | .activatePolicy result _
  | .holdUncertain result _ _ | .manualWait result _ _ => some result
  | _ => none

theorem Point.stalled_cases {point : Point} {result : AttemptResult}
    (h : point.stalled = some result) :
    point = .attemptFailed result ∨ point = .awaitRetry result ∨
      (∃ cfg, point = .activatePolicy result cfg) ∨
      (∃ cfg policy, point = .holdUncertain result cfg policy) ∨
      ∃ cfg policy, point = .manualWait result cfg policy := by
  cases point <;> simp_all [Point.stalled]

/-- Lost responses are tracked and not retried without a word. -/
def Config.Holds (cfg : Config) : Prop :=
  cfg.lifecycle.trackUncertainDelivery = true ∧ cfg.lifecycle.allowUncertainRetry = false

/-- The configuration that is stored holds such requests too. -/
def KeepsHolding : Event → Prop
  | .configure cfg => cfg.Holds
  | _ => True

namespace World

/-- No token waits for the handler where an attempt loses its response. -/
def leavesNoToken (w : World) : Event → Bool
  | .handler a =>
      match w.handler.point with
      | .exchange lease =>
          !(runAttemptForTarget (w.target lease) a.exchange).undelivered ||
            (!w.entry.retryNow && w.operators.retrySenders = 0 && w.operators.compensators = 0)
      | _ => true
  | _ => true

/-- The handler holds a lost response back: on its way to the verdict, or held
in the uncertain state with nobody's leave to go on. -/
inductive Held (w : World) : Prop
  | pending (result : AttemptResult) (hpoint : w.handler.point.pending = some result)
      (hlost : result.undelivered = true) (hfailed : result.validation.success = false)
  | stalled (result : AttemptResult) (hpoint : w.handler.point.stalled = some result)
      (hlost : result.undelivered = true) (hstate : w.entry.state = some .uncertain)
      (hmanual : w.handler.point = .attemptFailed result ∨
        w.handler.manualUncertainRetry = false)
      (hcfg : ∀ cfg, w.handler.point = .activatePolicy result cfg → cfg.Holds)

structure Guarded (w : World) : Prop where
  holds : w.config.Holds ∧ w.handler.cfg.Holds
  log : Compensates w.log
  held : awaits w.log = true → w.handler.point.exiting = true ∨ ¬w.Offered ∧ Held w

variable {w w' : World}

/-- The handler makes no token. -/
theorem not_offered_of_entry (h : ¬w.Offered) (hretry : w'.entry.retryNow = w.entry.retryNow)
    (hoperators : w'.operators = w.operators) : ¬w'.Offered := by
  simpa only [Offered, hretry, hoperators] using h

theorem Held.settle (hoffered : ¬w.Offered) (a : Answer) {result : AttemptResult}
    (hlost : result.undelivered = true) (hfailed : result.validation.success = false) :
    (w.settle a result).handler.point.exiting = true ∨
      ¬(w.settle a result).Offered ∧ Held (w.settle a result) := by
  obtain ⟨governance, log, point, heq, -, hto⟩ := w.settle_cases a result
  rw [heq]
  rcases hto with rfl | ⟨rfl, -⟩
  · exact .inr ⟨hoffered, .pending result rfl hlost hfailed⟩
  · exact .inl rfl

/-- The verdict on a lost response holds the request. -/
theorem Held.classify (ht : Tracked w) (hholds : w.handler.cfg.Holds) (hoffered : ¬w.Offered)
    (a : Answer) {result : AttemptResult} (hpoint : w.handler.point = .classify result)
    (hlost : result.undelivered = true) :
    ¬(w.classify a result).Offered ∧ Held (w.classify a result) := by
  obtain ⟨source, hsource, hstate⟩ := ht.state (by rw [hpoint]; rfl)
  obtain rfl : source = .forwarding := by simpa [hpoint, Point.states] using hsource
  have hverdict := hlost
  simp only [AttemptResult.undelivered, Bool.and_eq_true, Option.isNone_iff_eq_none] at hverdict
  simp only [World.classify, hverdict.1, hverdict.2, hholds.1, Option.isSome_none, and_self,
    Bool.false_eq_true, if_false, if_true]
  refine ⟨not_offered_of_entry hoffered (by simp) rfl,
    .stalled result rfl hlost ?_ (.inl rfl) (by simp)⟩
  simp [Entry.state_updateMessage, hstate, Entry.moveTo, validateTransition, transitions]

theorem Held.attemptFailed (hoffered : ¬w.Offered) (a : Answer) {result : AttemptResult}
    (hlost : result.undelivered = true) (hstate : w.entry.state = some .uncertain) :
    (w.attemptFailed a result).handler.point.exiting = true ∨
      ¬(w.attemptFailed a result).Offered ∧ Held (w.attemptFailed a result) := by
  simp only [World.attemptFailed]
  split
  · exact .inr ⟨not_offered_of_entry hoffered (by simp) rfl,
      .stalled result rfl hlost (by simpa using hstate) (.inr rfl) (by simp)⟩
  · exact .inl rfl

theorem Held.awaitRetry (hholds : w.config.Holds) (hoffered : ¬w.Offered) (a : Answer)
    {result : AttemptResult} (hlost : result.undelivered = true)
    (hstate : w.entry.state = some .uncertain) (hmanual : w.handler.manualUncertainRetry = false) :
    (w.awaitRetry a result).handler.point.exiting = true ∨
      ¬(w.awaitRetry a result).Offered ∧ Held (w.awaitRetry a result) := by
  simp only [World.awaitRetry]
  split
  · exact .inl rfl
  · refine .inr ⟨hoffered, .stalled result rfl hlost hstate (.inr hmanual) fun cfg hcfg => ?_⟩
    obtain ⟨-, rfl⟩ := Point.activatePolicy.inj hcfg
    exact hholds

theorem Held.activatePolicy (hoffered : ¬w.Offered) (a : Answer) {result : AttemptResult}
    {cfg : Config} (hlost : result.undelivered = true) (hstate : w.entry.state = some .uncertain)
    (hmanual : w.handler.manualUncertainRetry = false) (hcfg : cfg.Holds) :
    ¬(w.activatePolicy a result cfg).Offered ∧ Held (w.activatePolicy a result cfg) := by
  have halike := w.entry.activateRetryPolicy_alike a.now w.handler.attempt a.persisted
  simp only [World.activatePolicy, uncertainResult, hlost, hcfg.1, hcfg.2, hmanual, Bool.not_false,
    Bool.and_self, if_true]
  exact ⟨not_offered_of_entry hoffered halike.retryNow rfl,
    .stalled result rfl hlost (halike.state.trans hstate) (.inr hmanual) (by simp)⟩

theorem Held.holdUncertain (hoffered : ¬w.Offered) (a : Answer) {result : AttemptResult}
    (cfg : Config) (policy : Option RetryPolicy) (hlost : result.undelivered = true)
    (hstate : w.entry.state = some .uncertain) (hmanual : w.handler.manualUncertainRetry = false) :
    ¬(w.holdUncertain a result cfg policy).Offered ∧ Held (w.holdUncertain a result cfg policy) := by
  refine ⟨not_offered_of_entry hoffered (by simp [World.holdUncertain]) rfl,
    .stalled result rfl hlost ?_ (.inr hmanual) (by simp [World.holdUncertain])⟩
  simp [World.holdUncertain, Entry.state_updateMessage, hstate, Entry.moveTo, validateTransition]

/-- Without a token the manual wait goes nowhere but back. -/
theorem Held.manualWait (hoffered : ¬w.Offered) (a : Answer) {result : AttemptResult} {cfg : Config}
    {policy : Option RetryPolicy} (hpoint : w.handler.point = .manualWait result cfg policy)
    (hlost : result.undelivered = true) (hstate : w.entry.state = some .uncertain)
    (hmanual : w.handler.manualUncertainRetry = false) :
    (w.manualWait a result cfg policy).handler.point.exiting = true ∨
      ¬(w.manualWait a result cfg policy).Offered ∧ Held (w.manualWait a result cfg policy) := by
  have hstays : ¬w.Offered ∧ Held w :=
    ⟨hoffered, .stalled result (by rw [hpoint]; rfl) hlost hstate (.inr hmanual) (by simp [hpoint])⟩
  simp only [World.manualWait]
  split
  · split
    · exact .inl rfl
    · exact .inr hstays
  · split
    · rename_i hretry
      exact absurd (.inl hretry) hoffered
    · exact .inr hstays
  · split
    · exact .inr ⟨hoffered, .stalled result rfl hlost hstate (.inr hmanual) (by simp)⟩
    · exact .inr hstays
  · exact .inr hstays

/-- A step of a handler that holds a lost response back. -/
theorem Held.handle (h : Held w) (ht : Tracked w) (hholds : w.config.Holds ∧ w.handler.cfg.Holds)
    (hoffered : ¬w.Offered) (a : Answer) :
    (w.handle a).handler.point.exiting = true ∨ ¬(w.handle a).Offered ∧ Held (w.handle a) := by
  cases h with
  | pending result hpoint hlost hfailed =>
      rcases Point.pending_cases hpoint with hp | hp | hp
      · simp only [World.handle, hp]
        exact Held.settle hoffered a hlost hfailed
      · simp only [World.handle, hp, World.judge, hfailed]
        split
        · exact .inl rfl
        · exact .inr ⟨hoffered, .pending result rfl hlost hfailed⟩
      · simp only [World.handle, hp]
        exact .inr (Held.classify ht hholds.2 hoffered a hp hlost)
  | stalled result hpoint hlost hstate hmanual hcfg =>
      rcases Point.stalled_cases hpoint with hp | hp | ⟨cfg, hp⟩ | ⟨cfg, policy, hp⟩ |
        ⟨cfg, policy, hp⟩
      · simp only [World.handle, hp]
        exact Held.attemptFailed hoffered a hlost hstate
      · simp only [World.handle, hp]
        exact Held.awaitRetry hholds.1 hoffered a hlost hstate
          (hmanual.resolve_left (by simp [hp]))
      · simp only [World.handle, hp]
        exact .inr (Held.activatePolicy hoffered a hlost hstate
          (hmanual.resolve_left (by simp [hp])) (hcfg cfg hp))
      · simp only [World.handle, hp]
        exact .inr (Held.holdUncertain hoffered a cfg policy hlost hstate
          (hmanual.resolve_left (by simp [hp])))
      · simp only [World.handle, hp]
        exact Held.manualWait hoffered a hp hlost hstate (hmanual.resolve_left (by simp [hp]))

/-! ## Runs -/

theorem Guarded.handle (h : Guarded w) (ht : Tracked w) (a : Answer)
    (hfresh : w.leavesNoToken (.handler a) = true) : Guarded (w.handle a) := by
  have hgoes (hwaits : awaits w.log = true) : (w.handle a).handler.point.exiting = true ∨
      ¬(w.handle a).Offered ∧ Held (w.handle a) := by
    rcases h.held hwaits with hexit | ⟨hoffered, hheld⟩
    · exact .inl (w.handle_exiting a hexit)
    · exact hheld.handle ht h.holds hoffered a
  obtain ⟨-, hconfig, hcfg⟩ := w.handle_cfg a
  have hholds : (w.handle a).config.Holds ∧ (w.handle a).handler.cfg.Holds := by
    refine ⟨hconfig ▸ h.holds.1, ?_⟩
    rcases hcfg with hcfg | hcfg
    · exact hcfg ▸ h.holds.2
    · exact hcfg ▸ h.holds.1
  rcases w.handle_log a with hsame | ⟨x, hnotes, hadded⟩
  · exact ⟨hholds, hsame ▸ h.log, fun hwaits => hgoes (hsame ▸ hwaits)⟩
  · refine ⟨hholds, ?_, fun hwaits => ?_⟩
    · rw [hadded]
      refine h.log.concat x fun m hx => ?_
      subst hx
      cases hnotes with
      | started hpoint =>
          by_contra hwaits
          rcases h.held (by simpa using hwaits) with hexit | ⟨-, hheld⟩
          · simp [hpoint, Point.exiting] at hexit
          · cases hheld with
            | pending result hpending => simp [hpoint, Point.pending] at hpending
            | stalled result hstalled => simp [hpoint, Point.stalled] at hstalled
    · rw [hadded, awaits_concat] at hwaits
      cases hnotes with
      | ended lease hpoint =>
          rcases Bool.or_eq_true_iff.1 hwaits with hwaits | hlost
          · exact hgoes hwaits
          · simp only [leavesNoToken, hpoint, hlost, Bool.not_true, Bool.false_or,
              Bool.and_eq_true, Bool.not_eq_true', decide_eq_true_eq] at hfresh
            obtain ⟨⟨hretry, hsenders⟩, hcompensators⟩ := hfresh
            simp only [World.handle, hpoint]
            refine .inr ⟨?_, .pending _ rfl hlost (not_success_of_undelivered hlost)⟩
            simp [Offered, World.exchange, hretry, hsenders, hcompensators]
      | started hpoint => exact hgoes hwaits
      | unselected hpoint => exact hgoes hwaits
      | begun lease hpoint => exact hgoes hwaits
      | recorded result hpoint haccountable => exact hgoes hwaits
      | uncertain result hpoint hlost htracks => exact hgoes hwaits

theorem Guarded.outside (h : Guarded w) (ht : Tracked w) {event : Event}
    (hout : w.Outside w' event) (haloof : w.Aloof w' event) (hkeeps : KeepsHolding event) :
    Guarded w' := by
  refine ⟨⟨?_, hout.handler ▸ h.holds.2⟩, ?_, fun hwaits => ?_⟩
  · rcases hout.config with hconfig | ⟨cfg, rfl, hconfig⟩
    · exact hconfig ▸ h.holds.1
    · exact hconfig ▸ hkeeps
  · rcases hout.log with hlog | hlog
    · exact hlog ▸ h.log
    · exact hlog ▸ h.log.concat _ (by simp)
  · have hsame : w'.log = w.log := by
      rcases hout.log with hlog | hlog
      · exact hlog
      · simp [hlog, awaits_concat] at hwaits
    rw [hsame] at hwaits
    rw [hout.handler]
    rcases h.held hwaits with hexit | ⟨hoffered, hheld⟩
    · exact .inl hexit
    · refine .inr ⟨fun hoffered' => ?_, ?_⟩
      · rcases haloof.offered hoffered' with hbefore | hwaiting | hadded
        · exact hoffered hbefore
        · cases hheld with
          | pending result hpending =>
              have hgoing : w.handler.point.exiting = false ∧ w.handler.point.states = [.forwarding] := by
                rcases Point.pending_cases hpending with hp | hp | hp <;> rw [hp] <;> exact ⟨rfl, rfl⟩
              obtain ⟨status, hin, hstate⟩ := ht.state hgoing.1
              simp [hgoing.2] at hin
              simp [hstate, hin] at hwaiting
          | stalled result hstalled hlost hstate => simp [hstate] at hwaiting
        · simp [hsame] at hadded
      · cases hheld with
        | pending result hpending hlost hfailed =>
            exact .pending result (by rw [hout.handler]; exact hpending) hlost hfailed
        | stalled result hstalled hlost hstate hmanual hcfg =>
            exact .stalled result (by rw [hout.handler]; exact hstalled) hlost
              (haloof.state.trans hstate) (by rw [hout.handler]; exact hmanual)
              (by rw [hout.handler]; exact hcfg)

theorem Guarded.step (h : Guarded w) (ht : Tracked w) {event : Event}
    (hkeeps : KeepsHolding event) (hfresh : w.leavesNoToken event = true) :
    Guarded (w.step event) := by
  by_cases hevent : ∃ answer, event = .handler answer
  · obtain ⟨answer, rfl⟩ := hevent
    exact h.handle ht answer hfresh
  · have hother : ∀ answer, event ≠ .handler answer := fun answer heq => hevent ⟨answer, heq⟩
    exact h.outside ht (w.step_outside event hother) (w.step_aloof event hother) hkeeps

theorem guarded_start {request : Request} {config : Config} (governance : Governance.Manager)
    (pool : Upstream.Pool) (hholds : config.Holds) :
    Guarded (start request config governance pool) where
  holds := ⟨hholds, hholds⟩
  log := by intro front n target result mid m rest heq; simp [start] at heq
  held hwaits := by simp [start, awaits] at hwaits

/-- **No blind retry of a lost response.** With deliveries tracked and uncertain
retries off throughout, and no token left where an attempt loses its response,
no attempt starts after a lost response before a compensation was accepted. -/
theorem compensates {request : Request} {config : Config} {governance : Governance.Manager}
    {pool : Upstream.Pool} {events : List Event} (hholds : config.Holds)
    (hkeeps : ∀ event ∈ events, KeepsHolding event)
    (hfresh : Along step (fun w event => w.leavesNoToken event = true)
      (start request config governance pool) events) :
    Compensates ((start request config governance pool).run events).log := by
  have hend := Along.invariant (P := fun w => Guarded w ∧ Tracked w)
    (fun w event hw hc => ⟨hw.1.step hw.2 hc.1 hc.2, hw.2.step event⟩)
    ⟨guarded_start governance pool hholds, tracked_start request config governance pool⟩
    ((Along.of_forall hkeeps).and hfresh)
  exact hend.1.log

/-- A lost response, a compensation, and the attempt it lets go on. -/
def compensated : List Event :=
  lostResponse ++ [.resolveUncertain 0 .requestCompensation true, .sendCompensation,
    .handler { wake := .retryNow }] ++ usual 1 ++ stepsAt second 8

theorem compensates_compensated :
    Compensates ((before {} everySecond).run compensated).log ∧
      .started 2 ∈ ((before {} everySecond).run compensated).log :=
  ⟨compensates ⟨rfl, rfl⟩ (by simp [compensated, lostResponse, usual, stepsAt, KeepsHolding])
    (by decide +kernel), by decide +kernel⟩

/-- A retry-now is let through while the request waits, and its token comes when
the next attempt has lost its response. -/
def lateToken : List Event :=
  usual 18 ++ [.retryNowChecked] ++ stepsAt second 11 ++
    [.handler { now := second, exchange := .failed true false }] ++ stepsAt second 7 ++
    [.sendRetry true, .handler { now := second, wake := .retryNow }] ++ stepsAt second 1 ++
    stepsAt (2 * second) 8

theorem not_compensates_lateToken :
    everySecond.Holds ∧ ¬Compensates ((before {} everySecond).run lateToken).log := by
  have hlog : ((before {} everySecond).run lateToken).log =
      ((before {} everySecond).run lateToken).log.dropLast ++ [.started 3] := by decide +kernel
  refine ⟨⟨rfl, rfl⟩, ?_⟩
  rw [hlog]
  exact not_compensates_of_awaits (by decide +kernel)

end World

end RelayLifeline.Proxy
