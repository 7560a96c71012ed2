import RelayLifeline.Proofs.States
import RelayLifeline.Registry.Visits

/-!
# The number of attempts

The loop decides whether to stop once for each wait, before it waits. A policy
that is set while the request waits counts from the attempt the registry shows,
which is never more than one behind the handler's own. So whatever ends the
wait, the attempt it leads to is within the bound of the policy in force; and
without a policy only an operator's word takes an uncertain request past
`MaxAttempts`, one attempt for each word.
-/

namespace RelayLifeline.Proxy

open Lib Lifecycle Registry

/-! ## The points of an attempt -/

/-- The wait before the next attempt is settled. -/
def Point.retrying : Point → Bool
  | .retryWait _ _ | .checkDeadline _ _ | .reacquire _ => true
  | _ => false

/-- The registry shows the number of the attempt. -/
def Point.shown : Point → Bool
  | .attemptStarted | .select | .bindUpstream _ | .beginAttempt _ | .refused _ _ | .exchange _
  | .settle _ | .judge _ | .releaseReservation _ | .buffering _ | .delivering _ | .deliver _
  | .completed | .classify _ | .attemptFailed _ | .awaitRetry _ | .activatePolicy _ _
  | .holdUncertain _ _ _ | .manualWait _ _ _ | .schedule _ _ _ | .retryWait _ _
  | .checkDeadline _ _ | .reacquire _ => true
  | _ => false

/-- The attempt is yet to be logged. -/
def Point.unstarted : Point → Bool
  | .evaluatePolicy | .admitContext | .startDownstream | .acquire | .loop | .pauseWait
  | .retryGate | .forwarding | .attemptStarted => true
  | _ => false

/-- The loop of `awaitRetry` has not decided yet. -/
def Point.deciding : Point → Bool
  | .awaitRetry _ | .activatePolicy _ _ | .holdUncertain _ _ _ | .manualWait _ _ _
  | .schedule _ _ _ => true
  | _ => false

/-- The policy the handler has read. -/
def Point.carried : Point → Option (Option RetryPolicy)
  | .holdUncertain _ _ policy | .manualWait _ _ policy | .schedule _ _ policy => some policy
  | _ => none

/-- The configuration the loop of `awaitRetry` has read. -/
def Point.plan : Point → Option Config
  | .activatePolicy _ cfg | .holdUncertain _ cfg _ | .manualWait _ cfg _ | .schedule _ cfg _ =>
      some cfg
  | _ => none

namespace Point.Leads

variable {point point' : Point}

theorem retrying (h : point.Leads point') (hretrying : point'.retrying = true) :
    point.retrying = true ∨ ∃ result cfg policy, point = .schedule result cfg policy := by
  cases h <;> first
    | exact .inl rfl
    | exact .inr ⟨_, _, _, rfl⟩
    | exact Bool.noConfusion hretrying

theorem shown (h : point.Leads point') (hshown : point'.shown = true) :
    point.shown = true ∨ point = .forwarding := by
  cases h <;> first
    | exact .inl rfl
    | exact .inr rfl
    | exact Bool.noConfusion hshown

theorem unstarted (h : point.Leads point') (hunstarted : point'.unstarted = true) :
    point.unstarted = true ∧ point ≠ .attemptStarted ∨ ∃ reason, point = .reacquire reason := by
  cases h <;> first
    | exact Bool.noConfusion hunstarted
    | exact .inr ⟨_, rfl⟩
    | exact .inl ⟨rfl, by simp⟩

theorem deciding (h : point.Leads point') (hdeciding : point'.deciding = true) :
    point.deciding = true ∨ (∃ result, point = .attemptFailed result) ∨ point.retrying = true := by
  cases h <;> first
    | exact .inl rfl
    | exact .inr (.inl ⟨_, rfl⟩)
    | exact .inr (.inr rfl)
    | exact Bool.noConfusion hdeciding

theorem carried {policy : Option RetryPolicy} (h : point.Leads point')
    (hcarried : policy ∈ point'.carried) :
    policy ∈ point.carried ∨ ∃ result cfg, point = .activatePolicy result cfg := by
  cases h <;> first
    | exact .inl hcarried
    | exact .inr ⟨_, _, rfl⟩
    | cases hcarried

theorem plan {cfg : Config} (h : point.Leads point') (hplan : cfg ∈ point'.plan) :
    cfg ∈ point.plan ∨ ∃ result, point = .awaitRetry result := by
  cases h <;> first
    | exact .inl hplan
    | exact .inr ⟨_, rfl⟩
    | cases hplan

end Point.Leads

theorem Point.shown_of_retrying {point : Point} (h : point.retrying = true) : point.shown = true := by
  cases point <;> first | rfl | exact Bool.noConfusion h

theorem Point.shown_of_carried {point : Point} {policy : Option RetryPolicy}
    (h : policy ∈ point.carried) : point.shown = true := by
  cases point <;> first | rfl | cases h

namespace World

/-! ## What one step does -/

/-- An event of someone else visits the entry at most once. -/
theorem step_visited (w : World) (event : Event) (h : ∀ answer, event ≠ .handler answer) :
    w.entry.Visited (w.step event).entry := by
  match event with
  | .handler answer => exact absurd rfl (h answer)
  | .heartbeat beat =>
    rw [step]
    split
    · exact .same
    · obtain ⟨ctx, heq⟩ := onDisconnect_cases { w with downstream := (w.downstream.beat beat).1 }
      rw [heq]
      exact .same
  | .retryNowChecked =>
    rw [step]
    split
    · exact .same
    · exact .same
  | .sendRetry persisted =>
    rw [step]
    split
    · exact .same
    · exact .retried persisted
  | .applyRetryPolicy now spec overwrite validate persisted =>
    obtain ⟨senders, heq⟩ := w.policyAction_cases
      (w.entry.applyRetryPolicy now spec overwrite validate persisted)
    rw [step, heq]
    exact .applied now spec overwrite validate persisted
  | .clearRetryPolicy persisted =>
    obtain ⟨senders, heq⟩ := w.policyAction_cases (w.entry.clearRetryPolicy persisted)
    rw [step, heq]
    exact .cleared persisted
  | .signalPolicy =>
    rw [step]
    split
    · exact .same
    · exact .signaled
  | .resolveUncertain now resolution persisted =>
    have hvisited : w.entry.Visited (w.entry.resolveUncertain now resolution persisted).1 :=
      .resolved now resolution persisted
    simp only [step, resolveUncertain]
    split
    · exact hvisited
    · split
      · exact hvisited
      · exact hvisited
  | .sendCompensation =>
    rw [step]
    split
    · exact .same
    · exact .compensated
  | .cancelChecked persisted =>
    have hvisited : w.entry.Visited (w.entry.cancelChecked persisted).1 := .canceled persisted
    rw [step]
    extract_lets answer
    split
    · exact hvisited
    · exact hvisited
  | .sendCancel =>
    rw [step]
    split
    · exact .same
    · exact .same
  | .disconnect =>
    have hdisconnected := w.onDisconnect_cases
    rw [step, hdisconnected.choose_spec]
    exact .same
  | .govern action =>
    rw [step]
    split
    · exact .same
    · exact .same
  | .upstream op =>
    rw [step]
    split
    · exact .same
    · exact .same
  | .heartbeatQuit | .contextDone _ | .pause | .resume | .configure _ | .reload _ _ => exact .same

/-- Only the way back into the loop changes the number of the attempt. -/
theorem handle_attempt (w : World) (a : Answer) :
    (w.handle a).handler.attempt = w.handler.attempt ∨
      (∃ reason, w.handler.point = .reacquire reason) ∧
        (w.handle a).handler.attempt = w.handler.attempt + 1 ∧
        (w.handle a).handler.point = .loop := by
  by_cases hcalling : w.handler.point.calling = true
  · obtain ⟨governance, pool, log, route, reservation, point, heq, -⟩ := w.handle_ahead a hcalling
    exact .inl (by rw [heq])
  have hno {point : Point} (hpoint : w.handler.point = point) (hp : point.calling = true) : False :=
    hcalling (hpoint ▸ hp)
  refine attempt_elim
    (motive := fun w' => w'.handler.attempt = w.handler.attempt ∨
      (∃ reason, w.handler.point = .reacquire reason) ∧
        w'.handler.attempt = w.handler.attempt + 1 ∧ w'.handler.point = .loop)
    w a (fun hbeside => .inl hbeside.attempt) (fun hpoint => ?_) (fun hpoint => ?_)
    (fun hpoint => (hno hpoint rfl).elim) (fun lease hpoint => (hno hpoint rfl).elim)
    (fun lease hpoint => (hno hpoint rfl).elim) (fun lease reason hpoint => .inl rfl)
    (fun lease hpoint => .inl rfl) (fun result hpoint => (hno hpoint rfl).elim)
    (fun result hpoint => (hno hpoint rfl).elim) (fun result hpoint => (hno hpoint rfl).elim)
    (fun result hpoint => ?_) (fun reason hpoint => ?_) (fun hpoint => ?_)
  case refine_1 =>
    rw [admitContext]
    extract_lets admitted w'
    split
    · exact .inl rfl
    split
    · exact .inl rfl
    · exact .inl rfl
  case refine_2 =>
    simp only [attemptStarted]
    split
    · exact .inl rfl
    · exact .inl rfl
  case refine_3 =>
    rw [classify]
    split
    · exact .inl rfl
    split
    · exact .inl rfl
    · exact .inl rfl
  case refine_4 =>
    rw [reacquire]
    split
    · exact .inr ⟨⟨reason, hpoint⟩, rfl, rfl⟩
    · exact .inl rfl
    split
    · exact .inl rfl
    · exact .inl rfl
  case refine_5 =>
    rw [releaseDeferred]
    split
    · exact .inl rfl
    · exact .inl rfl

/-- What a step of the handler makes of the entry, except where it activates a
policy. -/
theorem handle_kept (w : World) (a : Answer)
    (hpoint : ∀ result cfg, w.handler.point ≠ .activatePolicy result cfg) :
    Entry.Kept w.handler.attempt w.entry (w.handle a).entry := by
  have same : Entry.Kept w.handler.attempt w.entry w.entry := .refl _ _
  have updated (now : Int) (status : State) (message : Message) (nextRetry : Int) :
      Entry.Kept w.handler.attempt w.entry (w.update now status message nextRetry).entry :=
    Entry.kept_updateMessage _ _ _ _ _ _
  by_cases hcalling : w.handler.point.calling = true
  · obtain ⟨governance, pool, log, route, reservation, point, heq, -⟩ := w.handle_ahead a hcalling
    rw [heq]
    exact same
  simp only [handle]
  cases hat : w.handler.point with
  | evaluatePolicy =>
    simp only [evaluatePolicy]
    split
    · exact Entry.kept_remove _ _ _ _
    · exact same
  | admitContext =>
    simp only [admitContext]
    split
    · exact same
    split
    · exact Entry.kept_remove _ _ _ _
    · exact same
  | startDownstream =>
    simp only [startDownstream]
    split
    · exact same
    · obtain ⟨ctx, heq⟩ := onDisconnect_cases { w with
        downstream := w.downstream.start, handler.started := a.now, handler.point := .acquire }
      rw [heq]
      exact same
  | acquire =>
    simp only [acquire]
    split
    · exact same
    · exact same
    split
    · exact same
    · exact same
  | pauseWait =>
    simp only [pauseWait]
    split
    · split
      · exact same
      · exact same
    · exact same
  | retryGate =>
    simp only [retryGate]
    split
    · exact same
    split
    · split
      · exact same
      · exact same
    · exact same
    · exact same
  | forwarding => exact updated _ _ _ _
  | attemptStarted =>
    simp only [attemptStarted]
    split
    · exact same.recordEvent _ _
    · exact same.recordEvent _ _
  | buffering result => exact updated _ _ _ _
  | delivering result => exact updated _ _ _ _
  | deliver result =>
    simp only [deliver]
    split
    · split
      · exact same
      · exact same.recordEvent _ _
    · exact same
  | completed => exact (updated _ _ _ _).recordEvent _ _
  | classify result =>
    simp only [classify]
    split
    · exact updated _ _ _ _
    split
    · exact (updated _ _ _ _).recordEvent _ _
    · exact same
  | attemptFailed result =>
    simp only [attemptFailed]
    split
    · exact same.recordEvent _ _
    · exact same.recordEvent _ _
  | awaitRetry result =>
    simp only [awaitRetry]
    split
    · exact same.recordEvent _ _
    · exact same
  | activatePolicy result cfg => exact absurd hat (hpoint result cfg)
  | holdUncertain result cfg policy => exact (updated _ _ _ _).recordEvent _ _
  | manualWait result cfg policy =>
    simp only [manualWait]
    split
    · split
      · exact same
      · exact same
    · split
      · exact same.of_request rfl
      · exact same
    · split
      · exact same.of_request rfl
      · exact same
    · exact same
  | schedule result cfg policy =>
    simp only [schedule]
    split
    · split
      · exact same.recordEvent _ _
      · exact (updated _ _ _ _).recordEvent _ _
    · split
      · exact same.recordEvent _ _
      · exact same.recordEvent _ _
      · exact same
  | retryWait result ready =>
    simp only [retryWait]
    split
    · split
      · exact same
      · exact same
    · split
      · exact same.of_request rfl
      · exact same
    · split
      · exact same.of_request rfl
      · exact same
    · split
      · exact same
      · exact same
  | checkDeadline result resumeReason =>
    simp only [checkDeadline]
    split
    · exact same.recordEvent _ _
    · exact same
  | reacquire resumeReason =>
    simp only [reacquire]
    split
    · exact same.recordEvent _ _
    · exact same
    split
    · exact same
    · exact same
  | fail message =>
    simp only [fail]
    split
    · exact same
    · exact same
  | stopHeartbeat =>
    simp only [stopHeartbeat]
    split
    · exact same
    · exact same
  | finish =>
    simp only [finish]
    split
    · exact same
    · exact same
    split
    · split
      · exact same.recordEvent _ _
      · exact same.recordEvent _ _
    · exact same
  | remove => exact Entry.kept_remove _ _ _ _
  | releaseDeferred =>
    simp only [releaseDeferred]
    split
    · exact same
    · exact same
  | loop | returned => exact same
  | select | bindUpstream _ | beginAttempt _ | refused _ _ | exchange _ | settle _
  | judge _ | releaseReservation _ =>
    rw [hat] at hcalling
    exact absurd rfl hcalling

/-- What activating a policy does to the entry. -/
theorem activatePolicy_entry (w : World) (a : Answer) (result : AttemptResult) (cfg : Config) :
    (w.activatePolicy a result cfg).entry =
        (w.entry.activateRetryPolicy a.now w.handler.attempt a.persisted).1 ∧
      (w.activatePolicy a result cfg).handler.point.carried =
        some (w.entry.activateRetryPolicy a.now w.handler.attempt a.persisted).2 := by
  simp only [activatePolicy]
  split
  · exact ⟨rfl, rfl⟩
  · exact ⟨rfl, rfl⟩

/-! ## The number shown -/

/-- The number the registry shows is at most one behind the handler's, and not
behind once the attempt goes out. -/
structure Numbered (w : World) : Prop where
  behind : ∀ n ∈ w.entry.attempt, w.handler.attempt ≤ n + 1
  shown : w.handler.point.shown = true → ∀ n ∈ w.entry.attempt, w.handler.attempt ≤ n

theorem handle_number (w : World) (a : Answer) :
    ∀ n ∈ (w.handle a).entry.attempt, n ∈ w.entry.attempt ∨ n = w.handler.attempt := by
  by_cases hpoint : ∃ result cfg, w.handler.point = .activatePolicy result cfg
  · obtain ⟨result, cfg, hpoint⟩ := hpoint
    intro n hn
    have hentry := (w.activatePolicy_entry a result cfg).1
    have hspec := w.entry.activateRetryPolicy_spec a.now w.handler.attempt a.persisted
    simp only [handle, hpoint] at hn
    rw [hentry, hspec.2.1] at hn
    exact .inl hn
  · push Not at hpoint
    exact (w.handle_kept a hpoint).attempt

theorem Numbered.handle {w : World} (h : w.Numbered) (htracked : w.Tracked) (a : Answer) :
    (w.handle a).Numbered := by
  have hnumber := w.handle_number a
  rcases w.handle_attempt a with hsame | ⟨⟨reason, hpoint⟩, hnext, hloop⟩
  · refine ⟨fun n hn => ?_, fun hshown n hn => ?_⟩
    · rw [hsame]
      rcases hnumber n hn with hold | rfl
      · exact h.behind n hold
      · omega
    · rw [hsame]
      have hcases : w.handler.point.shown = true ∨ w.handler.point = .forwarding := by
        rcases w.handle_leads a with heq | hleads
        · exact .inl (heq ▸ hshown)
        · exact hleads.shown hshown
      rcases hcases with hbefore | hpoint
      · rcases hnumber n hn with hold | rfl
        · exact h.shown hbefore n hold
        · exact Nat.le_refl _
      · obtain ⟨status, hin, hstate⟩ := htracked.state (by rw [hpoint]; rfl)
        have hvalid : validateTransition status .forwarding = true := by
          rw [hpoint] at hin
          rcases List.mem_cons.mp hin with rfl | hin
          · rfl
          · rw [List.mem_singleton.mp hin]
            rfl
        simp only [World.handle, hpoint, forwarding] at hn
        change n ∈ (w.entry.updateMessage _ _ _ _ _).attempt at hn
        rw [Entry.attempt_updateMessage hstate hvalid, Option.mem_some_iff] at hn
        exact Nat.le_of_eq hn
  · refine ⟨fun n hn => ?_, fun hshown => ?_⟩
    · rw [hnext]
      rcases hnumber n hn with hold | rfl
      · have := h.shown (by rw [hpoint]; rfl) n hold
        omega
      · exact Nat.le_refl _
    · rw [hloop] at hshown
      cases hshown

theorem Numbered.outside {w : World} (h : w.Numbered) (event : Event)
    (hother : ∀ answer, event ≠ .handler answer) : (w.step event).Numbered := by
  have hattempt := (w.step_visited event hother).attempt
  have hhandler := (w.step_outside event hother).handler
  refine ⟨?_, ?_⟩
  · rw [hattempt, hhandler]
    exact h.behind
  · rw [hattempt, hhandler]
    exact h.shown

/-! ## A policy in force -/

/-- The last attempt the active policy allows, where it bounds them. -/
def policyLimit (w : World) : Option Int :=
  (w.entry.retryPolicy.filter fun policy =>
    policy.active && decide (0 < policy.maxAdditionalAttempts)).map fun policy =>
    policy.baselineAttempt + policy.maxAdditionalAttempts

theorem mem_policyLimit {w : World} {d : Int} :
    d ∈ w.policyLimit ↔ ∃ policy ∈ w.entry.retryPolicy, policy.active = true ∧
      0 < policy.maxAdditionalAttempts ∧
      policy.baselineAttempt + policy.maxAdditionalAttempts = d := by
  simp only [policyLimit, Option.mem_def, Option.map_eq_some_iff, Option.filter_eq_some_iff,
    Bool.and_eq_true, decide_eq_true_eq, and_assoc]

theorem policyLimit_congr {w w' : World} (h : w'.entry.retryPolicy = w.entry.retryPolicy) :
    w'.policyLimit = w.policyLimit := by
  rw [policyLimit, policyLimit, h]

/-- The attempt the handler is at, or the one its wait leads to. -/
def upcoming (w : World) : Nat :=
  if w.handler.point.retrying then w.handler.attempt + 1 else w.handler.attempt

theorem attempt_le_upcoming (w : World) : w.handler.attempt ≤ w.upcoming := by
  rw [upcoming]
  split
  · exact Nat.le_succ _
  · exact Nat.le_refl _

/-- The attempt ahead is within the bound in force, and a policy the handler has
read is still the one in force or leaves room for another attempt. -/
structure Within (w : World) : Prop where
  upcoming : ∀ d ∈ w.policyLimit, (w.upcoming : Int) ≤ d
  carried : ∀ policy ∈ w.handler.point.carried, policy = w.entry.retryPolicy ∨
    ∀ d ∈ w.policyLimit, (w.handler.attempt : Int) + 1 ≤ d

/-- A wait is settled under a policy only while it is not exhausted. -/
theorem room_of_schedule {w : World} {a : Answer} {result : AttemptResult} {cfg : Config}
    {policy : RetryPolicy}
    (h : (w.schedule a result cfg (some policy)).handler.point.retrying = true) :
    policy.exhausted w.handler.attempt = false := by
  have hstop {stop : RetryStopReason}
      (heq : retryPolicyStop a.now cfg result w.handler.attempt (some policy) = stop)
      (hgoes : stop = .none ∨ w.overridden cfg result stop = true) :
      policy.exhausted w.handler.attempt = false := by
    rw [retryPolicyStop] at heq
    split at heq
    · next hpermanent =>
      rcases hgoes with hnone | hover
      · rw [← heq] at hnone
        cases hnone
      · simp [overridden, hpermanent] at hover
    · split at heq
      · subst heq
        simp [overridden] at hgoes
      split at heq
      · subst heq
        simp [overridden] at hgoes
      · next hroom => simpa using hroom
  simp only [schedule] at h
  split at h
  · next hgoes => exact hstop rfl hgoes
  · split at h
    · cases h
    · cases h
    · cases h

theorem within_schedule {w : World} (h : w.Within) {a : Answer} {result : AttemptResult}
    {cfg : Config} {policy : Option RetryPolicy}
    (hpoint : w.handler.point = .schedule result cfg policy)
    (hretrying : (w.schedule a result cfg policy).handler.point.retrying = true) :
    ∀ d ∈ w.policyLimit, (w.handler.attempt : Int) + 1 ≤ d := by
  rcases h.carried policy (by rw [hpoint]; rfl) with rfl | hroom
  · intro d hd
    obtain ⟨policy, hpolicy, hactive, hmax, rfl⟩ := mem_policyLimit.mp hd
    rw [Option.mem_def.mp hpolicy] at hretrying
    have hexhausted := room_of_schedule hretrying
    simp only [RetryPolicy.exhausted, Bool.decide_and, Bool.and_eq_false_iff,
      decide_eq_false_iff_not] at hexhausted
    omega
  · exact hroom

theorem Within.activatePolicy {w : World} (h : w.Within) (a : Answer) (result : AttemptResult)
    (cfg : Config) : (w.activatePolicy a result cfg).Within := by
  obtain ⟨hentry, hcarried⟩ := w.activatePolicy_entry a result cfg
  obtain ⟨hanswer, -, hpolicy⟩ :=
    w.entry.activateRetryPolicy_spec a.now w.handler.attempt a.persisted
  have hat : (w.activatePolicy a result cfg).upcoming = w.handler.attempt := by
    simp only [World.activatePolicy]
    split
    · rfl
    · rfl
  refine ⟨fun d hd => ?_, fun policy hin => .inl ?_⟩
  · rw [hat]
    rcases hpolicy with hsame | hbaseline
    · have hlimit : (w.activatePolicy a result cfg).policyLimit = w.policyLimit :=
        policyLimit_congr (by rw [hentry, hsame])
      rw [hlimit] at hd
      have := h.upcoming d hd
      have := w.attempt_le_upcoming
      omega
    · obtain ⟨policy, hin, -, hmax, rfl⟩ := mem_policyLimit.mp hd
      rw [hentry] at hin
      have := hbaseline policy hin
      omega
  · rw [hcarried, Option.mem_some_iff] at hin
    rw [← hin, hanswer, hentry]

theorem Within.handle {w : World} (h : w.Within) (a : Answer) : (w.handle a).Within := by
  by_cases hactivate : ∃ result cfg, w.handler.point = .activatePolicy result cfg
  · obtain ⟨result, cfg, hpoint⟩ := hactivate
    simp only [World.handle, hpoint]
    exact h.activatePolicy a result cfg
  push Not at hactivate
  rcases (w.handle_kept a hactivate).policy with hpolicy | hgone
  · have hlimit : (w.handle a).policyLimit = w.policyLimit := policyLimit_congr hpolicy
    have hroom (hretrying : (w.handle a).handler.point.retrying = true) :
        ∀ d ∈ w.policyLimit, (w.handler.attempt : Int) + 1 ≤ d := by
      intro d hd
      have hbefore : w.handler.point.retrying = true ∨
          ∃ result cfg policy, w.handler.point = .schedule result cfg policy := by
        rcases w.handle_leads a with heq | hleads
        · exact .inl (heq ▸ hretrying)
        · exact hleads.retrying hretrying
      rcases hbefore with hbefore | ⟨result, cfg, policy, hpoint⟩
      · have := h.upcoming d hd
        rw [World.upcoming, if_pos hbefore] at this
        omega
      · simp only [World.handle, hpoint] at hretrying
        exact within_schedule h hpoint hretrying d hd
    rcases w.handle_attempt a with hsame | ⟨⟨reason, hpoint⟩, hnext, hloop⟩
    · refine ⟨fun d hd => ?_, fun policy hin => ?_⟩
      · rw [hlimit] at hd
        rw [World.upcoming, hsame]
        split
        · next hretrying => exact hroom hretrying d hd
        · have := h.upcoming d hd
          have := w.attempt_le_upcoming
          omega
      · have hbefore : policy ∈ w.handler.point.carried := by
          rcases w.handle_leads a with heq | hleads
          · exact heq ▸ hin
          · rcases hleads.carried hin with hbefore | ⟨result, cfg, hpoint⟩
            · exact hbefore
            · exact absurd hpoint (hactivate result cfg)
        rw [hsame, hlimit, hpolicy]
        exact h.carried policy hbefore
    · refine ⟨fun d hd => ?_, fun policy hin => ?_⟩
      · rw [hlimit] at hd
        have := h.upcoming d hd
        rw [World.upcoming, if_pos (by rw [hpoint]; rfl)] at this
        rw [World.upcoming, hloop, hnext]
        exact this
      · rw [hloop] at hin
        cases hin
  · have hnone : (w.handle a).policyLimit = none := by
      rw [policyLimit, Entry.retryPolicy_of_gone hgone]
      rfl
    refine ⟨fun d hd => ?_, fun policy hin => .inr fun d hd => ?_⟩
    · rw [hnone] at hd
      cases hd
    · rw [hnone] at hd
      cases hd

theorem Within.outside {w : World} (h : w.Within) (hnumbered : w.Numbered) (event : Event)
    (hother : ∀ answer, event ≠ .handler answer) : (w.step event).Within := by
  have hhandler := (w.step_outside event hother).handler
  have hupcoming : (w.step event).upcoming = w.upcoming := by
    rw [World.upcoming, World.upcoming, hhandler]
  rcases (w.step_visited event hother).policy with hpolicy | hnew
  · have hlimit : (w.step event).policyLimit = w.policyLimit := policyLimit_congr hpolicy
    refine ⟨?_, ?_⟩
    · rw [hlimit, hupcoming]
      exact h.upcoming
    · rw [hlimit, hhandler, hpolicy]
      exact h.carried
  · refine ⟨fun d hd => ?_, fun policy hin => .inr fun d hd => ?_⟩
    · obtain ⟨policy, hpolicy, hactive, hmax, rfl⟩ := mem_policyLimit.mp hd
      obtain ⟨n, hn, hbaseline⟩ := hnew policy hpolicy hactive
      rw [hupcoming, World.upcoming]
      split
      · next hretrying =>
        have := hnumbered.shown (Point.shown_of_retrying hretrying) n hn
        omega
      · have := hnumbered.behind n hn
        omega
    · obtain ⟨policy', hpolicy, hactive, hmax, rfl⟩ := mem_policyLimit.mp hd
      obtain ⟨n, hn, hbaseline⟩ := hnew policy' hpolicy hactive
      rw [hhandler] at hin ⊢
      have := hnumbered.shown (Point.shown_of_carried hin) n hn
      omega

/-! ## Attempts that start -/

/-- A step that logs the start of an attempt goes on to select a target for it. -/
theorem started_of_step {w : World} {event : Event} {n : Nat}
    (h : .started n ∈ (w.step event).log) :
    .started n ∈ w.log ∨ n = (w.step event).handler.attempt ∧
      (w.step event).handler.point = .select := by
  by_cases hother : ∀ answer, event ≠ .handler answer
  · left
    rcases (w.step_outside event hother).log with heq | heq
    · rwa [heq] at h
    · simpa [heq] using h
  · push Not at hother
    obtain ⟨a, rfl⟩ := hother
    change .started n ∈ (w.handle a).log at h
    show _ ∨ n = (w.handle a).handler.attempt ∧ (w.handle a).handler.point = .select
    rcases w.handle_log a with heq | ⟨x, hnotes, heq⟩
    · exact .inl (heq ▸ h)
    · rw [heq, List.mem_append, List.mem_singleton] at h
      refine h.imp_right fun hx => ?_
      subst hx
      cases hnotes with
      | started hpoint =>
        simp only [handle, hpoint, attemptStarted] at heq ⊢
        split at heq
        · next hrecorded =>
          rw [if_pos hrecorded]
          exact ⟨rfl, rfl⟩
        · exact absurd heq (by simp [goto])

theorem attempt_le_step (w : World) (event : Event) :
    w.handler.attempt ≤ (w.step event).handler.attempt := by
  by_cases hother : ∀ answer, event ≠ .handler answer
  · rw [(w.step_outside event hother).handler]
  · push Not at hother
    obtain ⟨a, rfl⟩ := hother
    show w.handler.attempt ≤ (w.handle a).handler.attempt
    rcases w.handle_attempt a with heq | ⟨-, heq, -⟩
    · rw [heq]
    · rw [heq]
      exact Nat.le_succ _

/-- What holds of every state of a run. -/
structure Numbering (w : World) : Prop where
  tracked : w.Tracked
  numbered : w.Numbered
  within : w.Within
  started : ∀ n, .started n ∈ w.log → n ≤ w.handler.attempt

theorem numbering_start (request : Request) (config : Config) (governance : Governance.Manager)
    (pool : Upstream.Pool) : (start request config governance pool).Numbering := by
  refine ⟨tracked_start request config governance pool, ⟨?_, ?_⟩, ⟨?_, ?_⟩, nofun⟩
  · intro n hn
    exact Nat.le_add_left 1 n
  · intro hshown
    exact Bool.noConfusion hshown
  · intro d hd
    have hnone : (start request config governance pool).policyLimit = none := rfl
    rw [hnone] at hd
    cases hd
  · intro policy hin
    have hnone : (start request config governance pool).handler.point.carried = none := rfl
    rw [hnone] at hin
    cases hin

theorem Numbering.step {w : World} (h : w.Numbering) (event : Event) :
    (w.step event).Numbering := by
  have hstarted : ∀ n, .started n ∈ (w.step event).log → n ≤ (w.step event).handler.attempt := by
    intro n hn
    rcases started_of_step hn with hold | ⟨rfl, -⟩
    · exact Nat.le_trans (h.started n hold) (w.attempt_le_step event)
    · exact Nat.le_refl _
  by_cases hother : ∀ answer, event ≠ .handler answer
  · exact ⟨h.tracked.step event, h.numbered.outside event hother,
      h.within.outside h.numbered event hother, hstarted⟩
  · push Not at hother
    obtain ⟨a, rfl⟩ := hother
    exact ⟨h.tracked.step _, h.numbered.handle h.tracked a, h.within.handle a, hstarted⟩

theorem Numbering.starts_within {w : World} (h : w.Numbering) {policy : RetryPolicy}
    (hpolicy : w.entry.retryPolicy = some policy) (hactive : policy.active = true)
    (hmax : 0 < policy.maxAdditionalAttempts) {n : Nat} (hn : n ≤ w.handler.attempt) :
    (n : Int) ≤ policy.baselineAttempt + policy.maxAdditionalAttempts := by
  have hbound := h.within.upcoming _
    (mem_policyLimit.mpr ⟨policy, hpolicy, hactive, hmax, rfl⟩)
  have := w.attempt_le_upcoming
  omega

/-- The policy is neither replaced nor cleared, as long as the request is
tracked. -/
def Keeps (policy : RetryPolicy) (w : World) (event : Event) : Prop :=
  (w.step event).entry.request.isSome → (w.step event).entry.retryPolicy = some policy

/-- Where the policy in force has bounded the starts so far, it bounds the next
one. -/
theorem Numbering.starts_within_step {w : World} (h : w.Numbering) {policy : RetryPolicy}
    (hactive : policy.active = true) (hmax : 0 < policy.maxAdditionalAttempts)
    (hstarts : ∀ n : Nat, .started n ∈ w.log →
      (n : Int) ≤ policy.baselineAttempt + policy.maxAdditionalAttempts)
    {event : Event} (hkeeps : Keeps policy w event) :
    ∀ n : Nat, .started n ∈ (w.step event).log →
      (n : Int) ≤ policy.baselineAttempt + policy.maxAdditionalAttempts := by
  intro n hn
  rcases started_of_step hn with hold | ⟨rfl, hselect⟩
  · exact hstarts n hold
  · have hafter := h.step event
    obtain ⟨status, -, hstate⟩ := hafter.tracked.state (by rw [hselect]; rfl)
    obtain ⟨request, hrequest, -⟩ := Option.map_eq_some_iff.mp hstate
    exact hafter.starts_within (hkeeps (by rw [hrequest]; rfl)) hactive hmax (Nat.le_refl _)

/-! ## Attempts without a policy -/

/-- An operator's word resumes an uncertain wait with the event. -/
def resumes (w : World) : Event → Bool
  | .handler a =>
      match w.handler.point with
      | .manualWait _ _ _ => a.wake = .retryNow && w.entry.retryNow
      | _ => false
  | _ => false

/-- How often a run resumes an uncertain wait. -/
def resumptions (w : World) : List Event → Nat
  | [] => 0
  | event :: rest => (if w.resumes event then 1 else 0) + (w.step event).resumptions rest

/-- How many attempts have started. -/
def starts (w : World) : Nat :=
  w.log.countP fun
    | .started _ => true
    | _ => false

/-- No policy is set, and after `c` resumptions each attempt is one of the `n`
that the configuration allows or one of the `c` an operator asked for. -/
structure Allowed (n c : Nat) (w : World) : Prop where
  limit : w.config.retry.maxAttempts = n
  policy : w.entry.retryPolicy = none
  upcoming : w.upcoming ≤ n + c
  manual : w.handler.point.deciding = true → w.handler.manualUncertainRetry = true →
    w.handler.attempt + 1 ≤ n + c
  carried : ∀ policy ∈ w.handler.point.carried, policy = none
  plan : ∀ cfg ∈ w.handler.point.plan, cfg = w.config
  starts : w.starts + (if w.handler.point.unstarted then 1 else 0) ≤ w.handler.attempt

/-- The flag of a resumed wait is touched in two places only. -/
theorem handle_manual (w : World) (a : Answer)
    (hfailed : ∀ result, w.handler.point ≠ .attemptFailed result)
    (hparked : ∀ result cfg policy, w.handler.point ≠ .manualWait result cfg policy) :
    (w.handle a).handler.manualUncertainRetry = w.handler.manualUncertainRetry := by
  by_cases hcalling : w.handler.point.calling = true
  · obtain ⟨governance, pool, log, route, reservation, point, heq, -⟩ := w.handle_ahead a hcalling
    rw [heq]
  simp only [handle]
  cases hat : w.handler.point with
  | evaluatePolicy =>
    simp only [evaluatePolicy]
    split
    · rfl
    · rfl
  | admitContext =>
    simp only [admitContext]
    split
    · rfl
    split
    · rfl
    · rfl
  | startDownstream =>
    simp only [startDownstream]
    split
    · rfl
    · obtain ⟨ctx, heq⟩ := onDisconnect_cases { w with
        downstream := w.downstream.start, handler.started := a.now, handler.point := .acquire }
      rw [heq]
  | acquire =>
    simp only [acquire]
    split <;> try split
    all_goals rfl
  | pauseWait =>
    simp only [pauseWait]
    split <;> try split
    all_goals rfl
  | retryGate =>
    simp only [retryGate]
    split
    · rfl
    · split <;> try split
      all_goals rfl
  | attemptStarted =>
    simp only [attemptStarted]
    split
    · rfl
    · rfl
  | deliver result =>
    simp only [deliver]
    split <;> try split
    all_goals rfl
  | classify result =>
    simp only [classify]
    split <;> try split
    all_goals rfl
  | attemptFailed result => exact absurd hat (hfailed result)
  | awaitRetry result =>
    simp only [awaitRetry]
    split
    · rfl
    · rfl
  | activatePolicy result cfg =>
    simp only [activatePolicy]
    split
    · rfl
    · rfl
  | manualWait result cfg policy => exact absurd hat (hparked result cfg policy)
  | schedule result cfg policy =>
    simp only [schedule]
    split
    · split
      · rfl
      · rfl
    · split
      · rfl
      · rfl
      · rfl
  | retryWait result ready =>
    simp only [retryWait]
    split <;> split
    all_goals rfl
  | checkDeadline result resumeReason =>
    simp only [checkDeadline]
    split
    · rfl
    · rfl
  | reacquire resumeReason =>
    simp only [reacquire]
    split <;> try split
    all_goals rfl
  | fail message =>
    simp only [fail]
    split
    · rfl
    · rfl
  | stopHeartbeat =>
    simp only [stopHeartbeat]
    split
    · rfl
    · rfl
  | finish =>
    simp only [finish]
    split
    · rfl
    · rfl
    split
    · split
      · rfl
      · rfl
    · rfl
  | releaseDeferred =>
    simp only [releaseDeferred]
    split
    · rfl
    · rfl
  | loop | forwarding | buffering _ | delivering _ | completed | holdUncertain _ _ _
  | remove | returned => rfl
  | select | bindUpstream _ | beginAttempt _ | refused _ _ | exchange _ | settle _
  | judge _ | releaseReservation _ =>
    rw [hat] at hcalling
    exact absurd rfl hcalling

variable {n c : Nat} {w : World} {a : Answer}

/-- Without a policy a wait is settled while `MaxAttempts` leaves room, or on an
operator's word. -/
theorem Allowed.schedule (h : w.Allowed n c) (hn : 0 < n) {result : AttemptResult} {cfg : Config}
    {policy : Option RetryPolicy} (hpoint : w.handler.point = .schedule result cfg policy)
    (hretrying : (w.schedule a result cfg policy).handler.point.retrying = true) :
    w.handler.attempt + 1 ≤ n + c := by
  obtain rfl : policy = none := h.carried policy (by rw [hpoint]; rfl)
  obtain rfl : cfg = w.config := h.plan cfg (by rw [hpoint]; rfl)
  simp only [World.schedule] at hretrying
  split at hretrying
  · next hgoes =>
    rcases hgoes with hnone | hover
    · rw [retryPolicyStop] at hnone
      split at hnone
      · cases hnone
      · split at hnone
        · cases hnone
        · next hallowed =>
          simp only [Bool.or_eq_true, Bool.and_eq_true, decide_eq_true_eq, not_or, not_and,
            h.limit] at hallowed
          have := hallowed.2 hn
          omega
    · simp only [overridden, Bool.and_eq_true] at hover
      exact h.manual (by rw [hpoint]; rfl) hover.1.1.1
  · split at hretrying
    · cases hretrying
    · cases hretrying
    · cases hretrying

theorem Allowed.mono (h : w.Allowed n c) {c' : Nat} (hle : c ≤ c') : w.Allowed n c' where
  limit := h.limit
  policy := h.policy
  upcoming := Nat.le_trans h.upcoming (Nat.add_le_add_left hle n)
  manual hdeciding hmanual :=
    Nat.le_trans (h.manual hdeciding hmanual) (Nat.add_le_add_left hle n)
  carried := h.carried
  plan := h.plan
  starts := h.starts

/-- A step logs at most one start, from where it logs starts. -/
theorem starts_handle (w : World) (a : Answer) :
    (w.handle a).starts = w.starts ∨
      (w.handle a).starts = w.starts + 1 ∧ w.handler.point = .attemptStarted ∧
        (w.handle a).handler.point = .select := by
  rcases w.handle_log a with heq | ⟨x, hnotes, heq⟩
  · left
    rw [starts, starts, heq]
  · have hstarts : (w.handle a).starts = w.starts + [x].countP fun
        | .started _ => true
        | _ => false := by
      rw [starts, starts, heq, List.countP_append]
    cases hnotes with
    | started hpoint =>
      refine .inr ⟨hstarts, hpoint, ?_⟩
      simp only [handle, hpoint, attemptStarted] at heq ⊢
      split at heq
      · next hrecorded =>
        rw [if_pos hrecorded]
        rfl
      · exact absurd heq (by simp [goto])
    | unselected | begun | ended | recorded | uncertain => exact .inl hstarts

theorem Allowed.starts_handle (h : w.Allowed n c) (a : Answer) :
    (w.handle a).starts + (if (w.handle a).handler.point.unstarted then 1 else 0) ≤
      (w.handle a).handler.attempt := by
  have hle : w.handler.attempt ≤ (w.handle a).handler.attempt :=
    w.attempt_le_step (.handler a)
  have hbefore := h.starts
  rcases w.starts_handle a with hsame | ⟨hnext, hpoint, hselect⟩
  · rw [hsame]
    split
    · next hunstarted =>
      have hcases : w.handler.point.unstarted = true ∨
          ∃ reason, w.handler.point = .reacquire reason := by
        rcases w.handle_leads a with heq | hleads
        · exact .inl (heq ▸ hunstarted)
        · exact (hleads.unstarted hunstarted).imp_left And.left
      rcases hcases with hstill | ⟨reason, hpoint⟩
      · rw [if_pos hstill] at hbefore
        omega
      · have hnext : (w.handle a).handler.attempt = w.handler.attempt + 1 := by
          simp only [World.handle, hpoint, reacquire] at hunstarted ⊢
          split at hunstarted
          · rfl
          · cases hunstarted
          · split at hunstarted
            · cases hunstarted
            · rw [hpoint] at hunstarted
              cases hunstarted
        omega
    · omega
  · rw [hnext, hselect]
    rw [hpoint] at hbefore
    exact Nat.le_trans hbefore hle

theorem Allowed.upcoming_handle (h : w.Allowed n c) (hn : 0 < n) (a : Answer) :
    (w.handle a).upcoming ≤ n + c := by
  have hupcoming := h.upcoming
  have hattempt := w.attempt_le_upcoming
  rcases w.handle_attempt a with hsame | ⟨⟨reason, hpoint⟩, hnext, hloop⟩
  · rw [World.upcoming, hsame]
    split
    · next hretrying =>
      have hbefore : w.handler.point.retrying = true ∨
          ∃ result cfg policy, w.handler.point = .schedule result cfg policy := by
        rcases w.handle_leads a with heq | hleads
        · exact .inl (heq ▸ hretrying)
        · exact hleads.retrying hretrying
      rcases hbefore with hbefore | ⟨result, cfg, policy, hpoint⟩
      · rwa [World.upcoming, if_pos hbefore] at hupcoming
      · simp only [World.handle, hpoint] at hretrying
        exact h.schedule hn hpoint hretrying
    · omega
  · rw [World.upcoming, if_pos (by rw [hpoint]; rfl)] at hupcoming
    rw [World.upcoming, hloop, hnext]
    exact hupcoming

theorem Allowed.manual_handle (h : w.Allowed n c) (a : Answer)
    (hdeciding : (w.handle a).handler.point.deciding = true)
    (hmanual : (w.handle a).handler.manualUncertainRetry = true) :
    w.handler.attempt + 1 ≤ n + (c + if w.resumes (.handler a) then 1 else 0) := by
  have hupcoming := h.upcoming
  have hattempt := w.attempt_le_upcoming
  by_cases hfailed : ∃ result, w.handler.point = .attemptFailed result
  · obtain ⟨result, hpoint⟩ := hfailed
    simp only [World.handle, hpoint, attemptFailed] at hdeciding hmanual
    split at hmanual
    · cases hmanual
    · next hunrecorded =>
      rw [if_neg hunrecorded] at hdeciding
      cases hdeciding
  by_cases hparked : ∃ result cfg policy, w.handler.point = .manualWait result cfg policy
  · obtain ⟨result, cfg, policy, hpoint⟩ := hparked
    by_cases hresumes : w.resumes (.handler a) = true
    · rw [if_pos hresumes]
      omega
    · have hstill : w.handler.manualUncertainRetry = true := by
        simp only [resumes, hpoint] at hresumes
        simp only [World.handle, hpoint, manualWait] at hmanual
        split at hmanual
        · split at hmanual
          · exact hmanual
          · exact hmanual
        · next hwake =>
          split at hmanual
          · next hretry => exact absurd (by simp [hwake, hretry]) hresumes
          · exact hmanual
        · split at hmanual
          · exact hmanual
          · exact hmanual
        · exact hmanual
      have := h.manual (by rw [hpoint]; rfl) hstill
      omega
  push Not at hfailed hparked
  rw [w.handle_manual a hfailed hparked] at hmanual
  have hcases : w.handler.point.deciding = true ∨ w.handler.point.retrying = true := by
    rcases w.handle_leads a with heq | hleads
    · exact .inl (heq ▸ hdeciding)
    · rcases hleads.deciding hdeciding with hbefore | ⟨result, hpoint⟩ | hbefore
      · exact .inl hbefore
      · exact absurd hpoint (hfailed result)
      · exact .inr hbefore
  rcases hcases with hbefore | hbefore
  · have := h.manual hbefore hmanual
    omega
  · rw [World.upcoming, if_pos hbefore] at hupcoming
    omega

theorem Allowed.handle (h : w.Allowed n c) (hn : 0 < n)
    (hpolicy : (w.handle a).entry.retryPolicy = none) :
    (w.handle a).Allowed n (c + if w.resumes (.handler a) then 1 else 0) := by
  have hconfig : (w.handle a).config = w.config := (w.handle_cfg a).2.1
  refine ⟨by rw [hconfig, h.limit], hpolicy, ?_, ?_, ?_, ?_, h.starts_handle a⟩
  · have := h.upcoming_handle hn a
    omega
  · intro hdeciding hmanual
    have hattempt : (w.handle a).handler.attempt = w.handler.attempt := by
      rcases w.handle_attempt a with heq | ⟨-, -, hloop⟩
      · exact heq
      · rw [hloop] at hdeciding
        cases hdeciding
    rw [hattempt]
    exact h.manual_handle a hdeciding hmanual
  · intro policy hin
    have hcases : policy ∈ w.handler.point.carried ∨
        ∃ result cfg, w.handler.point = .activatePolicy result cfg := by
      rcases w.handle_leads a with heq | hleads
      · exact .inl (heq ▸ hin)
      · exact hleads.carried hin
    rcases hcases with hbefore | ⟨result, cfg, hpoint⟩
    · exact h.carried policy hbefore
    · obtain ⟨hentry, hcarried⟩ := w.activatePolicy_entry a result cfg
      obtain ⟨hanswer, -⟩ :=
        w.entry.activateRetryPolicy_spec a.now w.handler.attempt a.persisted
      simp only [World.handle, hpoint] at hin hpolicy
      rw [hcarried, Option.mem_some_iff] at hin
      rw [← hin, hanswer, ← hentry, hpolicy]
  · intro cfg hin
    have hcases : cfg ∈ w.handler.point.plan ∨
        ∃ result, w.handler.point = .awaitRetry result := by
      rcases w.handle_leads a with heq | hleads
      · exact .inl (heq ▸ hin)
      · exact hleads.plan hin
    rw [hconfig]
    rcases hcases with hbefore | ⟨result, hpoint⟩
    · exact h.plan cfg hbefore
    · simp only [World.handle, hpoint, awaitRetry] at hin
      split at hin
      · cases hin
      · exact (Option.some.inj hin).symm

theorem Allowed.outside (h : w.Allowed n c) {event : Event}
    (hother : ∀ answer, event ≠ .handler answer) (hfixed : ∀ cfg, event ≠ .configure cfg)
    (hpolicy : (w.step event).entry.retryPolicy = none) : (w.step event).Allowed n c := by
  have houtside := w.step_outside event hother
  have hhandler := houtside.handler
  have hconfig : (w.step event).config = w.config := by
    rcases houtside.config with heq | ⟨cfg, hconfigure, -⟩
    · exact heq
    · exact absurd hconfigure (hfixed cfg)
  have hstarts : (w.step event).starts = w.starts := by
    rcases houtside.log with heq | heq
    · rw [World.starts, World.starts, heq]
    · rw [World.starts, World.starts, heq, List.countP_append]
      rfl
  refine ⟨by rw [hconfig, h.limit], hpolicy, ?_, ?_, ?_, ?_, ?_⟩
  · rw [World.upcoming, hhandler]
    exact h.upcoming
  · rw [hhandler]
    exact h.manual
  · rw [hhandler]
    exact h.carried
  · rw [hhandler, hconfig]
    exact h.plan
  · rw [hstarts, hhandler]
    exact h.starts

/-- Nobody sets a policy with the event, and the configuration stays. -/
def Unset (w : World) (event : Event) : Prop :=
  (w.step event).entry.retryPolicy = none ∧ ∀ cfg, event ≠ .configure cfg

theorem Allowed.step (h : w.Allowed n c) (hn : 0 < n) {event : Event} (hunset : w.Unset event) :
    (w.step event).Allowed n (c + if w.resumes event then 1 else 0) := by
  by_cases hother : ∀ answer, event ≠ .handler answer
  · exact (h.outside hother hunset.2 hunset.1).mono (Nat.le_add_right _ _)
  · push Not at hother
    obtain ⟨a, rfl⟩ := hother
    exact h.handle hn hunset.1

theorem Allowed.run (h : w.Allowed n c) (hn : 0 < n) {events : List Event}
    (hunset : Along World.step Unset w events) :
    (w.run events).Allowed n (c + w.resumptions events) := by
  induction events generalizing w c with
  | nil => exact h
  | cons event rest ih =>
    have hrest := ih (h.step hn hunset.1) hunset.2
    rwa [Nat.add_assoc] at hrest

theorem allowed_start (request : Request) (config : Config) (governance : Governance.Manager)
    (pool : Upstream.Pool) (hn : 0 < config.retry.maxAttempts) :
    (start request config governance pool).Allowed config.retry.maxAttempts 0 := by
  refine ⟨rfl, rfl, hn, ?_, ?_, ?_, Nat.le_refl 1⟩
  · intro hdeciding
    exact Bool.noConfusion hdeciding
  · intro policy hin
    have hnone : (start request config governance pool).handler.point.carried = none := rfl
    rw [hnone] at hin
    cases hin
  · intro cfg hin
    have hnone : (start request config governance pool).handler.point.plan = none := rfl
    rw [hnone] at hin
    cases hin

theorem run_append (w : World) (front rest : List Event) :
    w.run (front ++ rest) = (w.run front).run rest := List.foldl_append

/-- **Bounded attempts.** Once a policy that allows `k` more attempts counts from
attempt `b`, and as long as it is neither replaced nor cleared, no attempt past
`b + k` has started, whatever signals and timers end the waits. Where no policy
is ever set and `MaxAttempts` is positive, it bounds how many attempts start,
with one more for each time an operator resumed an uncertain wait. -/
theorem attempts_bounded (request : Request) (config : Config) (governance : Governance.Manager)
    (pool : Upstream.Pool) :
    let w := start request config governance pool
    (∀ (front rest : List Event) (policy : RetryPolicy),
      (w.run front).entry.retryPolicy = some policy → policy.active = true →
      0 < policy.maxAdditionalAttempts → Along World.step (Keeps policy) (w.run front) rest →
      ∀ n : Nat, .started n ∈ (w.run (front ++ rest)).log →
        (n : Int) ≤ policy.baselineAttempt + policy.maxAdditionalAttempts) ∧
    ∀ events : List Event, 0 < config.retry.maxAttempts → Along World.step Unset w events →
      (w.run events).starts ≤ config.retry.maxAttempts + w.resumptions events := by
  intro w
  constructor
  · intro front rest policy hpolicy hactive hmax hkeeps
    have hfront : (w.run front).Numbering :=
      foldl_invariant (P := Numbering) (fun s i h => h.step i)
        (numbering_start request config governance pool) front
    have hstarts : ∀ n : Nat, .started n ∈ (w.run front).log →
        (n : Int) ≤ policy.baselineAttempt + policy.maxAdditionalAttempts :=
      fun n hn => hfront.starts_within hpolicy hactive hmax (hfront.started n hn)
    rw [run_append]
    exact (Along.invariant
      (P := fun s : World => s.Numbering ∧ ∀ n : Nat, .started n ∈ s.log →
        (n : Int) ≤ policy.baselineAttempt + policy.maxAdditionalAttempts)
      (fun s i h hi => ⟨h.1.step i, h.1.starts_within_step hactive hmax h.2 hi⟩)
      ⟨hfront, hstarts⟩ hkeeps).2
  · intro events hn hunset
    have hrun := (allowed_start request config governance pool hn).run hn hunset
    rw [Nat.zero_add] at hrun
    calc (w.run events).starts
        ≤ (w.run events).handler.attempt := Nat.le_trans (Nat.le_add_right _ _) hrun.starts
      _ ≤ (w.run events).upcoming := (w.run events).attempt_le_upcoming
      _ ≤ config.retry.maxAttempts + w.resumptions events := hrun.upcoming

instance (policy : RetryPolicy) (w : World) (event : Event) : Decidable (Keeps policy w event) :=
  inferInstanceAs (Decidable (_ → _))

/-- One attempt for each request. -/
def single : Config where
  retry := { minInterval := second, maxInterval := second, maxAttempts := 1 }

/-- Three more attempts from the first one, at once. -/
def three : RetryPolicy where
  duration := 5 * second
  schedule := { mode := .immediate }
  maxAdditionalAttempts := 3
  honorRetryAfter := false
  appliedAt := second
  activatedAt := second
  deadline := 6 * second
  baselineAttempt := 1

/-- An operator sets that policy on a waiting request. -/
def threeMore : List Event :=
  usual 18 ++
    [.applyRetryPolicy second
      { duration := 5 * second, schedule := { mode := .immediate }, maxAdditionalAttempts := 3 }
      false true true]

/-- The one attempt loses its response, and an operator asks for a compensation. -/
def insisted : List Event :=
  usual 10 ++ [.handler { exchange := .failed true false }] ++ usual 7 ++
    [.resolveUncertain 0 .requestCompensation true, .sendCompensation,
      .handler { wake := .retryNow }] ++ usual 1 ++ stepsAt second 29

/-- The fourth attempt is the last one under the policy, and the second without
one. -/
theorem attempts_bounded_threeMore :
    ((∀ n : Nat, .started n ∈ ((before {} everySecond).run (threeMore ++ stepsAt second 60)).log →
        (n : Int) ≤ three.baselineAttempt + three.maxAdditionalAttempts) ∧
      .started 4 ∈ ((before {} everySecond).run (threeMore ++ stepsAt second 60)).log) ∧
    ((before {} single).run insisted).starts ≤ 1 + (before {} single).resumptions insisted ∧
      ((before {} single).run insisted).starts = 2 ∧
      (before {} single).resumptions insisted = 1 := by
  have hunset : Along World.step Unset (before {} single) insisted := by
    have hpolicy : Along World.step (fun w event => (w.step event).entry.retryPolicy = none)
        (before {} single) insisted := by decide +kernel
    have hfixed : ∀ event ∈ insisted, ∀ cfg, event ≠ .configure cfg := by
      rintro event hevent cfg rfl
      simp [insisted, usual, stepsAt] at hevent
    exact hpolicy.and (.of_forall hfixed)
  exact ⟨⟨(attempts_bounded {} everySecond _ _).1 threeMore (stepsAt second 60) three (by decide +kernel)
      (by decide) (by decide) (by decide +kernel), by decide +kernel⟩,
    (attempts_bounded {} single _ _).2 insisted (by decide) hunset, by decide +kernel,
    by decide +kernel⟩

end World

end RelayLifeline.Proxy
