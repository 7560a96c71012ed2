import RelayLifeline.Governance.Observe
import RelayLifeline.Proxy.Effects
import RelayLifeline.Proxy.Repeat

/-!
# The ledger and the client

In observe mode a failed write of the usage ledger should stay the operator's
business. Two runs that differ in their ledgers alone go in step: the handler
makes the same calls, and the managers answer them the same. Only where the
handler looks at the error of a release before it delivers can the runs part.
-/

namespace RelayLifeline.Proxy

open Lib Lifecycle Registry

/-- The points that call the governance manager. -/
def Point.governing : Point → Bool
  | .admitContext | .bindUpstream _ | .beginAttempt _ | .settle _ | .releaseReservation _
  | .releaseDeferred => true
  | _ => false

namespace World

/-- A step at any other point does not look at the manager. -/
theorem handle_over (w : World) (a : Answer) (governance : Governance.Manager)
    (h : w.handler.point.governing = false) :
    { w with governance := governance }.handle a =
      { w.handle a with governance := governance } ∧ (w.handle a).governance = w.governance := by
  simp only [handle]
  cases hpoint : w.handler.point with
  | evaluatePolicy =>
      simp only [evaluatePolicy]
      split
      · exact ⟨rfl, rfl⟩
      · exact ⟨rfl, rfl⟩
  | startDownstream =>
      simp only [startDownstream, onDisconnect]
      split
      · exact ⟨rfl, rfl⟩
      · split
        · exact ⟨rfl, rfl⟩
        · exact ⟨rfl, rfl⟩
  | acquire =>
      simp only [acquire]
      split
      · exact ⟨rfl, rfl⟩
      · exact ⟨rfl, rfl⟩
      · split
        · exact ⟨rfl, rfl⟩
        · exact ⟨rfl, rfl⟩
  | loop => exact ⟨rfl, rfl⟩
  | pauseWait =>
      simp only [pauseWait]
      split
      · split
        · exact ⟨rfl, rfl⟩
        · exact ⟨rfl, rfl⟩
      · exact ⟨rfl, rfl⟩
  | retryGate =>
      simp only [retryGate]
      split
      · exact ⟨rfl, rfl⟩
      · split
        · split
          · exact ⟨rfl, rfl⟩
          · exact ⟨rfl, rfl⟩
        · exact ⟨rfl, rfl⟩
        · exact ⟨rfl, rfl⟩
  | forwarding => exact ⟨rfl, rfl⟩
  | attemptStarted =>
      simp only [attemptStarted]
      split
      · exact ⟨rfl, rfl⟩
      · exact ⟨rfl, rfl⟩
  | select =>
      simp only [select, selection]
      split
      · exact ⟨rfl, rfl⟩
      · exact ⟨rfl, rfl⟩
  | refused lease reason => exact ⟨rfl, rfl⟩
  | exchange lease => exact ⟨rfl, rfl⟩
  | judge result =>
      simp only [judge]
      split
      · exact ⟨rfl, rfl⟩
      · split
        · exact ⟨rfl, rfl⟩
        · exact ⟨rfl, rfl⟩
  | buffering result => exact ⟨rfl, rfl⟩
  | delivering result => exact ⟨rfl, rfl⟩
  | deliver result =>
      simp only [deliver]
      split
      · split
        · exact ⟨rfl, rfl⟩
        · exact ⟨rfl, rfl⟩
      · exact ⟨rfl, rfl⟩
  | completed => exact ⟨rfl, rfl⟩
  | classify result =>
      simp only [classify]
      split
      · exact ⟨rfl, rfl⟩
      · split
        · exact ⟨rfl, rfl⟩
        · exact ⟨rfl, rfl⟩
  | attemptFailed result =>
      have hevent : ({ w with governance := governance } : World).attemptEvent .attemptFailed result =
          w.attemptEvent .attemptFailed result := rfl
      simp only [attemptFailed, hevent]
      split
      · exact ⟨rfl, rfl⟩
      · exact ⟨rfl, rfl⟩
  | awaitRetry result =>
      simp only [awaitRetry]
      split
      · exact ⟨rfl, rfl⟩
      · exact ⟨rfl, rfl⟩
  | activatePolicy result cfg =>
      simp only [activatePolicy]
      split
      · exact ⟨rfl, rfl⟩
      · exact ⟨rfl, rfl⟩
  | holdUncertain result cfg policy => exact ⟨rfl, rfl⟩
  | manualWait result cfg policy =>
      simp only [manualWait]
      split
      all_goals try split
      all_goals exact ⟨rfl, rfl⟩
  | schedule result cfg policy =>
      have hover (stop : RetryStopReason) :
          ({ w with governance := governance } : World).overridden cfg result stop =
            w.overridden cfg result stop := rfl
      simp only [schedule, hover]
      split
      · split
        · exact ⟨rfl, rfl⟩
        · exact ⟨rfl, rfl⟩
      · split
        · exact ⟨rfl, rfl⟩
        · exact ⟨rfl, rfl⟩
        · exact ⟨rfl, rfl⟩
  | retryWait result ready =>
      simp only [retryWait]
      split
      all_goals split
      all_goals exact ⟨rfl, rfl⟩
  | checkDeadline result resumeReason =>
      simp only [checkDeadline]
      split
      · exact ⟨rfl, rfl⟩
      · exact ⟨rfl, rfl⟩
  | reacquire resumeReason =>
      simp only [reacquire]
      split
      · exact ⟨rfl, rfl⟩
      · exact ⟨rfl, rfl⟩
      · split
        · exact ⟨rfl, rfl⟩
        · exact ⟨rfl, rfl⟩
  | fail message =>
      simp only [fail]
      split
      · exact ⟨rfl, rfl⟩
      · exact ⟨rfl, rfl⟩
  | stopHeartbeat =>
      simp only [stopHeartbeat]
      split
      · exact ⟨rfl, rfl⟩
      · exact ⟨rfl, rfl⟩
  | finish =>
      simp only [finish]
      split
      · exact ⟨rfl, rfl⟩
      · exact ⟨rfl, rfl⟩
      · split
        · split
          · exact ⟨rfl, rfl⟩
          · exact ⟨rfl, rfl⟩
        · exact ⟨rfl, rfl⟩
  | remove => exact ⟨rfl, rfl⟩
  | returned => exact ⟨rfl, rfl⟩
  | admitContext | bindUpstream _ | beginAttempt _ | settle _ | releaseReservation _
  | releaseDeferred => simp [hpoint, Point.governing] at h

/-- Nothing reads governance as anything but observe. -/
structure Observing (w : World) : Prop where
  config : w.config.enforcing = false
  cfg : w.handler.cfg.enforcing = false
  manager : w.governance.enforcing = false

/-- An event that leaves governance in observe mode. -/
def KeepsObserving : Event → Prop
  | .configure cfg => cfg.enforcing = false
  | .govern action => action.KeepsObserving
  | _ => True

/-- The same event, but for how the ledger's file is rewritten. -/
inductive SameButLedger : Event → Event → Prop
  | same (event : Event) : SameButLedger event event
  | govern {action action' : Governance.Action} (h : action.SameButLedger action') :
      SameButLedger (.govern action) (.govern action')

/-- Two worlds that differ in what the governance manager wrote, and no more. -/
def Lockstep (w w' : World) : Prop :=
  ∃ governance, w' = { w with governance := governance } ∧ w.governance.Alike governance

/-- A release before delivery, if there is one, is written. -/
def writesRelease (w : World) : Event → Bool
  | .handler a =>
      match w.handler.point with
      | .releaseReservation _ => w.handler.reservation.all fun id =>
          (w.governance.release a.clock id).2.isNone
      | _ => true
  | _ => true

variable {w w' : World}

theorem governed_observe (w : World) (lease : Nat) (decision : Governance.Decision)
    (error : Option Governance.Error) (hobserve : w.handler.cfg.enforcing = false) :
    w.governed lease decision error = w.goto (.exchange lease) := by
  simp only [governed, hobserve]
  split
  · rfl
  · rfl

theorem Lockstep.admitContext (h : w.Lockstep w') (hobserving : Observing w) (a : Answer) :
    (w.admitContext a).Lockstep (w'.admitContext a) := by
  obtain ⟨governance, rfl, halike⟩ := h
  obtain ⟨hkept, herror⟩ := halike.admitWithContext a.clock hobserving.manager a.requestCanceled
    a.reservationID { w.request.admission with upstream := w.handler.decision.targetID }
  simp only [World.admitContext]
  generalize w.governance.admitWithContext a.clock a.requestCanceled a.reservationID
    { w.request.admission with upstream := w.handler.decision.targetID } = admitted at *
  generalize governance.admitWithContext a.clock a.requestCanceled a.reservationID
    { w.request.admission with upstream := w.handler.decision.targetID } = admitted' at *
  simp only [herror, hobserving.cfg, Bool.false_eq_true, if_false]
  split
  · exact ⟨_, rfl, hkept⟩
  · exact ⟨_, rfl, hkept⟩

/-- In observe mode a binding decides nothing but whether a later attempt is
begun. -/
theorem bindUpstream_observe (w : World) (a : Answer) (lease : Nat) (id : String)
    (hid : w.handler.reservation = some id) (hobserve : w.handler.cfg.enforcing = false) :
    w.bindUpstream a lease =
      if w.handler.attempt = 1 then
        { w with
          governance := (w.governance.bindUpstreamWithDecision a.clock id (w.target lease).id).1
          handler.point := .exchange lease }
      else if trimSpace (w.target lease).id = "" then
        (w.note (.begun w.handler.attempt)).goto (.beginAttempt lease)
      else
        { w.note (.begun w.handler.attempt) with
          governance := (w.governance.bindUpstreamWithDecision a.clock id (w.target lease).id).1
          handler.point :=
            if (w.governance.bindUpstreamWithDecision a.clock id (w.target lease).id).2.2.isNone then
              .beginAttempt lease
            else .exchange lease } := by
  have hobserve' (log : List Happening) (governance : Governance.Manager) :
      ({ w with log, governance } : World).handler.cfg.enforcing = false := hobserve
  have htarget (log : List Happening) :
      ({ w with log } : World).target lease = w.target lease := rfl
  simp only [World.bindUpstream, note]
  split
  · rename_i hnone
    simp [hid] at hnone
  · rename_i id' hid'
    obtain rfl := Option.some.inj (hid.symm.trans hid')
    simp only [htarget]
    generalize w.governance.bindUpstreamWithDecision a.clock id (w.target lease).id = bound
    obtain ⟨governance, decision, error⟩ := bound
    split
    · exact governed_observe _ _ _ _ (hobserve' _ _)
    · split
      · rfl
      · cases error with
        | none => rfl
        | some error => exact governed_observe _ _ _ _ (hobserve' _ _)

theorem Lockstep.bindUpstream (h : w.Lockstep w') (hobserving : Observing w) (a : Answer)
    (lease : Nat) : (w.bindUpstream a lease).Lockstep (w'.bindUpstream a lease) := by
  obtain ⟨governance, rfl, halike⟩ := h
  cases hid : w.handler.reservation with
  | none =>
      simp only [World.bindUpstream, hid]
      exact ⟨_, rfl, halike⟩
  | some id =>
      have htarget : ({ w with governance } : World).target lease = w.target lease := rfl
      obtain ⟨hkept, herror⟩ := halike.bindUpstreamWithDecision a.clock hobserving.manager id
        (w.target lease).id
      rw [bindUpstream_observe w a lease id hid hobserving.cfg,
        bindUpstream_observe { w with governance } a lease id hid hobserving.cfg]
      simp only [htarget, herror]
      split
      · exact ⟨_, rfl, hkept⟩
      · split
        · exact ⟨_, rfl, halike⟩
        · exact ⟨_, rfl, hkept⟩

theorem Lockstep.beginAttempt (h : w.Lockstep w') (hobserving : Observing w) (a : Answer)
    (lease : Nat) : (w.beginAttempt a lease).Lockstep (w'.beginAttempt a lease) := by
  obtain ⟨governance, rfl, halike⟩ := h
  simp only [World.beginAttempt]
  split
  · exact ⟨_, rfl, halike⟩
  · rename_i id _
    obtain ⟨hkept, -⟩ := halike.begin a.clock hobserving.manager id
      (trimSpace (attemptName w.handler.attempt))
    generalize w.governance.begin a.clock id (trimSpace (attemptName w.handler.attempt)) = begun at *
    generalize governance.begin a.clock id (trimSpace (attemptName w.handler.attempt)) = begun' at *
    have hobserve (governance : Governance.Manager) :
        ({ w with governance } : World).handler.cfg.enforcing = false := hobserving.cfg
    rw [governed_observe _ _ _ _ (hobserve _), governed_observe _ _ _ _ (hobserve _)]
    exact ⟨_, rfl, hkept⟩

theorem Lockstep.settle (h : w.Lockstep w') (hobserving : Observing w) (a : Answer)
    (result : AttemptResult) : (w.settle a result).Lockstep (w'.settle a result) := by
  obtain ⟨governance, rfl, halike⟩ := h
  simp only [World.settle]
  split
  · exact ⟨_, rfl, halike⟩
  · rename_i id _
    split
    · have hkept := halike.record a.clock hobserving.manager id (attemptName w.handler.attempt)
        result.usage
      have hobserve : w.handler.cfg.enforcing = false := hobserving.cfg
      generalize w.governance.record a.clock id (attemptName w.handler.attempt) result.usage =
        recorded at *
      generalize governance.record a.clock id (attemptName w.handler.attempt) result.usage =
        recorded' at *
      simp only [note, hobserve, Bool.and_false, Bool.false_eq_true, if_false]
      exact ⟨_, rfl, hkept⟩
    · exact ⟨_, rfl, halike⟩

/-- A release that is written in both runs keeps them in step. -/
theorem Lockstep.releaseReservation (h : w.Lockstep w') (hobserving : Observing w) (a : Answer)
    {result : AttemptResult} (hpoint : w.handler.point = .releaseReservation result)
    (hwrites : w.writesRelease (.handler a) = true)
    (hwrites' : w'.writesRelease (.handler a) = true) :
    (w.releaseReservation a result).Lockstep (w'.releaseReservation a result) := by
  obtain ⟨governance, rfl, halike⟩ := h
  simp only [writesRelease, hpoint] at hwrites hwrites'
  simp only [World.releaseReservation]
  split
  · exact ⟨_, rfl, halike⟩
  · rename_i id hid
    have hkept := halike.release a.clock hobserving.manager id
    simp only [hid, Option.all_some, Option.isNone_iff_eq_none] at hwrites hwrites'
    simp only [hwrites, hwrites', Option.isSome_none, Bool.false_eq_true, if_false]
    exact ⟨_, rfl, hkept⟩

theorem Lockstep.releaseDeferred (h : w.Lockstep w') (hobserving : Observing w) (a : Answer) :
    (w.releaseDeferred a).Lockstep (w'.releaseDeferred a) := by
  obtain ⟨governance, rfl, halike⟩ := h
  simp only [World.releaseDeferred]
  split
  · exact ⟨_, rfl, halike⟩
  · exact ⟨_, rfl, halike.release a.clock hobserving.manager _⟩

theorem Lockstep.handle (h : w.Lockstep w') (hobserving : Observing w) (a : Answer)
    (hwrites : w.writesRelease (.handler a) = true)
    (hwrites' : w'.writesRelease (.handler a) = true) : (w.handle a).Lockstep (w'.handle a) := by
  have hsame : w'.handler.point = w.handler.point := by
    obtain ⟨_, rfl, -⟩ := h
    rfl
  by_cases hgoverning : w.handler.point.governing = true
  · match hpoint : w.handler.point with
    | .admitContext =>
        simp only [World.handle, hsame, hpoint]
        exact h.admitContext hobserving a
    | .bindUpstream lease =>
        simp only [World.handle, hsame, hpoint]
        exact h.bindUpstream hobserving a lease
    | .beginAttempt lease =>
        simp only [World.handle, hsame, hpoint]
        exact h.beginAttempt hobserving a lease
    | .settle result =>
        simp only [World.handle, hsame, hpoint]
        exact h.settle hobserving a result
    | .releaseReservation result =>
        simp only [World.handle, hsame, hpoint]
        exact h.releaseReservation hobserving a hpoint hwrites hwrites'
    | .releaseDeferred =>
        simp only [World.handle, hsame, hpoint]
        exact h.releaseDeferred hobserving a
    | .evaluatePolicy | .startDownstream | .acquire | .loop | .pauseWait | .retryGate | .forwarding
    | .attemptStarted | .select | .refused _ _ | .exchange _ | .judge _ | .buffering _
    | .delivering _ | .deliver _ | .completed | .classify _ | .attemptFailed _ | .awaitRetry _
    | .activatePolicy _ _ | .holdUncertain _ _ _ | .manualWait _ _ _ | .schedule _ _ _
    | .retryWait _ _ | .checkDeadline _ _ | .reacquire _ | .fail _ | .stopHeartbeat | .finish
    | .remove | .returned => simp [hpoint, Point.governing] at hgoverning
  · obtain ⟨governance, rfl, halike⟩ := h
    obtain ⟨hover, hkept⟩ := w.handle_over a governance (by simpa using hgoverning)
    exact ⟨governance, hover, hkept ▸ halike⟩

/-! ## Runs -/

/-- Every append of the step succeeds. -/
def appends (w : World) (event : Event) : Bool :=
  (w.step event).governance.failures = w.governance.failures

theorem writesRelease_of_appends {event : Event} (h : w.appends event = true) :
    w.writesRelease event = true := by
  simp only [appends, decide_eq_true_eq] at h
  simp only [writesRelease]
  match event with
  | .handler a =>
      dsimp only
      split
      · rename_i result hpoint
        simp only [World.step, World.handle, hpoint, World.releaseReservation] at h
        cases hid : w.handler.reservation with
        | none => rfl
        | some id =>
            obtain ⟨-, hlt⟩ := Governance.Manager.release_failures a.clock w.governance id
            simp only [hid] at h
            simp only [Option.all_some, Option.isNone_iff_eq_none]
            by_contra hfails
            have hsome : (w.governance.release a.clock id).2.isSome = true :=
              Option.isSome_iff_ne_none.2 hfails
            simp only [hsome, if_true] at h
            exact absurd h (hlt hsome).ne'
      · rfl
  | .heartbeat _ | .heartbeatQuit | .retryNowChecked | .sendRetry _ | .applyRetryPolicy _ _ _ _ _
  | .clearRetryPolicy _ | .signalPolicy | .resolveUncertain _ _ _ | .sendCompensation
  | .cancelChecked _ | .sendCancel | .contextDone _ | .disconnect | .pause | .resume
  | .configure _ | .govern _ | .upstream _ | .reload _ _ => rfl

/-- A call on the manager aside, what others do does not look at it. -/
theorem step_over (w : World) (event : Event) (governance : Governance.Manager)
    (hevent : ∀ answer, event ≠ .handler answer) (hgovern : ∀ action, event ≠ .govern action) :
    { w with governance := governance }.step event =
      { w.step event with governance := governance } ∧
        (w.step event).governance = w.governance := by
  cases event with
  | handler answer => exact absurd rfl (hevent answer)
  | govern action => exact absurd rfl (hgovern action)
  | heartbeat beat =>
      simp only [step, onDisconnect]
      split
      · exact ⟨rfl, rfl⟩
      · split <;> exact ⟨rfl, rfl⟩
  | disconnect =>
      simp only [step, onDisconnect]
      split <;> exact ⟨rfl, rfl⟩
  | applyRetryPolicy now spec overwrite validate persisted =>
      simp only [step, policyAction]
      split <;> exact ⟨rfl, rfl⟩
  | clearRetryPolicy persisted =>
      simp only [step, policyAction]
      split <;> exact ⟨rfl, rfl⟩
  | resolveUncertain now resolution persisted =>
      simp only [step, resolveUncertain]
      split
      · exact ⟨rfl, rfl⟩
      · split <;> exact ⟨rfl, rfl⟩
  | retryNowChecked | sendRetry _ | signalPolicy | sendCompensation | cancelChecked _
  | sendCancel | upstream _ =>
      simp only [step]
      split <;> exact ⟨rfl, rfl⟩
  | heartbeatQuit | contextDone _ | pause | resume | configure _ | reload _ _ => exact ⟨rfl, rfl⟩

theorem Lockstep.step (h : w.Lockstep w') (hobserving : Observing w) {event event' : Event}
    (hsame : SameButLedger event event') (hkeeps : KeepsObserving event)
    (hwrites : w.writesRelease event = true) (hwrites' : w'.writesRelease event' = true) :
    (w.step event).Lockstep (w'.step event') := by
  have hgovern {action action' : Governance.Action} (hsame : action.SameButLedger action')
      (hkeeps : action.KeepsObserving) :
      (w.step (.govern action)).Lockstep (w'.step (.govern action')) := by
    obtain ⟨governance, rfl, halike⟩ := h
    have hown : ({ w with governance } : World).ownCall action' = w.ownCall action := by
      cases hsame with
      | same => rfl
      | compact => rfl
    simp only [World.step, hown]
    split
    · exact ⟨_, rfl, halike⟩
    · exact ⟨_, rfl, (halike.act hobserving.manager hsame hkeeps).1⟩
  by_cases hcalls : ∃ action, event = .govern action
  · obtain ⟨action, rfl⟩ := hcalls
    cases hsame with
    | govern hsame => exact hgovern hsame hkeeps
    | same => exact hgovern (.same action) hkeeps
  obtain rfl : event = event' := by
    cases hsame with
    | same => rfl
    | govern => exact absurd ⟨_, rfl⟩ hcalls
  by_cases hevent : ∃ answer, event = .handler answer
  · obtain ⟨a, rfl⟩ := hevent
    exact h.handle hobserving a hwrites hwrites'
  · obtain ⟨governance, rfl, halike⟩ := h
    obtain ⟨hover, hkept⟩ := w.step_over event governance
      (fun answer heq => hevent ⟨answer, heq⟩) fun action heq => hcalls ⟨action, heq⟩
    exact ⟨governance, hover, hkept ▸ halike⟩

/-- A call of the handler on the manager is one transition of it. -/
theorem handle_governance (w : World) (a : Answer) :
    (w.handle a).governance = w.governance ∨
      ∃ op, Governance.Manager.Transition op w.governance (w.handle a).governance := by
  by_cases hgoverning : w.handler.point.governing = true
  swap
  · exact .inl (w.handle_over a w.governance (by simpa using hgoverning)).2
  have hgoverned (v : World) (lease : Nat) (decision : Governance.Decision)
      (error : Option Governance.Error) :
      (v.governed lease decision error).governance = v.governance := by
    obtain ⟨point, heq, -⟩ := v.governed_cases lease decision error
    rw [heq]
    rfl
  simp only [handle]
  cases hpoint : w.handler.point with
  | admitContext =>
      have hasked := (w.governance.admitWithContext_asked a.clock a.requestCanceled a.reservationID
        { w.request.admission with upstream := w.handler.decision.targetID }).transition
      have heq : (w.admitContext a).governance =
          (w.governance.admitWithContext a.clock a.requestCanceled a.reservationID
            { w.request.admission with upstream := w.handler.decision.targetID }).1 := by
        simp only [admitContext]
        split
        · rfl
        · split <;> rfl
      exact .inr ⟨_, heq ▸ hasked⟩
  | bindUpstream lease =>
      simp only [bindUpstream]
      split
      · exact .inl rfl
      · rename_i id _
        have hasked := (w.governance.bindUpstream_asked a.clock id (w.target lease).id).transition
        split
        · rw [hgoverned]
          exact .inr ⟨_, hasked⟩
        · split
          · exact .inl rfl
          · split
            · exact .inr ⟨_, hasked⟩
            · rw [hgoverned]
              exact .inr ⟨_, hasked⟩
  | beginAttempt lease =>
      simp only [beginAttempt]
      split
      · exact .inl rfl
      · rename_i id _
        rw [hgoverned]
        exact .inr ⟨_, (w.governance.begin_asked a.clock id (attemptName w.handler.attempt)
          (by simpa using attemptName_ne_empty w.handler.attempt)).transition⟩
  | settle result =>
      simp only [settle]
      split
      · exact .inl rfl
      · rename_i id _
        split
        · have hasked := w.governance.record_transition a.clock id (attemptName w.handler.attempt)
            result.usage
          generalize w.governance.record a.clock id (attemptName w.handler.attempt) result.usage =
            recorded at hasked ⊢
          split
          · exact .inr ⟨_, hasked⟩
          · exact .inr ⟨_, hasked⟩
        · exact .inl rfl
  | releaseReservation result =>
      simp only [releaseReservation]
      split
      · exact .inl rfl
      · rename_i id _
        have hasked := w.governance.release_transition a.clock id
        generalize w.governance.release a.clock id = released at hasked ⊢
        split
        · exact .inr ⟨_, hasked⟩
        · exact .inr ⟨_, hasked⟩
  | releaseDeferred =>
      simp only [releaseDeferred]
      split
      · exact .inl rfl
      · exact .inr ⟨_, w.governance.release_transition a.clock _⟩
  | evaluatePolicy | startDownstream | acquire | loop | pauseWait | retryGate | forwarding
  | attemptStarted | select | refused _ _ | exchange _ | judge _ | buffering _
  | delivering _ | deliver _ | completed | classify _ | attemptFailed _ | awaitRetry _
  | activatePolicy _ _ | holdUncertain _ _ _ | manualWait _ _ _ | schedule _ _ _
  | retryWait _ _ | checkDeadline _ _ | reacquire _ | fail _ | stopHeartbeat | finish
  | remove | returned => simp [hpoint, Point.governing] at hgoverning

theorem Observing.step (h : Observing w) {event : Event} (hkeeps : KeepsObserving event) :
    Observing (w.step event) := by
  by_cases hevent : ∃ answer, event = .handler answer
  · obtain ⟨a, rfl⟩ := hevent
    obtain ⟨-, hconfig, hcfg⟩ := w.handle_cfg a
    refine ⟨?_, ?_, ?_⟩
    · show (w.handle a).config.enforcing = false
      rw [hconfig, h.config]
    · show (w.handle a).handler.cfg.enforcing = false
      rcases hcfg with hcfg | hcfg
      · rw [hcfg, h.cfg]
      · rw [hcfg, h.config]
    · show (w.handle a).governance.enforcing = false
      rcases w.handle_governance a with hsame | ⟨op, htransition⟩
      · rw [hsame, h.manager]
      · simpa only [Governance.Manager.enforcing, htransition.config] using h.manager
  · have hout := w.step_outside event fun answer heq => hevent ⟨answer, heq⟩
    refine ⟨?_, ?_, ?_⟩
    · rcases hout.config with hsame | ⟨cfg, rfl, hconfig⟩
      · rw [hsame, h.config]
      · rw [hconfig]
        exact hkeeps
    · rw [hout.handler, h.cfg]
    · rcases hout.governance with hsame | ⟨action, rfl, -, hacted⟩
      · rw [hsame, h.manager]
      · rw [hacted]
        exact ((Governance.Manager.Alike.refl _).act h.manager (.same action) hkeeps).2

theorem Lockstep.run {events events' : List Event} (h : w.Lockstep w') (hobserving : Observing w)
    (hsame : List.Forall₂ SameButLedger events events')
    (hkeeps : ∀ event ∈ events, KeepsObserving event)
    (hwrites : Along World.step (fun w event => w.writesRelease event = true) w events)
    (hwrites' : Along World.step (fun w event => w.writesRelease event = true) w' events') :
    (w.run events).Lockstep (w'.run events') := by
  induction hsame generalizing w w' with
  | nil => exact h
  | cons hhead _ ih =>
      have hkeep := hkeeps _ List.mem_cons_self
      exact ih (h.step hobserving hhead hkeep hwrites.1 hwrites'.1) (hobserving.step hkeep)
        (fun event hin => hkeeps event (List.mem_cons_of_mem _ hin)) hwrites.2 hwrites'.2

end World

/-! ## A repeat task -/

/-- The same answers, but for how others rewrite the ledger's file. -/
structure RepeatAnswer.SameButLedger (a a' : RepeatAnswer) : Prop where
  rest : a' =
    { a with
      beforeAdmit := a'.beforeAdmit, beforeBind := a'.beforeBind
      beforeRecord := a'.beforeRecord, beforeRelease := a'.beforeRelease }
  admission : List.Forall₂ Governance.Action.SameButLedger a.beforeAdmit a'.beforeAdmit
  bind : List.Forall₂ Governance.Action.SameButLedger a.beforeBind a'.beforeBind
  record : List.Forall₂ Governance.Action.SameButLedger a.beforeRecord a'.beforeRecord
  release : List.Forall₂ Governance.Action.SameButLedger a.beforeRelease a'.beforeRelease

/-- Others leave governance in observe mode. -/
structure RepeatAnswer.KeepsObserving (a : RepeatAnswer) : Prop where
  admission : ∀ action ∈ a.beforeAdmit, action.KeepsObserving
  bind : ∀ action ∈ a.beforeBind, action.KeepsObserving
  record : ∀ action ∈ a.beforeRecord, action.KeepsObserving
  release : ∀ action ∈ a.beforeRelease, action.KeepsObserving

namespace Execution

/-- The release before a success, if there is one, is written. -/
def writesRelease (a : RepeatAnswer) (w : Attempted) : Bool :=
  w.reservation.all fun id => !w.result.validation.success ||
    ((w.governance.acts a.beforeRelease).release a.releaseClock id).2.isNone

/-- Two executions that differ in what their managers wrote, and no more. -/
structure Lockstep (w w' : Attempted) : Prop where
  governance : w.governance.Alike w'.governance
  reservation : w'.reservation = w.reservation
  result : w'.result = w.result
  observing : w.governance.enforcing = false

variable {cfg : Config} {a a' : RepeatAnswer} {w w' : Attempted}

theorem lockstep_attempt (hobserve : cfg.enforcing = false) (hsame : a.SameButLedger a')
    (hkeeps : a.KeepsObserving) {m m' : Governance.Manager} (halike : m.Alike m')
    (hmanager : m.enforcing = false) (reservation : Option String) :
    Lockstep (attempt cfg a m reservation) (attempt cfg a' m' reservation) := by
  obtain ⟨hrest, -, hbind, -, -⟩ := hsame
  generalize a'.beforeAdmit = admission, a'.beforeBind = bind, a'.beforeRecord = record,
    a'.beforeRelease = release at *
  subst hrest
  simp only [attempt]
  split
  · exact ⟨halike, rfl, rfl, hmanager⟩
  · split
    · exact ⟨halike, rfl, rfl, hmanager⟩
    · rename_i target _ _ id
      obtain ⟨hacted, hobserving⟩ := halike.acts hmanager hbind hkeeps.bind
      obtain ⟨hkept, herror⟩ := hacted.bindUpstreamWithDecision a.bindClock hobserving id target.id
      have hbound : ((m.acts a.beforeBind).bindUpstreamWithDecision a.bindClock id
          target.id).1.enforcing = false :=
        Governance.Manager.perform_observe hobserving ⟨a.bindClock, .bindUpstream id target.id⟩
      simp only [hobserve, herror, Bool.false_eq_true, if_false]
      split
      · exact ⟨hkept, rfl, rfl, hbound⟩
      · exact ⟨hkept, rfl, rfl, hbound⟩

theorem Lockstep.settle (h : Lockstep w w') (hobserve : cfg.enforcing = false)
    (hsame : a.SameButLedger a') (hkeeps : a.KeepsObserving) :
    Lockstep (settle cfg a w) (settle cfg a' w') := by
  obtain ⟨hrest, -, -, hrecord, -⟩ := hsame
  generalize a'.beforeAdmit = admission, a'.beforeBind = bind, a'.beforeRecord = record,
    a'.beforeRelease = release at *
  subst hrest
  obtain ⟨m', reservation, result⟩ := w'
  obtain ⟨halike, rfl, rfl, hmanager⟩ := h
  simp only [Execution.settle]
  split
  · exact ⟨halike, rfl, rfl, hmanager⟩
  · rename_i id _
    split
    · obtain ⟨hacted, hobserving⟩ := halike.acts hmanager hrecord hkeeps.record
      simp only [hobserve, Bool.and_false, Bool.false_eq_true, if_false]
      exact ⟨hacted.record a.recordClock hobserving id "attempt-1" _, rfl, rfl,
        Governance.Manager.perform_observe hobserving ⟨a.recordClock, .record id "attempt-1" _⟩⟩
    · exact ⟨halike, rfl, rfl, hmanager⟩

theorem Lockstep.release (h : Lockstep w w') (hsame : a.SameButLedger a')
    (hkeeps : a.KeepsObserving) (hwrites : writesRelease a w = true)
    (hwrites' : writesRelease a' w' = true) : Lockstep (release a w) (release a' w') := by
  obtain ⟨hrest, -, -, -, hrelease⟩ := hsame
  generalize a'.beforeAdmit = admission, a'.beforeBind = bind, a'.beforeRecord = record,
    a'.beforeRelease = release at *
  subst hrest
  obtain ⟨m', reservation, result⟩ := w'
  obtain ⟨halike, rfl, rfl, hmanager⟩ := h
  simp only [Execution.release]
  split
  · exact ⟨halike, rfl, rfl, hmanager⟩
  · rename_i id hid
    split
    · rename_i hsuccess
      obtain ⟨hacted, hobserving⟩ := halike.acts hmanager hrelease hkeeps.release
      have hreleased := hacted.release a.releaseClock hobserving id
      simp only [writesRelease, hid, hsuccess, Option.all_some, Bool.not_true, Bool.false_or,
        Option.isNone_iff_eq_none] at hwrites hwrites'
      simp only [hwrites, hwrites', Option.isSome_none, Bool.false_eq_true, if_false]
      exact ⟨hreleased, rfl, rfl,
        Governance.Manager.perform_observe hobserving ⟨a.releaseClock, .release id⟩⟩
    · exact ⟨halike, rfl, rfl, hmanager⟩

/-! ## Failed writes of an execution -/

open Governance.Manager in
theorem attempt_failures (m : Governance.Manager) (reservation : Option String) :
    m.failures ≤ (attempt cfg a m reservation).governance.failures := by
  simp only [attempt]
  split
  · exact le_rfl
  · split
    · exact le_rfl
    · rename_i target _ _ id
      have hbound := (acts_failures m a.beforeBind).trans
        (bindUpstreamWithDecision_failures a.bindClock (m.acts a.beforeBind) id target.id)
      split
      · split
        · exact hbound
        · exact hbound
      · exact hbound

open Governance.Manager in
theorem settle_failures (w : Attempted) :
    w.governance.failures ≤ (settle cfg a w).governance.failures := by
  simp only [settle]
  split
  · exact le_rfl
  · split
    · exact (acts_failures _ a.beforeRecord).trans (record_failures a.recordClock _ _ _ _)
    · exact le_rfl

open Governance.Manager in
/-- A release that fails is counted. -/
theorem release_failures (w : Attempted) :
    w.governance.failures ≤ (release a w).governance.failures ∧
      (writesRelease a w = false →
        w.governance.failures < (release a w).governance.failures) := by
  simp only [release, writesRelease]
  split
  · rename_i hnone
    exact ⟨le_rfl, by simp [hnone]⟩
  · rename_i id hid
    split
    · rename_i hsuccess
      have hacted := acts_failures w.governance a.beforeRelease
      obtain ⟨hle, hlt⟩ :=
        Governance.Manager.release_failures a.releaseClock (w.governance.acts a.beforeRelease) id
      split
      · rename_i hfails
        exact ⟨hacted.trans hle, fun _ => hacted.trans_lt (hlt hfails)⟩
      · rename_i hwritten
        refine ⟨hacted.trans hle, fun hnot => ?_⟩
        simp [hid, hsuccess, Option.not_isSome_iff_eq_none.1 hwritten] at hnot
    · rename_i hfailed
      exact ⟨le_rfl, by simp [hid, hfailed]⟩

theorem finish_failures (executionID : String) (w : Attempted) :
    w.governance.failures ≤ (finish executionID a w).1.failures := by
  simp only [finish]
  split
  · exact le_rfl
  · exact (Governance.Manager.release_failures a.releaseClock w.governance _).1

end Execution

/-- An execution that the gates let through. -/
def RepeatAnswer.passes (a : RepeatAnswer) : Bool :=
  a.accepting && a.resourcesLeft && a.waited && a.acquired && a.created

/-- The execution up to its release. -/
def repeatSettled (cfg : Config) (executionID : String) (a : RepeatAnswer)
    (m : Governance.Manager) : Execution.Attempted :=
  Execution.settled cfg executionID a <|
    (m.acts a.beforeAdmit).admitWithContext a.clock a.requestCanceled executionID a.admission

/-- The release before a success of this execution, if it comes to one, is
written. -/
def repeatWrites (cfg : Config) (executionID : String) (a : RepeatAnswer)
    (m : Governance.Manager) : Bool :=
  !a.passes || Execution.writesRelease a (repeatSettled cfg executionID a m)

/-- Every append of the execution, and of the others while it runs, succeeds. -/
def repeatAppends (cfg : Config) (executionID : String) (a : RepeatAnswer)
    (m : Governance.Manager) : Bool :=
  (executeRepeat cfg executionID a m).1.failures = m.failures

variable {cfg : Config} {executionID : String} {a a' : RepeatAnswer} {m m' : Governance.Manager}

/-- What the gates refuse does not come to the manager. -/
theorem executeRepeat_of_not_passes (hsame : a.SameButLedger a') (h : a.passes = false) :
    (executeRepeat cfg executionID a m).2 = (executeRepeat cfg executionID a' m').2 := by
  obtain ⟨hrest, -, -, -, -⟩ := hsame
  generalize a'.beforeAdmit = admission, a'.beforeBind = bind, a'.beforeRecord = record,
    a'.beforeRelease = release at hrest
  subst hrest
  simp only [executeRepeat, runRepeatAttempt]
  split
  · rfl
  split
  · rfl
  split
  · rfl
  split
  · rfl
  split
  · rfl
  rename_i h₁ h₂ h₃ h₄ h₅
  simp only [Bool.not_eq_true, Bool.not_eq_false'] at h₁ h₂ h₃ h₄ h₅
  simp [RepeatAnswer.passes, h₁, h₂, h₃, h₄, h₅] at h

theorem executeRepeat_of_passes (hobserve : cfg.enforcing = false) (h : a.passes = true) :
    executeRepeat cfg executionID a m =
      Execution.finish executionID a (Execution.release a (repeatSettled cfg executionID a m)) := by
  simp only [RepeatAnswer.passes, Bool.and_eq_true] at h
  obtain ⟨⟨⟨⟨haccepting, hresources⟩, hwaited⟩, hacquired⟩, hcreated⟩ := h
  simp [executeRepeat, runRepeatAttempt, repeatSettled, haccepting, hresources, hwaited, hacquired,
    hcreated, hobserve]

/-- An execution that fails no append has its release written. -/
theorem repeatWrites_of_appends (hobserve : cfg.enforcing = false)
    (h : repeatAppends cfg executionID a m = true) :
    repeatWrites cfg executionID a m = true := by
  simp only [repeatWrites]
  cases hpasses : a.passes with
  | false => rfl
  | true =>
      simp only [repeatAppends, executeRepeat_of_passes hobserve hpasses, decide_eq_true_eq] at h
      have hadmitted := (Governance.Manager.acts_failures m a.beforeAdmit).trans
        (Governance.Manager.admitWithContext_failures a.clock (m.acts a.beforeAdmit)
          a.requestCanceled executionID a.admission)
      have hsettled : m.failures ≤ (repeatSettled cfg executionID a m).governance.failures :=
        hadmitted.trans ((Execution.attempt_failures _ _).trans (Execution.settle_failures _))
      generalize repeatSettled cfg executionID a m = w at *
      by_contra hfails
      have hrelease := (Execution.release_failures (a := a) w).2 (by simpa using hfails)
      have hfinish := Execution.finish_failures (a := a) executionID (Execution.release a w)
      omega

theorem lockstep_settled (hobserve : cfg.enforcing = false) (hmanager : m.enforcing = false)
    (hkeeps : a.KeepsObserving) (hsame : a.SameButLedger a') (halike : m.Alike m')
    (executionID : String) :
    Execution.Lockstep (repeatSettled cfg executionID a m)
      (repeatSettled cfg executionID a' m') := by
  have hadmit : a'.clock = a.clock ∧ a'.requestCanceled = a.requestCanceled ∧
      a'.admission = a.admission := by
    rw [hsame.rest]
    exact ⟨rfl, rfl, rfl⟩
  obtain ⟨hclock, hcanceled, hadmission⟩ := hadmit
  obtain ⟨hacted, hobserving⟩ := halike.acts hmanager hsame.admission hkeeps.admission
  obtain ⟨hkept, herror⟩ := hacted.admitWithContext a.clock hobserving a.requestCanceled
    executionID a.admission
  have hadmitted : ((m.acts a.beforeAdmit).admitWithContext a.clock a.requestCanceled executionID
      a.admission).1.enforcing = false :=
    Governance.Manager.perform_observe hobserving
      ⟨a.clock, .admitWithContext a.requestCanceled executionID a.admission⟩
  simp only [repeatSettled, hclock, hcanceled, hadmission]
  generalize (m.acts a.beforeAdmit).admitWithContext a.clock a.requestCanceled executionID
    a.admission = admitted at *
  generalize (m'.acts a'.beforeAdmit).admitWithContext a.clock a.requestCanceled executionID
    a.admission = admitted' at *
  simp only [Execution.settled, herror]
  exact (Execution.lockstep_attempt hobserve hsame hkeeps hkept hadmitted _).settle hobserve
    hsame hkeeps

/-- A release that fails turns a success around. -/
theorem Execution.release_success {w : Execution.Attempted} :
    (Execution.release a w).result.validation.success =
      (w.result.validation.success && Execution.writesRelease a w) := by
  simp only [Execution.release, Execution.writesRelease]
  split
  · rename_i hnone
    simp [hnone]
  · rename_i id hid
    split
    · rename_i hsuccess
      split
      · rename_i hfails
        simp [hid, hsuccess, hfails, Execution.unavailable]
      · rename_i hwritten
        simp [hid, hsuccess, Option.not_isSome_iff_eq_none.1 hwritten]
    · rename_i hfailed
      simp [hid, hfailed]

/-- An execution in observe mode gives the record of one whose appends all
succeed just where its release is written. -/
theorem executeRepeat_eq_iff (hobserve : cfg.enforcing = false) (hmanager : m.enforcing = false)
    (hkeeps : a.KeepsObserving) (hsame : a.SameButLedger a') (halike : m.Alike m')
    (happends : repeatAppends cfg executionID a' m' = true) :
    (executeRepeat cfg executionID a m).2 = (executeRepeat cfg executionID a' m').2 ↔
      repeatWrites cfg executionID a m = true := by
  have hgates : a'.passes = a.passes := by
    rw [hsame.rest]
    rfl
  have hwrites' := repeatWrites_of_appends hobserve happends
  cases hpasses : a.passes with
  | false =>
      simp only [repeatWrites, hpasses, Bool.not_false, Bool.true_or, iff_true]
      exact executeRepeat_of_not_passes hsame hpasses
  | true =>
      have hstep := lockstep_settled hobserve hmanager hkeeps hsame halike executionID
      simp only [repeatWrites, hgates, hpasses, Bool.not_true, Bool.false_or] at hwrites' ⊢
      rw [executeRepeat_of_passes hobserve hpasses,
        executeRepeat_of_passes hobserve (hgates.trans hpasses)]
      constructor
      · intro heq
        by_contra hfails
        have hends := congrArg Execution.success heq
        simp only [Execution.finish, Execution.release_success, hwrites', Bool.and_true,
          hstep.result, Bool.not_eq_true _ ▸ hfails, Bool.and_false] at hends
        simp [Execution.writesRelease, ← hends] at hfails
      · intro hwrites
        have hreleased := hstep.release hsame hkeeps hwrites hwrites'
        simp only [Execution.finish, hreleased.result]

/-! ## What the client is sent -/

namespace World

variable {request : Request} {config : Config} {pool : Upstream.Pool}
  {events events' : List Event}

theorem observing_start (hconfig : config.enforcing = false) (hmanager : m.enforcing = false) :
    Observing (start request config m pool) :=
  ⟨hconfig, hconfig, hmanager⟩

theorem lockstep_start (halike : m.Alike m') :
    (start request config m pool).Lockstep (start request config m' pool) :=
  ⟨m', rfl, halike⟩

/-- In observe mode, a run in which every release before a delivery is written
sends the client what the run without a failed append sends, and a repeat task
gives the same record just where its release is written. -/
theorem same_response (hconfig : config.enforcing = false) (hmanager : m.enforcing = false)
    (halike : m.Alike m') :
    (List.Forall₂ SameButLedger events events' → (∀ event ∈ events, KeepsObserving event) →
      Along step (fun w event => w.writesRelease event = true)
        (start request config m pool) events →
      Along step (fun w event => w.appends event = true)
        (start request config m' pool) events' →
      ((start request config m pool).run events).downstream =
        ((start request config m' pool).run events').downstream) ∧
    (a.SameButLedger a' → a.KeepsObserving → repeatAppends config executionID a' m' = true →
      ((executeRepeat config executionID a m).2 = (executeRepeat config executionID a' m').2 ↔
        repeatWrites config executionID a m = true)) := by
  constructor
  · intro hsame hkeeps hwrites happends
    obtain ⟨governance, hrun, -⟩ := Lockstep.run (lockstep_start halike)
      (observing_start hconfig hmanager) hsame hkeeps hwrites
      (happends.mono fun _ _ h => writesRelease_of_appends h)
    rw [hrun]
  · intro hsame hkeeps happends
    exact executeRepeat_eq_iff hconfig hmanager hkeeps hsame halike happends

/-- A request before the relay, and a ledger that fails these appends. -/
def overLedger (faults : List Bool) : World :=
  start {} everySecond { config := everySecond.governance, ledger := some { faults := faults } }
    (Upstream.Pool.start ((Upstream.Manager.blank relay).apply {} relay).1)

/-- A first attempt that goes like this, up to the end of the handler. -/
def onlyAttempt (exchange : Exchange) (steps : Nat) : List Event :=
  usual 10 ++ [.handler { exchange := exchange }] ++ usual steps ++ [.heartbeatQuit] ++ usual 6

/-- An exchange that `{"a":1}` answers. -/
def succeeds : Exchange :=
  .answered true ⟨200, 0⟩ [123, 34, 97, 34, 58, 49, 125] { success := true }

/-- An exchange that `ok` answers, which is no JSON by its content type. -/
def refusedForGood : Exchange :=
  .answered true ⟨200, 0⟩ [111, 107]
    { permanent := true, message := { id := "proxy.content_type_unsupported" } }

/-- An execution whose exchange goes like this. -/
def onlyExecution (exchange : Exchange) : RepeatAnswer :=
  { selected := .ok { id := "relay" }, exchange := exchange }

/-- With a ledger that cannot be written at all, a request that fails in the
other run too. -/
theorem same_response_refused :
    ((overLedger [true]).run (onlyAttempt refusedForGood 9)).downstream =
        ((overLedger []).run (onlyAttempt refusedForGood 9)).downstream ∧
      (executeRepeat everySecond "repeat" (onlyExecution refusedForGood)
          (overLedger [true]).governance).2 =
        (executeRepeat everySecond "repeat" (onlyExecution refusedForGood)
          (overLedger []).governance).2 := by
  have halike : (overLedger [true]).governance.Alike (overLedger []).governance := ⟨_, _, rfl⟩
  have hexecution : (onlyExecution refusedForGood).KeepsObserving :=
    ⟨by simp [onlyExecution], by simp [onlyExecution], by simp [onlyExecution],
      by simp [onlyExecution]⟩
  have hkeeps : ∀ event ∈ onlyAttempt refusedForGood 9, KeepsObserving event := by
    simp [onlyAttempt, usual, stepsAt, KeepsObserving]
  obtain ⟨hrun, hrepeat⟩ := @same_response "repeat" (onlyExecution refusedForGood)
    (onlyExecution refusedForGood) _ _ {} everySecond _ _ _ rfl rfl halike
  constructor
  · exact hrun (List.forall₂_same.2 fun event _ => .same event) hkeeps (by decide +kernel)
      (by decide +kernel)
  · exact (hrepeat ⟨rfl, .nil, .nil, .nil, .nil⟩ hexecution (by decide +kernel)).2
      (by decide +kernel)

/-- Where the release before the delivery is what cannot be written, the client
is sent an error instead of the response, and a repeat task has failed. -/
theorem response_lost :
    (overLedger []).governance.Alike (overLedger [false, false, false, true]).governance ∧
      everySecond.enforcing = false ∧
      (∀ event ∈ onlyAttempt succeeds 6, KeepsObserving event) ∧
      Along step (fun w event => w.appends event = true) (overLedger []) (onlyAttempt succeeds 6) ∧
      ((overLedger []).run (onlyAttempt succeeds 6)).downstream.body =
        [123, 34, 97, 34, 58, 49, 125] ∧
      ((overLedger [false, false, false, true]).run (onlyAttempt succeeds 6)).downstream.body =
        Downstream.envelope false "\"proxy.persistence_unavailable\"" ∧
      repeatAppends everySecond "repeat" (onlyExecution succeeds)
        (overLedger []).governance = true ∧
      (executeRepeat everySecond "repeat" (onlyExecution succeeds)
        (overLedger []).governance).2.success = true ∧
      (executeRepeat everySecond "repeat" (onlyExecution succeeds)
        (overLedger [false, false, false, true]).governance).2.success = false :=
  ⟨⟨_, _, rfl⟩, rfl, by simp [onlyAttempt, usual, stepsAt, KeepsObserving], by decide +kernel,
    by decide +kernel, by decide +kernel, by decide +kernel, by decide +kernel, by decide +kernel⟩

end World

end RelayLifeline.Proxy
