import RelayLifeline.Registry.RetryPolicy
import RelayLifeline.Registry.Timeline

/-!
# A request in the registry

What the registry holds of one request: the tracked entry, its timeline and the
two one-slot channels the handler waits on. Each function is what one method
does under one hold of the registry's lock, except that the signal a method
sends after it let the lock go is a function of its own.
-/

namespace RelayLifeline.Registry

open Lifecycle Timeline

/-- How an operator resolves an uncertain request. -/
inductive Resolution where
  | abandon
  | confirmSuccess
  | requestCompensation
  deriving DecidableEq, Repr

def Resolution.event : Resolution → EventType
  | .abandon => .uncertainAbandon
  | .confirmSuccess => .uncertainConfirmSuccess
  | .requestCompensation => .uncertainRequestCompensation

def Resolution.messageCode : Resolution → String
  | .abandon => "timeline.uncertain_abandon"
  | .confirmSuccess => "timeline.uncertain_confirm_success"
  | .requestCompensation => "timeline.uncertain_request_compensation"

/-- Why an operator's action is skipped. -/
inductive ActionReason where
  | notFound
  | stateNotRetryable
  | stateNotPolicyCapable
  | alreadyRequested
  | policyExists
  | noPolicy
  | persistenceUnavailable
  | uncertainResolution
  deriving DecidableEq, Repr

structure RequestInfo where
  state : State := .queued
  attempt : Nat := 0
  nextRetryAt : Int := 0
  lastErrorCode : String := ""
  persistenceDegraded : Bool := false
  persistencePending : Bool := false
  uncertainSince : Int := 0
  uncertainResolution : Option Resolution := none
  uncertainResolvedAt : Int := 0

structure TrackedRequest where
  info : RequestInfo := {}
  policy : Option RetryPolicy := none

/-- The resolution is dropped once the compensation it asked for goes out. -/
def RequestInfo.forget (info : RequestInfo) (status : State) : RequestInfo :=
  if status = .forwarding ∧ info.uncertainResolution = some .requestCompensation then
    { info with uncertainResolution := none, uncertainSince := 0, uncertainResolvedAt := 0 }
  else info

/-- `UpdateMessage`, where the request is tracked. A move the table does not
list is dropped. -/
def RequestInfo.updateMessage (info : RequestInfo) (now : Int) (status : State) (attempt : Nat)
    (message : String) (nextRetry : Int) : RequestInfo :=
  if validateTransition info.state status then
    { info.forget status with
      state := status
      attempt := attempt
      lastErrorCode := message
      nextRetryAt := nextRetry
      uncertainSince :=
        if status = .uncertain ∧ (info.forget status).uncertainSince = 0 then now
        else (info.forget status).uncertainSince }
  else info

structure Entry where
  request : Option TrackedRequest := some {}
  timeline : Record := {}
  retryNow : Bool := false
  policyChanged : Bool := false
  persistErr : Bool := false

namespace Entry

/-- What the registry answers about the request's state, if it is tracked. -/
def state (entry : Entry) : Option State := entry.request.map fun request => request.info.state

/-- `UncertainResolution`. -/
def resolution (entry : Entry) : Option Resolution :=
  entry.request.bind fun request => request.info.uncertainResolution

/-- Change what is tracked, if anything is. -/
def modifyInfo (entry : Entry) (f : RequestInfo → RequestInfo) : Entry :=
  { entry with request := entry.request.map fun request => { request with info := f request.info } }

def updateMessage (entry : Entry) (now : Int) (status : State) (attempt : Nat) (message : String)
    (nextRetry : Int) : Entry :=
  entry.modifyInfo fun info => info.updateMessage now status attempt message nextRetry

/-- `timeline.Add`, with `recordPersistenceError` where it fails. -/
def addEvent (entry : Entry) (event : Event) (persisted : Bool) : Entry × Bool :=
  let added := entry.timeline.add event persisted
  ({ entry with timeline := added.1, persistErr := entry.persistErr || !added.2 }, added.2)

/-- What `recordPersistenceErrorLocked` marks on the request, where there was an
error. -/
def degrade (entry : Entry) (ok : Bool) : Entry :=
  if ok then entry else entry.modifyInfo fun info => { info with persistenceDegraded := true }

/-- `RecordEvent`. -/
def recordEvent (entry : Entry) (event : Event) (persisted : Bool) : Entry × Bool :=
  let added := entry.addEvent event persisted
  (added.1.degrade added.2, added.2)

/-- `Remove`; the answer is whether it returns no error, which it does not where
it refuses the outcome either. -/
def remove (entry : Entry) (outcome : State) (persisted : Bool) : Entry × Bool :=
  if ∃ status ∈ entry.state, ¬validateTransition status outcome then (entry, true)
  else
    let finished := entry.timeline.finish outcome persisted
    if finished.2 then ({ entry with timeline := finished.1, request := none }, true)
    else
      ({ entry.modifyInfo fun info =>
          { info with persistenceDegraded := true, persistencePending := true } with
        persistErr := true }, false)

/-! ## What an operator asks for -/

/-- `ResolveUncertain`, up to the unlock. -/
def resolveUncertain (entry : Entry) (now : Int) (resolution : Resolution) (persisted : Bool) :
    Entry × Except ActionReason State :=
  match entry.request with
  | none => (entry, .error .notFound)
  | some request =>
      if request.info.state ≠ .uncertain then (entry, .error .stateNotRetryable)
      else if request.info.uncertainResolution.isSome then (entry, .error .alreadyRequested)
      else
        let event : Event :=
          { type := resolution.event, attempt := request.info.attempt,
            category := "operator_decision", messageCode := resolution.messageCode }
        let added := entry.recordEvent event persisted
        if added.2 then
          (added.1.modifyInfo fun info =>
            { info with
              uncertainResolution := some resolution, uncertainResolvedAt := now },
            .ok .uncertain)
        else (added.1, .error .persistenceUnavailable)

/-- `CancelChecked`, up to the unlock. -/
def cancelChecked (entry : Entry) (persisted : Bool) : Entry × Except ActionReason State :=
  match entry.request with
  | none => (entry, .error .notFound)
  | some request =>
      if request.info.state = .uncertain then (entry, .error .uncertainResolution)
      else if canCancel request.info.state then
        let added := entry.recordEvent
          { type := .cancelRequested, messageCode := "timeline.cancel_requested" } persisted
        (added.1, if added.2 then .ok request.info.state else .error .persistenceUnavailable)
      else (entry, .error .stateNotRetryable)

/-- The test `RetryNowChecked` makes under the lock. `RetryWaiting` makes the
same one first and calls it for what it found. -/
def retryable (entry : Entry) : Except ActionReason State :=
  match entry.state with
  | none => .error .notFound
  | some .uncertain => .error .uncertainResolution
  | some .waiting => .ok .waiting
  | some _ => .error .stateNotRetryable

/-- The signal of `RetryNowChecked`, which comes after the unlock. -/
def sendRetry (entry : Entry) (persisted : Bool) : Entry × Except ActionReason Unit :=
  if entry.retryNow then (entry, .error .alreadyRequested)
  else
    let added := { entry with retryNow := true }.addEvent
      { type := .retryRequested, messageCode := "timeline.retry_requested" } persisted
    (added.1, if added.2 then .ok () else .error .persistenceUnavailable)

/-- The signal of `ResolveUncertain` for a compensation. -/
def sendCompensation (entry : Entry) : Entry := { entry with retryNow := true }

/-- `signal(policyChanged)`. -/
def signalPolicy (entry : Entry) : Entry := { entry with policyChanged := true }

def setPolicy (entry : Entry) (policy : Option RetryPolicy) : Entry :=
  { entry with request := entry.request.map fun request => { request with policy := policy } }

/-- The policy `applyRetryPolicy` stores: active at once while the request
waits. -/
def policyFor (info : RequestInfo) (spec : RetryPolicySpec) (now : Int) : RetryPolicy :=
  let policy := RetryPolicy.new spec now
  if info.state = .waiting then policy.activate info.attempt now else policy

/-- `applyRetryPolicy`, up to its signal: the answer is the state it signals
by. -/
def applyRetryPolicy (entry : Entry) (now : Int) (spec : RetryPolicySpec)
    (overwrite validate persisted : Bool) : Entry × Except ActionReason State :=
  if validate && !spec.validate then (entry, .error .stateNotPolicyCapable)
  else
    match entry.request with
    | none => (entry, .error .notFound)
    | some request =>
        if !canSetRetryPolicy request.info.state then (entry, .error .stateNotPolicyCapable)
        else if request.policy.isSome && !overwrite then (entry, .error .policyExists)
        else
          let entry := entry.setPolicy (some (policyFor request.info spec now))
          let added := entry.addEvent
            { type := .retryPolicyUpdated, messageCode := "timeline.retry_policy_updated" } persisted
          (added.1, if added.2 then .ok request.info.state else .error .persistenceUnavailable)

/-- `ClearRetryPolicy`, up to its signal. -/
def clearRetryPolicy (entry : Entry) (persisted : Bool) : Entry × Except ActionReason State :=
  match entry.request with
  | none => (entry, .error .notFound)
  | some request =>
      if !canSetRetryPolicy request.info.state then (entry, .error .stateNotPolicyCapable)
      else if request.policy.isNone then (entry, .error .noPolicy)
      else
        let added := (entry.setPolicy none).addEvent
          { type := .retryPolicyReset, messageCode := "timeline.retry_policy_reset" } persisted
        (added.1, if added.2 then .ok request.info.state else .error .persistenceUnavailable)

/-- `ActivateRetryPolicy`. -/
def activateRetryPolicy (entry : Entry) (now : Int) (attempt : Nat) (persisted : Bool) :
    Entry × Option RetryPolicy :=
  match entry.request.bind TrackedRequest.policy with
  | none => (entry, none)
  | some policy =>
      if policy.active then (entry, some policy)
      else
        let policy := policy.activate attempt now
        let added := (entry.setPolicy (some policy)).addEvent
          { type := .retryPolicyActivated, attempt, messageCode := "timeline.retry_policy_activated" }
          persisted
        (added.1, some policy)

/-- `RetryPolicy`. -/
def retryPolicy (entry : Entry) : Option RetryPolicy := entry.request.bind TrackedRequest.policy

end Entry

end RelayLifeline.Registry
