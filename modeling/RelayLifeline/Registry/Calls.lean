import RelayLifeline.Registry.Entry

/-!
# A call that can be skipped

An operator's call on one request, section by section: each step is what the
call does under one hold of the registry's lock, one send into a channel or one
append to the timeline. Between two of them the request's own goroutine and
other operators do what they like.
-/

namespace RelayLifeline.Registry

open Lifecycle Timeline

inductive Call where
  | cancelChecked
  | retryNowChecked
  | applyRetryPolicy (spec : RetryPolicySpec) (overwrite : Bool)
  | clearRetryPolicy
  /-- None stands for a resolution that is not one of the three. -/
  | resolveUncertain (resolution : Option Resolution)

/-- How far a call has come: what it does next, or what it has answered. -/
inductive Progress where
  | called (call : Call)
  | sendRetry (state : State)
  | logRetry (state : State)
  | logPolicy (state : State) (event : Event)
  | signalPolicy (state : State)
  | sendCompensation (state : State)
  | cancel (state : State)
  | returned (answer : Except ActionReason State)

/-- A request, whether its context is canceled, and a call on it. -/
structure Scene where
  entry : Entry
  canceled : Bool := false
  progress : Progress

namespace Entry

/-- `applyRetryPolicy`, up to the unlock. -/
def storeRetryPolicy (entry : Entry) (now : Int) (spec : RetryPolicySpec) (overwrite : Bool) :
    Entry × Except ActionReason State :=
  if !spec.validate then (entry, .error .stateNotPolicyCapable)
  else
    match entry.request with
    | none => (entry, .error .notFound)
    | some request =>
        if !canSetRetryPolicy request.info.state then (entry, .error .stateNotPolicyCapable)
        else if request.policy.isSome && !overwrite then (entry, .error .policyExists)
        else (entry.setPolicy (some (policyFor request.info spec now)), .ok request.info.state)

/-- `ClearRetryPolicy`, up to the unlock. -/
def dropRetryPolicy (entry : Entry) : Entry × Except ActionReason State :=
  match entry.request with
  | none => (entry, .error .notFound)
  | some request =>
      if !canSetRetryPolicy request.info.state then (entry, .error .stateNotPolicyCapable)
      else if request.policy.isNone then (entry, .error .noPolicy)
      else (entry.setPolicy none, .ok request.info.state)

/-- How `ResolveUncertain` refuses a resolution that is not one of the three. -/
def refuseResolution (entry : Entry) : ActionReason :=
  match entry.request with
  | none => .notFound
  | some request =>
      if request.info.state ≠ .uncertain then .stateNotRetryable
      else if request.info.uncertainResolution.isSome then .alreadyRequested
      else .stateNotRetryable

end Entry

namespace Scene

def start (entry : Entry) (canceled : Bool) (call : Call) : Scene :=
  { entry, canceled, progress := .called call }

/-- The call goes on with `next`, or has been skipped. -/
def go (s : Scene) (answer : Entry × Except ActionReason State) (next : State → Progress) : Scene :=
  { s with
    entry := answer.1
    progress :=
      match answer.2 with
      | .ok state => next state
      | .error reason => .returned (.error reason) }

/-- An append after which the call goes on with `next`, unless it fails. -/
def log (s : Scene) (event : Event) (persisted : Bool) (next : Progress) : Scene :=
  let added := s.entry.addEvent event persisted
  { s with
    entry := added.1
    progress := if added.2 then next else .returned (.error .persistenceUnavailable) }

/-- The next section of the call. -/
def advance (s : Scene) (now : Int) (persisted : Bool) : Scene :=
  match s.progress with
  | .called .cancelChecked => s.go (s.entry.cancelChecked persisted) .cancel
  | .called .retryNowChecked => s.go (s.entry, s.entry.retryable) .sendRetry
  | .sendRetry state =>
      if s.entry.retryNow then { s with progress := .returned (.error .alreadyRequested) }
      else { s with entry.retryNow := true, progress := .logRetry state }
  | .logRetry state =>
      s.log { type := .retryRequested, messageCode := "timeline.retry_requested" } persisted
        (.returned (.ok state))
  | .called (.applyRetryPolicy spec overwrite) =>
      s.go (s.entry.storeRetryPolicy now spec overwrite) fun state => .logPolicy state
        { type := .retryPolicyUpdated, messageCode := "timeline.retry_policy_updated" }
  | .called .clearRetryPolicy =>
      s.go s.entry.dropRetryPolicy fun state => .logPolicy state
        { type := .retryPolicyReset, messageCode := "timeline.retry_policy_reset" }
  | .logPolicy state event =>
      s.log event persisted
        (if state = .waiting then .signalPolicy state else .returned (.ok state))
  | .signalPolicy state =>
      { s with entry := s.entry.signalPolicy, progress := .returned (.ok state) }
  | .called (.resolveUncertain none) =>
      { s with progress := .returned (.error s.entry.refuseResolution) }
  | .called (.resolveUncertain (some resolution)) =>
      s.go (s.entry.resolveUncertain now resolution persisted) fun state =>
        if resolution = .requestCompensation then .sendCompensation state else .cancel state
  | .sendCompensation state =>
      { s with entry := s.entry.sendCompensation, progress := .returned (.ok state) }
  | .cancel state => { s with canceled := true, progress := .returned (.ok state) }
  | .returned _ => s

/-- A move of the call, or any change by others. -/
inductive Move where
  | call (now : Int) (persisted : Bool)
  | others (entry : Entry) (canceled : Bool)

def step (s : Scene) : Move → Scene
  | .call now persisted => s.advance now persisted
  | .others entry canceled => { s with entry := entry, canceled := canceled }

def run (s : Scene) (moves : List Move) : Scene := moves.foldl step s

end Scene

end RelayLifeline.Registry
