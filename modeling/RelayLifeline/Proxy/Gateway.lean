import RelayLifeline.Proxy.World

/-!
# The attempt loop

`ServeHTTP` from the moment its request is registered, one step of the handler
for each point, and everything others do to the same request in between. An
event the state does not allow leaves it alone, so every list of events is a
run. Where the handler waits on several channels, the event says which of those
that are ready it takes.

Captures, metrics, logs, notifications and the shadow copy of a request decide
nothing here and are left out.
-/

namespace RelayLifeline.Proxy

open Lib Lifecycle Registry Upstream

/-- The channel a select of the handler takes. -/
inductive Wake where
  | context
  | retryNow
  | policyChanged
  | timer
  deriving DecidableEq, Repr

/-- What `Acquire` comes back with. -/
inductive Acquired where
  | granted
  | queueFull
  | canceled
  deriving DecidableEq, Repr

/-- What the world answers the handler in one step. Each point reads what it
asks for. -/
structure Answer where
  now : Int := 0
  clock : Clock := { now := minute, stamp := 0 }
  persisted : Bool := true
  decision : PolicyDecision := {}
  requestCanceled : Bool := false
  reservationID : String := "reservation"
  flushed : Bool := true
  acquired : Acquired := .granted
  wake : Wake := .timer
  waited : Option ContextError := none
  exchange : Exchange := .failed false false
  latency : Int := 0
  random : Nat := 0
  delivery : Downstream.Delivery := {}
  taken : Nat := 4096

/-- The name of an attempt in its reservation. -/
def attemptName (attempt : Nat) : String := "attempt-" ++ toString attempt

theorem attemptName_ne_empty (attempt : Nat) : attemptName attempt ≠ "" := by
  intro h
  have := congrArg String.toList h
  simp [attemptName] at this

@[simp] theorem trimSpace_attemptName (attempt : Nat) :
    trimSpace (attemptName attempt) = attemptName attempt := by
  refine trimSpace_of_no_space fun c hc => ?_
  have hrepr : (toString attempt).toList = Nat.toDigits 10 attempt := by
    rw [Nat.toString_eq_repr, Nat.repr, String.toList_ofList]
  rw [attemptName, String.toList_append, List.mem_append, hrepr] at hc
  rcases hc with hc | hc
  · have hall : "attempt-".toList.all (fun c => !isSpace c) = true := by decide
    simpa using List.all_eq_true.1 hall c hc
  · have hdigit : c.isDigit := Nat.isDigit_of_mem_toDigits (by decide) (by decide) hc
    simp only [Char.isDigit, Bool.and_eq_true, decide_eq_true_eq] at hdigit
    have hlow : 48 ≤ c.toNat := hdigit.1
    have hhigh : c.toNat ≤ 57 := hdigit.2
    simp only [isSpace, Bool.or_eq_false_iff, Bool.and_eq_false_iff, decide_eq_false_iff_not,
      beq_eq_false_iff_ne]
    omega

/-- `governanceDecisionReason`, as the message a client is refused with. -/
def governanceDenied (decision : Governance.Decision) (error : Governance.Error) : Message where
  id := "proxy.governance_denied"
  data := [("Reason",
    match decision.reason with
    | some reason => reason.text
    | none => if error = .ledgerUnavailable then "ledger_unavailable" else "budget_limit")]

def persistenceUnavailable : Message := { id := "proxy.persistence_unavailable" }

def queueFull : Message := { id := "proxy.queue_full" }

namespace World

/-! ## Before the loop -/

/-- Turn a request away before anything is started for it. -/
def reject (w : World) (a : Answer) (status : Nat) (text : String) : World :=
  { w.cancel with
    entry := (w.entry.remove .rejected a.persisted).1
    downstream := w.downstream.error status text
    handler.outcome := .rejected
    handler.point := .returned }

def evaluatePolicy (w : World) (a : Answer) : World :=
  if a.decision.denied ∧ a.decision.enforced then
    w.reject a 403 "request denied by traffic policy"
  else { w with handler.decision := a.decision, handler.point := .admitContext }

/-- `AdmitContext`, under an identifier it draws. -/
def admitContext (w : World) (a : Answer) : World :=
  let admitted := w.governance.admitWithContext a.clock a.requestCanceled a.reservationID
    { w.request.admission with upstream := w.handler.decision.targetID }
  let w := { w with governance := admitted.1 }
  match admitted.2.2 with
  | none =>
      { w with
        handler.reservation := some (trimSpace a.reservationID)
        handler.point := .startDownstream }
  | some error =>
      if w.handler.cfg.enforcing then
        w.reject a (if error = .tokenLimit ∨ error = .costLimit then 402 else 429)
          (w.request.text (governanceDenied admitted.2.1 error))
      else w.goto .startDownstream

def startDownstream (w : World) (a : Answer) : World :=
  let w := { w with
    downstream := w.downstream.start
    handler.started := a.now
    handler.point := .acquire }
  if a.flushed then w else w.onDisconnect

/-- The first `Acquire`. -/
def acquire (w : World) (a : Answer) : World :=
  match a.acquired with
  | .granted => w.goto .loop
  | .queueFull => { w with handler.outcome := .rejected, handler.point := .fail queueFull }
  | .canceled => if w.ctx.isSome then w.goto .stopHeartbeat else w

/-! ## An attempt -/

def loop (w : World) : World := { w with handler.cfg := w.config, handler.point := .pauseWait }

/-- `Controller.Wait`. -/
def pauseWait (w : World) : World :=
  if w.paused then if w.ctx.isSome then w.goto .stopHeartbeat else w
  else w.goto (if 1 < w.handler.attempt then .retryGate else .forwarding)

/-- `RetryGate.Wait`. -/
def retryGate (w : World) (a : Answer) : World :=
  if w.handler.cfg.recoverySpacing ≤ 0 then w.goto .forwarding
  else
    match a.wake with
    | .context => if w.ctx.isSome then w.goto .stopHeartbeat else w
    | .timer => w.goto .forwarding
    | _ => w

def forwarding (w : World) (a : Answer) : World :=
  (w.update a.now .forwarding {} 0).goto .attemptStarted

def attemptStarted (w : World) (a : Answer) : World :=
  let recorded := w.entry.recordEvent
    { type := .attemptStarted, attempt := w.handler.attempt,
      messageCode := "timeline.attempt_started" } a.persisted
  let w := { w with entry := recorded.1 }
  if recorded.2 then (w.note (.started w.handler.attempt)).goto .select
  else w.goto (.fail persistenceUnavailable)

/-- What the handler asks the pool for. -/
def selection (w : World) : SelectionContext where
  preferredTargetID := w.handler.decision.targetID
  requirePreferredTarget := w.handler.decision.enforced && !w.handler.decision.adaptive
  previousTargetID := w.handler.route.previousTargetID
  previousDomain := w.handler.route.previousTargetDomain
  wroteRequest := w.handler.route.everWroteRequest
  idempotencyKey := w.request.idempotencyKey
  allowCrossDomain := w.handler.cfg.lifecycle.allowCrossDomainFailover

def select (w : World) (a : Answer) : World :=
  let selected := w.pool.manager.select a.now w.selection w.ctx a.waited
  let leased := { w with pool := Pool.issue selected w.pool.leases }
  match selected.2 with
  | .error err =>
      (leased.note (.unselected w.handler.attempt)).goto <| .settle <|
        unselectedResult err w.handler.route.previousTargetID w.handler.route.previousTargetDomain
          w.handler.route.everWroteRequest
  | .ok _ => leased.goto (.bindUpstream w.pool.leases.length)

/-- Where governance leaves an attempt that has a lease: an error counts in
enforce mode only. -/
def governed (w : World) (lease : Nat) (decision : Governance.Decision)
    (error : Option Governance.Error) : World :=
  match error with
  | none => w.goto (.exchange lease)
  | some error =>
      if w.handler.cfg.enforcing then w.goto (.refused lease (governanceDenied decision error))
      else w.goto (.exchange lease)

/-- `BindUpstreamWithDecision` for the first attempt, and the first half of
`BeginAttempt` for a later one. -/
def bindUpstream (w : World) (a : Answer) (lease : Nat) : World :=
  match w.handler.reservation with
  | none => w.goto (.exchange lease)
  | some id =>
      if w.handler.attempt = 1 then
        let bound := w.governance.bindUpstreamWithDecision a.clock id (w.target lease).id
        { w with governance := bound.1 }.governed lease bound.2.1 bound.2.2
      else
        let w := w.note (.begun w.handler.attempt)
        if trimSpace (w.target lease).id = "" then w.goto (.beginAttempt lease)
        else
          let bound := w.governance.bindUpstreamWithDecision a.clock id (w.target lease).id
          match bound.2.2 with
          | none => { w with governance := bound.1 }.goto (.beginAttempt lease)
          | some error =>
              { w with governance := bound.1 }.governed lease
                { allowed := false, reason := some .upstream } (some error)

/-- The second half of `BeginAttempt`. -/
def beginAttempt (w : World) (a : Answer) (lease : Nat) : World :=
  match w.handler.reservation with
  | none => w.goto (.exchange lease)
  | some id =>
      let begun := w.governance.begin a.clock id (trimSpace (attemptName w.handler.attempt))
      { w with governance := begun.1 }.governed lease begun.2.1 begun.2.2

/-- The lease goes back unused and the request is refused. -/
def refused (w : World) (lease : Nat) (reason : Message) : World :=
  { w with pool := w.pool.step (.release lease) }.goto (.fail reason)

def exchange (w : World) (a : Answer) (lease : Nat) : World :=
  let result := runAttemptForTarget (w.target lease) a.exchange
  let w' := { w with pool := w.pool.step (.complete lease a.now (result.observation a.latency)) }
  (w'.note (.ended w.handler.attempt (w.target lease) result)).goto (.settle result)

/-- `Record`, where the attempt has something to settle. -/
def settle (w : World) (a : Answer) (result : AttemptResult) : World :=
  match w.handler.reservation with
  | none => w.goto (.judge result)
  | some id =>
      if result.accountable then
        let recorded := w.governance.record a.clock id (attemptName w.handler.attempt) result.usage
        let w := w.note (.recorded w.handler.attempt result.usage)
        let w := { w with governance := recorded.1 }
        if recorded.2.2.isSome && w.handler.cfg.enforcing then w.goto (.fail persistenceUnavailable)
        else w.goto (.judge result)
      else w.goto (.judge result)

/-- The attempt is remembered, and then it has succeeded or not. -/
def judge (w : World) (result : AttemptResult) : World :=
  let w := { w with
    handler.route :=
      { previousTargetID := result.targetID, previousTargetDomain := result.targetDomain,
        everWroteRequest := w.handler.route.everWroteRequest || result.wroteRequest } }
  if w.clientDisconnected ∧ w.handler.cfg.lifecycle.clientDisconnectPolicy = .finishAttempt then
    w.goto .stopHeartbeat
  else if result.validation.success then w.goto (.releaseReservation result)
  else w.goto (.classify result)

/-! ## A success -/

/-- `Release` before delivery. The handler asks for no mode here. -/
def releaseReservation (w : World) (a : Answer) (result : AttemptResult) : World :=
  match w.handler.reservation with
  | none => w.goto (.buffering result)
  | some id =>
      let released := w.governance.release a.clock id
      let w := { w with governance := released.1 }
      if released.2.isSome then w.goto (.fail persistenceUnavailable)
      else { w with handler.reservation := none, handler.point := .buffering result }

def buffering (w : World) (a : Answer) (result : AttemptResult) : World :=
  (w.update a.now .buffering {} 0).goto (.delivering result)

def delivering (w : World) (a : Answer) (result : AttemptResult) : World :=
  (w.update a.now .delivering {} 0).goto (.deliver result)

/-- `deliver`, which first stops the heartbeat and waits for it. -/
def deliver (w : World) (a : Answer) (result : AttemptResult) : World :=
  if w.downstream.done then
    let delivered := w.downstream.deliver (result.buffer.getD []) a.delivery
    let w := { w with downstream := delivered.1 }
    if delivered.2 then w.goto .completed
    else
      (w.record
        { type := .deliveryFailed, attempt := w.handler.attempt, category := "client",
          messageCode := "timeline.delivery_failed", attemptPhase := some .delivery }
        a.persisted).goto .stopHeartbeat
  else { w with downstream := w.downstream.stopHeartbeat }

def completed (w : World) (a : Answer) : World :=
  let w := ({ w with handler.outcome := .successful }.update a.now .completed {} 0).record
    { type := .completed, attempt := w.handler.attempt, messageCode := "timeline.completed" }
    a.persisted
  w.goto .stopHeartbeat

/-! ## A failure -/

/-- The event of an attempt that ended. -/
def attemptEvent (w : World) (type : Timeline.EventType) (result : AttemptResult) :
    Timeline.Event where
  type := type
  attempt := w.handler.attempt
  statusCode := attemptStatus result
  category := attemptCategory result
  messageCode := (describeAttempt result).id
  attemptPhase := some result.phase
  targetID := result.targetID
  targetDomain := result.targetDomain
  wroteRequest := result.wroteRequest

/-- What the failed attempt makes of the request's state. -/
def classify (w : World) (a : Answer) (result : AttemptResult) : World :=
  if result.response.isSome then
    (w.update a.now .buffering {} 0).goto (.attemptFailed result)
  else if result.wroteRequest ∧ w.handler.cfg.lifecycle.trackUncertainDelivery then
    let w := (w.update a.now .uncertain (describeAttempt result) 0).record
      { w.attemptEvent .uncertain result with
        category := "duplicate_risk", messageCode := "timeline.uncertain", wroteRequest := true }
      a.persisted
    (w.note (.uncertain w.handler.attempt)).goto (.attemptFailed result)
  else w.goto (.attemptFailed result)

def attemptFailed (w : World) (a : Answer) (result : AttemptResult) : World :=
  let recorded := w.entry.recordEvent (w.attemptEvent .attemptFailed result) a.persisted
  let w := { w with entry := recorded.1 }
  if recorded.2 then
    { w with
      handler.rescheduled := false
      handler.manualUncertainRetry := false
      handler.point := .awaitRetry result }
  else w.goto (.fail persistenceUnavailable)

/-! ## Waiting for a retry -/

/-- `finishExpiredRetry`, up to the failure it sends. -/
def expire (w : World) (a : Answer) (result : AttemptResult) : World :=
  let w := w.record
    { type := .retryWindowExpired, attempt := w.handler.attempt,
      messageCode := "timeline.retry_window_expired" } a.persisted
  { w with handler.outcome := .expired, handler.point := .fail (describeAttempt result) }

/-- The head of the loop in `awaitRetry`. -/
def awaitRetry (w : World) (a : Answer) (result : AttemptResult) : World :=
  if (remainingElapsed a.now w.config w.handler.started).any (· ≤ 0) then w.expire a result
  else w.goto (.activatePolicy result w.config)

/-- `awaitRetry`'s own word for uncertain. -/
def uncertainResult (cfg : Config) (result : AttemptResult) : Bool :=
  result.undelivered && cfg.lifecycle.trackUncertainDelivery

def activatePolicy (w : World) (a : Answer) (result : AttemptResult) (cfg : Config) : World :=
  let activated := w.entry.activateRetryPolicy a.now w.handler.attempt a.persisted
  let w := { w with entry := activated.1 }
  if uncertainResult cfg result && !cfg.lifecycle.allowUncertainRetry &&
      !w.handler.manualUncertainRetry then
    w.goto (.holdUncertain result cfg activated.2)
  else w.goto (.schedule result cfg activated.2)

def holdUncertain (w : World) (a : Answer) (result : AttemptResult) (cfg : Config)
    (policy : Option RetryPolicy) : World :=
  ((w.update a.now .uncertain (describeAttempt result) 0).record
    { type := .uncertainRetryBlocked, attempt := w.handler.attempt,
      messageCode := "timeline.uncertain_retry_blocked" } a.persisted).goto
    (.manualWait result cfg policy)

/-- `waitForManualRetry`. Its timer only warns. -/
def manualWait (w : World) (a : Answer) (result : AttemptResult) (cfg : Config)
    (policy : Option RetryPolicy) : World :=
  match a.wake with
  | .context => if w.ctx.isSome then w.goto .stopHeartbeat else w
  | .retryNow =>
      if w.entry.retryNow then
        { w with
          entry.retryNow := false
          handler.manualUncertainRetry := true
          handler.point := .schedule result cfg policy }
      else w
  | .policyChanged =>
      if w.entry.policyChanged then
        { w with
          entry.policyChanged := false
          handler.rescheduled := true
          handler.point := .awaitRetry result }
      else w
  | .timer => w

/-- A stop that a resumed uncertain request overrides: the ordinary retry rules
say no, but an operator said yes. -/
def overridden (w : World) (cfg : Config) (result : AttemptResult) (stop : RetryStopReason) :
    Bool :=
  w.handler.manualUncertainRetry && uncertainResult cfg result &&
    !result.validation.permanent && stop = .denied

/-- The request starts to wait for its next attempt. -/
def wait (w : World) (a : Answer) (result : AttemptResult) (delay : Int) : World :=
  let resumed := w.handler.rescheduled
  ((w.update a.now .waiting (describeAttempt result) (a.now + delay)).record
    { type := if resumed then .retryRescheduled else .waiting, attempt := w.handler.attempt,
      messageCode := if resumed then "timeline.retry_rescheduled" else "timeline.waiting",
      waitNanoseconds := delay } a.persisted).goto
    (.retryWait result (a.now + delay))

def schedule (w : World) (a : Answer) (result : AttemptResult) (cfg : Config)
    (policy : Option RetryPolicy) : World :=
  let stop := retryPolicyStop a.now cfg result w.handler.attempt policy
  if stop = .none ∨ w.overridden cfg result stop then
    match Proxy.retryWait a.now a.random cfg w.handler.started w.handler.attempt result.response
      policy with
    | none => w.expire a result
    | some delay => w.wait a result delay
  else
    match stop with
    | .expired => w.expire a result
    | .attemptsExhausted =>
        (w.record
          { type := .retryAttemptsExhausted, attempt := w.handler.attempt,
            messageCode := "timeline.retry_attempts_exhausted" } a.persisted).goto
          (.fail (describeAttempt result))
    | _ => w.goto (.fail (describeAttempt result))

/-- `waitForRetry`. -/
def retryWait (w : World) (a : Answer) (result : AttemptResult) (ready : Int) : World :=
  match a.wake with
  | .context => if w.ctx.isSome then w.goto .stopHeartbeat else w
  | .retryNow =>
      if w.entry.retryNow then
        { w with
          entry.retryNow := false
          handler.point := .checkDeadline result "timeline.retry_manual" }
      else w
  | .policyChanged =>
      if w.entry.policyChanged then
        { w with
          entry.policyChanged := false
          handler.rescheduled := true
          handler.point := .awaitRetry result }
      else w
  | .timer =>
      if ready ≤ a.now then w.goto (.checkDeadline result "timeline.retry_timer") else w

/-- The last look at the request's own policy. -/
def checkDeadline (w : World) (a : Answer) (result : AttemptResult) (resumeReason : String) :
    World :=
  if w.entry.retryPolicy.any fun policy => policy.active && policy.deadline ≤ a.now then
    w.expire a result
  else w.goto (.reacquire resumeReason)

/-- The slot is given back and asked for again. -/
def reacquire (w : World) (a : Answer) (resumeReason : String) : World :=
  let refuse := { w with handler.outcome := .rejected, handler.point := .fail queueFull }
  match a.acquired with
  | .granted =>
      let w := w.record
        { type := .retryResumed, attempt := w.handler.attempt + 1, messageCode := resumeReason }
        a.persisted
      { w with handler.attempt := w.handler.attempt + 1, handler.point := .loop }
  | .queueFull => refuse
  | .canceled => if w.ctx.isSome then refuse else w

/-! ## The ways out -/

/-- `downstream.fail`, which first stops the heartbeat and waits for it. -/
def fail (w : World) (a : Answer) (message : Message) : World :=
  if w.downstream.done then
    { w with
      downstream := w.downstream.fail (w.request.quote (w.request.text message)) a.taken
      handler.point := .stopHeartbeat }
  else { w with downstream := w.downstream.stopHeartbeat }

/-- The deferred `stopHeartbeat`. -/
def stopHeartbeat (w : World) : World :=
  if w.downstream.done then w.goto .finish
  else { w with downstream := w.downstream.stopHeartbeat }

/-- The outcome the deferred function computes. -/
def finish (w : World) (a : Answer) : World :=
  match w.entry.resolution with
  | some .confirmSuccess =>
      { w with handler.outcome := .confirmedSuccess, handler.point := .remove }
  | some .abandon => { w with handler.outcome := .abandoned, handler.point := .remove }
  | _ =>
      if w.handler.outcome ≠ .successful ∧ w.handler.outcome ≠ .rejected ∧
          (w.ctx.isSome ∨ w.clientDisconnected) then
        if w.ctx = some .deadlineExceeded then
          { w.record { type := .expired, messageCode := "timeline.expired" } a.persisted with
            handler.outcome := .expired, handler.point := .remove }
        else
          { w.record { type := .canceled, messageCode := "timeline.canceled" } a.persisted with
            handler.outcome := .canceled, handler.point := .remove }
      else w.goto .remove

def remove (w : World) (a : Answer) : World :=
  { w.cancel with
    entry := (w.entry.remove w.handler.outcome a.persisted).1
    handler.point := .releaseDeferred }

/-- The deferred `Release`. -/
def releaseDeferred (w : World) (a : Answer) : World :=
  match w.handler.reservation with
  | none => w.goto .returned
  | some id => { w with governance := (w.governance.release a.clock id).1 }.goto .returned

/-- One step of the handler. -/
def handle (w : World) (a : Answer) : World :=
  match w.handler.point with
  | .evaluatePolicy => w.evaluatePolicy a
  | .admitContext => w.admitContext a
  | .startDownstream => w.startDownstream a
  | .acquire => w.acquire a
  | .loop => w.loop
  | .pauseWait => w.pauseWait
  | .retryGate => w.retryGate a
  | .forwarding => w.forwarding a
  | .attemptStarted => w.attemptStarted a
  | .select => w.select a
  | .bindUpstream lease => w.bindUpstream a lease
  | .beginAttempt lease => w.beginAttempt a lease
  | .refused lease reason => w.refused lease reason
  | .exchange lease => w.exchange a lease
  | .settle result => w.settle a result
  | .judge result => w.judge result
  | .releaseReservation result => w.releaseReservation a result
  | .buffering result => w.buffering a result
  | .delivering result => w.delivering a result
  | .deliver result => w.deliver a result
  | .completed => w.completed a
  | .classify result => w.classify a result
  | .attemptFailed result => w.attemptFailed a result
  | .awaitRetry result => w.awaitRetry a result
  | .activatePolicy result cfg => w.activatePolicy a result cfg
  | .holdUncertain result cfg policy => w.holdUncertain a result cfg policy
  | .manualWait result cfg policy => w.manualWait a result cfg policy
  | .schedule result cfg policy => w.schedule a result cfg policy
  | .retryWait result ready => w.retryWait a result ready
  | .checkDeadline result resumeReason => w.checkDeadline a result resumeReason
  | .reacquire resumeReason => w.reacquire a resumeReason
  | .fail message => w.fail a message
  | .stopHeartbeat => w.stopHeartbeat
  | .finish => w.finish a
  | .remove => w.remove a
  | .releaseDeferred => w.releaseDeferred a
  | .returned => w

end World

/-! ## Everything else that happens -/

/-- What others do while the handler runs. An operator's call that signals or
cancels after it let the registry's lock go takes two events. -/
inductive Event where
  | handler (answer : Answer)
  | heartbeat (beat : Downstream.Beat)
  | heartbeatQuit
  | retryNowChecked
  | sendRetry (persisted : Bool)
  | applyRetryPolicy (now : Int) (spec : RetryPolicySpec) (overwrite validate persisted : Bool)
  | clearRetryPolicy (persisted : Bool)
  | signalPolicy
  | resolveUncertain (now : Int) (resolution : Resolution) (persisted : Bool)
  | sendCompensation
  | cancelChecked (persisted : Bool)
  | sendCancel
  | contextDone (err : ContextError)
  | disconnect
  | pause
  | resume
  | configure (cfg : Config)
  | govern (action : Governance.Action)
  | upstream (op : Upstream.Op)
  | reload (pool : UpstreamPoolConfig) (legacy : UpstreamConfig)

namespace World

/-- A call on the manager that names the handler's own reservation. -/
def ownCall (w : World) : Governance.Action → Bool
  | .step (.call op) =>
      w.handler.reservation.any fun id => op.call.id = id ∨ trimSpace op.call.id = id
  | _ => false

/-- An operator's `ApplyRetryPolicy` or `ClearRetryPolicy` is about to signal
where the request was waiting. -/
def policyAction (w : World) (answer : Entry × Except ActionReason State) : World :=
  let w := { w with entry := answer.1 }
  match answer.2 with
  | .ok .waiting => { w with operators.policySenders := w.operators.policySenders + 1 }
  | _ => w

def resolveUncertain (w : World) (now : Int) (resolution : Resolution) (persisted : Bool) :
    World :=
  let answer := w.entry.resolveUncertain now resolution persisted
  let w := { w with entry := answer.1 }
  match answer.2 with
  | .error _ => w
  | .ok _ =>
      match resolution with
      | .requestCompensation =>
          { w.note .compensated with operators.compensators := w.operators.compensators + 1 }
      | _ => { w with operators.cancellers := w.operators.cancellers + 1 }

def step (w : World) : Event → World
  | .handler answer => w.handle answer
  | .heartbeat beat =>
      let beaten := w.downstream.beat beat
      let w := { w with downstream := beaten.1 }
      if beaten.2 then w else w.onDisconnect
  | .heartbeatQuit => { w with downstream := w.downstream.quit }
  | .retryNowChecked =>
      match w.entry.retryable with
      | .ok _ => { w with operators.retrySenders := w.operators.retrySenders + 1 }
      | .error _ => w
  | .sendRetry persisted =>
      if w.operators.retrySenders = 0 then w
      else
        { w with
          entry := (w.entry.sendRetry persisted).1
          operators.retrySenders := w.operators.retrySenders - 1 }
  | .applyRetryPolicy now spec overwrite validate persisted =>
      w.policyAction (w.entry.applyRetryPolicy now spec overwrite validate persisted)
  | .clearRetryPolicy persisted => w.policyAction (w.entry.clearRetryPolicy persisted)
  | .signalPolicy =>
      if w.operators.policySenders = 0 then w
      else
        { w with
          entry := w.entry.signalPolicy
          operators.policySenders := w.operators.policySenders - 1 }
  | .resolveUncertain now resolution persisted => w.resolveUncertain now resolution persisted
  | .sendCompensation =>
      if w.operators.compensators = 0 then w
      else
        { w with
          entry := w.entry.sendCompensation
          operators.compensators := w.operators.compensators - 1 }
  | .cancelChecked persisted =>
      let answer := w.entry.cancelChecked persisted
      let w := { w with entry := answer.1 }
      match answer.2 with
      | .ok _ => { w with operators.cancellers := w.operators.cancellers + 1 }
      | .error _ => w
  | .sendCancel =>
      if w.operators.cancellers = 0 then w
      else { w.cancel with operators.cancellers := w.operators.cancellers - 1 }
  | .contextDone err => { w with ctx := w.ctx <|> some err }
  | .disconnect => w.onDisconnect
  | .pause => { w with paused := true }
  | .resume => { w with paused := false }
  | .configure cfg => { w with config := cfg }
  | .govern action => if w.ownCall action then w else { w with governance := w.governance.act action }
  | .upstream op =>
      if op.finishes.isSome ∧ op.finishes = w.handler.point.lease then w
      else { w with pool := w.pool.step op }
  | .reload pool legacy =>
      { w with pool := { w.pool with manager := (w.pool.manager.apply pool legacy).1 } }

def run (w : World) (events : List Event) : World := events.foldl step w

/-- The one upstream of a legacy configuration. -/
def relay : UpstreamConfig := ⟨"https://relay", 1, 1, 1⟩

/-- A request before the targets of `pool`, or before the relay where it has
none. -/
def before (pool : UpstreamPoolConfig) (cfg : Config) : World :=
  start {} cfg { config := cfg.governance }
    (Pool.start ((Upstream.Manager.blank relay).apply pool relay).1)

/-- A second between attempts. -/
def everySecond : Config where
  retry := { minInterval := second, maxInterval := second }

/-- Steps of the handler at one moment, waking at its timers. They get the
answers of an untroubled run, in which no attempt gets through to the upstream. -/
def stepsAt (now : Int) (n : Nat) : List Event := List.replicate n (.handler { now := now })

/-- Such steps at the start of the run. -/
def usual (n : Nat) : List Event := stepsAt 0 n

end World

end RelayLifeline.Proxy
