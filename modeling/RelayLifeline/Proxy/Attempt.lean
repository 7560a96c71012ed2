import RelayLifeline.Governance.State
import RelayLifeline.Registry.Lifecycle
import RelayLifeline.Registry.RetryPolicy
import RelayLifeline.Upstream.Manager

/-!
# One attempt and its result

What the gateway reads from its configuration, and what an attempt hands back.
How an exchange with the upstream went is the outside world's to say, down to
the verdict on the body; this module turns it into the result the attempt loop
decides by.
-/

namespace RelayLifeline.Proxy

open Lifecycle Upstream

/-! ## Configuration -/

inductive ClientDisconnectPolicy where
  | cancel
  | finishAttempt
  deriving DecidableEq, Repr

/-- `config.LifecycleConfig`. -/
structure LifecycleConfig where
  trackUncertainDelivery : Bool := true
  preserveIdempotencyKey : Bool := true
  generateIdempotencyKey : Bool := false
  allowUncertainRetry : Bool := false
  allowCrossDomainFailover : Bool := false
  clientDisconnectPolicy : ClientDisconnectPolicy := .cancel

inductive RetryMode where
  | allErrors
  | transientErrors
  deriving DecidableEq, Repr

/-- `config.RetryConfig`. -/
structure RetryConfig where
  enabled : Bool := true
  mode : RetryMode := .allErrors
  minInterval : Int := Registry.second
  maxInterval : Int := Registry.second
  maxAttempts : Nat := 0
  maxElapsed : Int := 0
  retryAfterCap : Int := 0
  honorRetryAfter : Bool := false

/-- `config.Config`, as far as the attempt loop reads it. -/
structure Config where
  lifecycle : LifecycleConfig := {}
  retry : RetryConfig := {}
  governance : Governance.GovernanceConfig := { mode := .observe }
  recoverySpacing : Int := 0

/-- What `Validate` asks of the upstream pool. `parse` is `url.Parse`, down to
the scheme and the host. -/
def validateUpstreams (parse : String → Option (String × String)) (pool : UpstreamPoolConfig) :
    Bool :=
  (pool.strategy = "primary-only" || pool.strategy = "weighted-priority") &&
    pool.targets.all (fun target =>
      trimSpace target.id ≠ "" && 0 ≤ target.weight && 0 ≤ target.maxActive &&
        (parse target.baseURL).any fun url => url.2 ≠ "" && (url.1 = "http" || url.1 = "https")) &&
    (pool.targets.map UpstreamTargetConfig.id).Nodup &&
    (pool.strategy ≠ "weighted-priority" || pool.targets.all fun target => target.weight ≠ 0)

def Config.enforcing (cfg : Config) : Bool := cfg.governance.mode = .enforce

/-- `prepareIdempotencyKey`, on the header's value. A key is generated where
there is none to keep, unless the system is out of randomness. -/
def prepareIdempotencyKey (header : String) (cfg : LifecycleConfig)
    (generated : Option String) : String :=
  let kept := if cfg.preserveIdempotencyKey then header else ""
  if cfg.generateIdempotencyKey ∧ kept = "" then
    match generated with
    | some random => "lifeline-" ++ random
    | none => kept
  else kept

/-! ## Results -/

structure TokenUsage where
  inputTokens : Int64 := 0
  outputTokens : Int64 := 0
  totalTokens : Int64 := 0
  deriving DecidableEq, Repr

/-- `l10n.Message`: a message's name in the catalogue and what is filled in. -/
structure Message where
  id : String := ""
  data : List (String × String) := []
  deriving DecidableEq, Repr

structure Validation where
  success : Bool := false
  permanent : Bool := false
  message : Message := {}
  usage : Option TokenUsage := none
  deriving DecidableEq, Repr

/-- A response's status, and what its `Retry-After` header asks for. -/
structure Response where
  statusCode : Nat
  retryAfter : Int := 0
  deriving DecidableEq, Repr

structure AttemptResult where
  response : Option Response := none
  /-- The bytes of the replay buffer, where there is one. -/
  buffer : Option (List UInt8) := none
  validation : Validation := {}
  /-- `err != nil`. -/
  err : Bool := false
  phase : AttemptPhase
  wroteRequest : Bool := false
  targetID : String := ""
  targetDomain : String := ""
  deriving DecidableEq, Repr

/-- Why a response body could not be taken in whole. -/
inductive BodyError where
  | interrupted
  | idleTimeout
  | tooLarge (limit : String)
  | cacheBudget (limit : String)
  | diskSpace
  deriving DecidableEq, Repr

def BodyError.message : BodyError → Message
  | .interrupted => { id := "proxy.response_interrupted" }
  | .idleTimeout => { id := "proxy.response_body_timeout" }
  | .tooLarge limit => { id := "proxy.response_body_too_large", data := [("Limit", limit)] }
  | .cacheBudget limit => { id := "proxy.cache_budget_exceeded", data := [("Limit", limit)] }
  | .diskSpace => { id := "proxy.cache_disk_low" }

def BodyError.permanent : BodyError → Bool
  | .interrupted | .idleTimeout => false
  | .tooLarge _ | .cacheBudget _ | .diskSpace => true

/-- How an exchange with an upstream went. `wrote` is whether the transport
reported the request as written. -/
inductive Exchange where
  | urlInvalid
  | notCreated
  | failed (wrote timeout : Bool)
  | interrupted (wrote : Bool) (response : Response) (received : List UInt8) (cause : BodyError)
  | answered (wrote : Bool) (response : Response) (body : List UInt8) (validation : Validation)
  deriving DecidableEq, Repr

/-- `runAttemptForBaseURL`. -/
def runAttemptForBaseURL : Exchange → AttemptResult
  | .urlInvalid =>
      { err := true, phase := .prepare,
        validation := { message.id := "proxy.upstream_url_invalid" } }
  | .notCreated =>
      { err := true, phase := .prepare,
        validation := { message.id := "proxy.request_create_failed" } }
  | .failed wrote timeout =>
      { err := true, phase := if wrote then .responseHeaders else .connect, wroteRequest := wrote,
        validation :=
          { message.id :=
              if timeout then "proxy.connection_timeout" else "proxy.connection_failed" } }
  | .interrupted wrote response received cause =>
      { response := some response, buffer := some received, err := true, phase := .responseBody,
        wroteRequest := wrote,
        validation := { message := cause.message, permanent := cause.permanent } }
  | .answered wrote response body validation =>
      { response := some response, buffer := some body, phase := .protocol, wroteRequest := wrote,
        validation }

/-- `runAttemptForTarget`. -/
def runAttemptForTarget (target : Target) (exchange : Exchange) : AttemptResult :=
  { runAttemptForBaseURL exchange with
    targetID := target.id, targetDomain := target.idempotencyDomain }

/-- `governanceFailureResult`. -/
def governanceFailureResult (target : Target) : AttemptResult where
  err := true
  phase := .prepare
  targetID := target.id
  targetDomain := target.idempotencyDomain
  validation := { message.id := "proxy.persistence_unavailable" }

/-- The result of an attempt no target could be selected for: it stands for the
attempts before it. -/
def unselectedResult (err : SelectError) (previousTargetID previousTargetDomain : String)
    (everWroteRequest : Bool) : AttemptResult where
  err := true
  phase := .connect
  targetID := previousTargetID
  targetDomain := previousTargetDomain
  wroteRequest := everWroteRequest
  validation :=
    { message.id :=
        match err with
        | .failoverNotSafe => "proxy.failover_not_safe"
        | _ => "proxy.no_healthy_upstream" }

def attemptStatus (result : AttemptResult) : Nat :=
  match result.response with
  | none => 0
  | some response => response.statusCode

def attemptCategory (result : AttemptResult) : String :=
  match result.response with
  | none => "transport"
  | some response =>
      let status := response.statusCode
      if result.err then "transport"
      else if 200 ≤ status ∧ status < 300 then "protocol"
      else if status = 401 ∨ status = 403 then "auth"
      else if status = 429 then "rate_limit"
      else if 400 ≤ status ∧ status < 500 then "client"
      else if 500 ≤ status ∧ status < 600 then "server"
      else "http"

def describeAttempt (result : AttemptResult) : Message :=
  if result.validation.message.id = "" then { id := "proxy.unknown_error" }
  else result.validation.message

def shouldRetry (cfg : Config) (result : AttemptResult) : Bool :=
  if !cfg.retry.enabled || result.validation.permanent then false
  else if cfg.retry.mode = .allErrors then !result.validation.success
  else
    match result.response with
    | none => true
    | some response =>
        result.err || response.statusCode ∈ [408, 409, 425, 429] || 500 ≤ response.statusCode

/-- The request was written and nothing came back: the attempt's own part of
what makes a request uncertain. -/
def AttemptResult.undelivered (result : AttemptResult) : Bool :=
  result.response.isNone && result.wroteRequest

/-- The attempt gives governance something to settle. -/
def AttemptResult.accountable (result : AttemptResult) : Bool :=
  result.validation.usage.isSome || result.wroteRequest

/-- The observation an attempt completes its lease with. -/
def AttemptResult.observation (result : AttemptResult) (latency : Int) : Observation where
  success := result.validation.success
  wroteRequest := result.wroteRequest
  statusCode := attemptStatus result
  category := attemptCategory result
  latency := latency

/-- The usage an attempt is settled with. -/
def AttemptResult.usage (result : AttemptResult) : Governance.Usage :=
  match result.validation.usage with
  | some usage =>
      { inputTokens := usage.inputTokens, outputTokens := usage.outputTokens,
        totalTokens := usage.totalTokens, known := true }
  | none => { known := false }

/-- Only a response that came in whole can pass for a success. -/
theorem Exchange.answered_of_success {exchange : Exchange}
    (h : (runAttemptForBaseURL exchange).validation.success = true) :
    ∃ wrote response body validation, exchange = .answered wrote response body validation := by
  cases exchange with
  | urlInvalid => exact absurd h (by simp [runAttemptForBaseURL])
  | notCreated => exact absurd h (by simp [runAttemptForBaseURL])
  | failed wrote timeout => exact absurd h (by simp [runAttemptForBaseURL])
  | interrupted wrote response received cause => exact absurd h (by simp [runAttemptForBaseURL])
  | answered wrote response body validation => exact ⟨_, _, _, _, rfl⟩

/-- A lost response is no success. -/
theorem not_success_of_undelivered {target : Target} {exchange : Exchange}
    (h : (runAttemptForTarget target exchange).undelivered = true) :
    (runAttemptForTarget target exchange).validation.success = false := by
  by_contra hsuccess
  obtain ⟨wrote, response, body, validation, heq⟩ :=
    Exchange.answered_of_success
      (show (runAttemptForBaseURL exchange).validation.success = true by
        simpa [runAttemptForTarget] using hsuccess)
  simp [AttemptResult.undelivered, runAttemptForTarget, runAttemptForBaseURL, heq] at h

end RelayLifeline.Proxy
