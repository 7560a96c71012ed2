import RelayLifeline.Proxy.Gateway

/-!
# One run of a repeat task

`ExecuteRepeat` sends a stored request once more. It takes the same governance
calls as an ordinary request, but one attempt is all there is, and what comes
of it is a record for the task and no response to anyone. Other clients may
call the governance manager between any two of its calls.
-/

namespace RelayLifeline.Proxy

open Lib Lifecycle Upstream

/-- `repeat.Execution`, less its times. -/
structure Execution where
  id : String
  success : Bool := false
  statusCode : Nat := 0
  errorCode : String := ""
  usageTokens : Int64 := 0
  usageAvailable : Bool := false
  deriving DecidableEq, Repr

/-- What the world answers one execution: the gates before it, its admission,
the target it is given and how the exchange goes, and what others do to the
manager before each of its calls there. -/
structure RepeatAnswer where
  accepting : Bool := true
  resourcesLeft : Bool := true
  waited : Bool := true
  acquired : Bool := true
  created : Bool := true
  requestCanceled : Bool := false
  admission : Governance.AdmissionContext := { principal := "client" }
  selected : Except SelectError Target := .ok {}
  exchange : Exchange := .failed false false
  clock : Clock := { now := minute, stamp := 0 }
  bindClock : Clock := { now := minute, stamp := 0 }
  recordClock : Clock := { now := minute, stamp := 0 }
  releaseClock : Clock := { now := minute, stamp := 0 }
  beforeAdmit : List Governance.Action := []
  beforeBind : List Governance.Action := []
  beforeRecord : List Governance.Action := []
  beforeRelease : List Governance.Action := []

namespace Execution

/-- The manager and the attempt, with the reservation the execution holds. -/
structure Attempted where
  governance : Governance.Manager
  reservation : Option String
  result : AttemptResult

/-- A result that a governance error has turned into a failure. -/
def unavailable (result : AttemptResult) : AttemptResult :=
  { result with
    err := true
    validation := { result.validation with success := false, message := persistenceUnavailable } }

/-- The selection, the binding and the exchange. -/
def attempt (cfg : Config) (a : RepeatAnswer) (governance : Governance.Manager)
    (reservation : Option String) : Attempted :=
  match a.selected with
  | .error _ =>
      { governance, reservation
        result :=
          { err := true, phase := .connect
            validation := { message.id := "proxy.no_healthy_upstream" } } }
  | .ok target =>
      match reservation with
      | none => { governance, reservation, result := runAttemptForTarget target a.exchange }
      | some id =>
          let bound := (governance.acts a.beforeBind).bindUpstreamWithDecision a.bindClock id target.id
          match bound.2.2 with
          | some error =>
              if cfg.enforcing then
                { governance := bound.1, reservation
                  result :=
                    let failed := governanceFailureResult target
                    { failed with
                      validation :=
                        { failed.validation with message := governanceDenied bound.2.1 error } } }
              else
                { governance := bound.1, reservation
                  result := runAttemptForTarget target a.exchange }
          | none =>
              { governance := bound.1, reservation
                result := runAttemptForTarget target a.exchange }

/-- `Record`, where the attempt has something to settle. -/
def settle (cfg : Config) (a : RepeatAnswer) (w : Attempted) : Attempted :=
  match w.reservation with
  | none => w
  | some id =>
      if w.result.accountable then
        let recorded := (w.governance.acts a.beforeRecord).record a.recordClock id "attempt-1"
          w.result.usage
        { w with
          governance := recorded.1
          result :=
            if recorded.2.2.isSome && cfg.enforcing then unavailable w.result else w.result }
      else w

/-- `Release` before the success is reported. No mode is asked for here. -/
def release (a : RepeatAnswer) (w : Attempted) : Attempted :=
  match w.reservation with
  | none => w
  | some id =>
      if w.result.validation.success then
        let released := (w.governance.acts a.beforeRelease).release a.releaseClock id
        if released.2.isSome then
          { w with governance := released.1, result := unavailable w.result }
        else { w with governance := released.1, reservation := none }
      else w

/-- The execution up to its release, once it is admitted or let pass. -/
def settled (cfg : Config) (executionID : String) (a : RepeatAnswer)
    (admitted : Governance.Manager × Governance.Decision × Option Governance.Error) : Attempted :=
  settle cfg a <| attempt cfg a admitted.1 <|
    if admitted.2.2.isSome then none else some (trimSpace executionID)

/-- The record of the execution, and the deferred `Release`. -/
def finish (executionID : String) (a : RepeatAnswer) (w : Attempted) :
    Governance.Manager × Execution :=
  (match w.reservation with
    | none => w.governance
    | some id => (w.governance.release a.releaseClock id).1,
    { id := executionID
      success := w.result.validation.success
      statusCode := attemptStatus w.result
      errorCode := if w.result.validation.success then "" else (describeAttempt w.result).id
      usageTokens := w.result.validation.usage.elim 0 TokenUsage.totalTokens
      usageAvailable := w.result.validation.usage.isSome })

end Execution

/-- `runRepeatAttempt`. -/
def runRepeatAttempt (cfg : Config) (executionID : String) (a : RepeatAnswer)
    (governance : Governance.Manager) : Governance.Manager × Execution :=
  if !a.created then (governance, { id := executionID, errorCode := "proxy.request_create_failed" })
  else
    let admitted := (governance.acts a.beforeAdmit).admitWithContext a.clock a.requestCanceled
      executionID a.admission
    if admitted.2.2.isSome && cfg.enforcing then
      (admitted.1,
        { id := executionID
          errorCode := "governance." ++ admitted.2.1.reason.elim "" Governance.Reason.text })
    else
      Execution.finish executionID a
        (Execution.release a (Execution.settled cfg executionID a admitted))

/-- `ExecuteRepeat`. -/
def executeRepeat (cfg : Config) (executionID : String) (a : RepeatAnswer)
    (governance : Governance.Manager) : Governance.Manager × Execution :=
  if !a.accepting then (governance, { id := executionID, errorCode := "proxy.maintenance" })
  else if !a.resourcesLeft then
    (governance, { id := executionID, errorCode := "proxy.resource_protected" })
  else if !a.waited then (governance, { id := executionID, errorCode := "proxy.request_canceled" })
  else if !a.acquired then (governance, { id := executionID, errorCode := "proxy.queue_full" })
  else runRepeatAttempt cfg executionID a governance

end RelayLifeline.Proxy
