import RelayLifeline.Governance.Actions
import RelayLifeline.Proxy.RetrySchedule
import RelayLifeline.Proxy.Writer
import RelayLifeline.Registry.Effects
import RelayLifeline.Upstream.Leases

/-!
# A request and the world around it

The state a run of `ServeHTTP` moves in. The handler's own variables stand at a
point of its program; around it are what it shares with everyone else: the
configuration store, the registry, the context of the request, the controller,
the governance manager, the upstream pool and the client's connection. The log
keeps what the claims about a whole run speak of, and nothing reads it.
-/

namespace RelayLifeline.Proxy

open Lifecycle Registry Upstream

/-- `trafficpolicy.Decision`, as the handler reads it. -/
structure PolicyDecision where
  targetID : String := ""
  enforced : Bool := false
  adaptive : Bool := false
  denied : Bool := false
  deriving DecidableEq, Repr

/-- The request, once its header went through `prepareIdempotencyKey`. `text` is
how a message reads in the client's language, and `quote` is Go's `%q`. -/
structure Request where
  idempotencyKey : String := ""
  streaming : Bool := false
  admission : Governance.AdmissionContext := { principal := "client" }
  text : Message → String := Message.id
  quote : String → String := fun text => "\"" ++ text ++ "\""

/-- Where the handler is: each point ends at its next look at, or change of,
what others share with it. A point that follows a result carries it. -/
inductive Point where
  | evaluatePolicy
  | admitContext
  | startDownstream
  | acquire
  | loop
  | pauseWait
  | retryGate
  | forwarding
  | attemptStarted
  | select
  | bindUpstream (lease : Nat)
  | beginAttempt (lease : Nat)
  | refused (lease : Nat) (reason : Message)
  | exchange (lease : Nat)
  | settle (result : AttemptResult)
  | judge (result : AttemptResult)
  | releaseReservation (result : AttemptResult)
  | buffering (result : AttemptResult)
  | delivering (result : AttemptResult)
  | deliver (result : AttemptResult)
  | completed
  | classify (result : AttemptResult)
  | attemptFailed (result : AttemptResult)
  | awaitRetry (result : AttemptResult)
  | activatePolicy (result : AttemptResult) (cfg : Config)
  | holdUncertain (result : AttemptResult) (cfg : Config) (policy : Option RetryPolicy)
  | manualWait (result : AttemptResult) (cfg : Config) (policy : Option RetryPolicy)
  | schedule (result : AttemptResult) (cfg : Config) (policy : Option RetryPolicy)
  | retryWait (result : AttemptResult) (ready : Int)
  | checkDeadline (result : AttemptResult) (resumeReason : String)
  | reacquire (resumeReason : String)
  | fail (message : Message)
  | stopHeartbeat
  | finish
  | remove
  | releaseDeferred
  | returned

/-- The lease the handler holds. -/
def Point.lease : Point → Option Nat
  | .bindUpstream lease | .beginAttempt lease | .refused lease _ | .exchange lease => some lease
  | _ => none

/-- What the attempts so far leave for the next selection. -/
structure Route where
  previousTargetID : String := ""
  previousTargetDomain : String := ""
  everWroteRequest : Bool := false
  deriving DecidableEq, Repr

/-- The variables of `ServeHTTP` and of the `awaitRetry` it is in. -/
structure Handler where
  point : Point := .evaluatePolicy
  cfg : Config
  decision : PolicyDecision := {}
  reservation : Option String := none
  started : Int := 0
  attempt : Nat := 1
  route : Route := {}
  outcome : State := .failed
  rescheduled : Bool := false
  manualUncertainRetry : Bool := false

/-- Calls of operators that hold a decision they have not yet acted on. -/
structure Operators where
  retrySenders : Nat := 0
  compensators : Nat := 0
  policySenders : Nat := 0
  cancellers : Nat := 0
  deriving DecidableEq, Repr

/-- What a claim about a run speaks of: an attempt began, found no target, ended
at a target; `BeginAttempt` or `Record` was called for it; it made the request
uncertain; an operator's compensation was accepted. -/
inductive Happening where
  | started (attempt : Nat)
  | unselected (attempt : Nat)
  | ended (attempt : Nat) (target : Target) (result : AttemptResult)
  | begun (attempt : Nat)
  | recorded (attempt : Nat) (usage : Governance.Usage)
  | uncertain (attempt : Nat)
  | compensated
  deriving DecidableEq

structure World where
  request : Request
  config : Config
  entry : Entry := {}
  ctx : Option ContextError := none
  clientDisconnected : Bool := false
  paused : Bool := false
  governance : Governance.Manager
  pool : Pool
  downstream : Downstream
  operators : Operators := {}
  handler : Handler
  log : List Happening := []

namespace World

/-- A request that has just been registered. -/
def start (request : Request) (config : Config) (governance : Governance.Manager) (pool : Pool) :
    World where
  request := request
  config := config
  governance := governance
  pool := pool
  downstream := { streaming := request.streaming }
  handler := { cfg := config }

def goto (w : World) (point : Point) : World := { w with handler.point := point }

def note (w : World) (happening : Happening) : World := { w with log := w.log ++ [happening] }

/-- `cancel()`. The first error a context is done with is the one it keeps. -/
def cancel (w : World) : World := { w with ctx := w.ctx <|> some .canceled }

/-- `UpdateMessage` on the request. -/
def update (w : World) (now : Int) (status : State) (message : Message) (nextRetry : Int) : World :=
  { w with
    entry := w.entry.updateMessage now status w.handler.attempt message.id nextRetry }

/-- `RecordEvent` on the request, where its error is not looked at. -/
def record (w : World) (event : Timeline.Event) (persisted : Bool) : World :=
  { w with entry := (w.entry.recordEvent event persisted).1 }

/-- `onDisconnect`. -/
def onDisconnect (w : World) : World :=
  let w := { w with clientDisconnected := true }
  if w.handler.cfg.lifecycle.clientDisconnectPolicy = .cancel then w.cancel else w

/-- The target of a lease. -/
def target (w : World) (lease : Nat) : Target :=
  match w.pool.leases[lease]? with
  | some issued => issued.lease.target
  | none => {}

end World

end RelayLifeline.Proxy
