import RelayLifeline.Governance.Manager

/-!
# Restart

`NewPersistent` reads the whole ledger back, entry by entry, and rebuilds from
it what the process that wrote it held: the windows, the estimates and the
reservations that were never released. Those it then reconciles: the process
that held them is gone, so each is written down as reconciled and its amounts
are given back.

An entry that refers to a reservation replay has not seen fails the whole
restart. The branches that only entries of older versions take, a settlement
without its attempt's identifier or a binding without amounts, are kept as the
source has them.
-/

namespace RelayLifeline.Governance

open Lib

/-- Why a ledger cannot be replayed. -/
inductive ReplayError where
  | decode (type : String)
  | invalidReservation (id : String)
  | orphanAttemptReservation (id : String)
  | orphanBinding (id : String)
  | orphanHeartbeat (id : String)
  | orphanSettlement (id : String)
  | orphanAttemptSettlement (id : String)
  | noEventType
  | unsupported (type : String)
  | ledgerUnavailable
  deriving DecidableEq, Repr

/-- What replay has rebuilt so far. -/
structure Replay where
  windows : Windows := Windows.empty
  estimates : String → ReservationEstimate := fun _ => {}
  counters : Counters := {}
  active : Table ReservationState := ∅
  seen : String → List String := fun _ => []

/-- The step of `moveReservationKeysLocked` on one attempt. -/
def moveAttempt (newKeys : List String) (acc : Windows × ReservationState)
    (attempt : AttemptState) : Windows × ReservationState :=
  if attempt.outstanding then
    let moved := { attempt with budgetKeys := newKeys }
    ((acc.1.unapplyAttemptReservation attempt).applyAttemptReservation moved,
      { acc.2 with attempts := acc.2.attempts.set moved })
  else acc

/-- `moveReservationKeysLocked`. -/
def moveReservationKeys (w : Windows) (reservation : ReservationState) (newKeys : List String) :
    Windows × ReservationState :=
  reservation.attempts.items.foldl (moveAttempt newKeys) (w, reservation)

/-- Put every attempt of a reservation under the same keys. -/
def ReservationState.chargeAll (reservation : ReservationState) (keys : List String) :
    ReservationState :=
  { reservation with
    attempts := reservation.attempts.items.foldl
      (fun attempts attempt => attempts.set { attempt with budgetKeys := keys })
      reservation.attempts }

namespace Replay

/-- The keys of a reservation as replay reads them; they are not made
distinct here. -/
def reservedKeys (event : ReservedEvent) : List String :=
  (if event.budgetKeys = [] then [canonicalBudgetKey "principal" event.principal]
    else event.budgetKeys).map normalizeBudgetKey

/-- An entry without an attempt's identifier is about the first attempt. -/
def attemptIDOr (id : String) : String := if id = "" then "attempt-1" else id

def reserved (r : Replay) (id : String) (event : ReservedEvent) : Except ReplayError Replay :=
  if event.principal = "" ∨ event.windowStarted = 0 then .error (.invalidReservation id)
  else
    let budgetKeys := reservedKeys event
    let attempt : AttemptState :=
      { id := attemptIDOr event.attemptID, windowStarted := event.windowStarted,
        reservedTokens := event.reservedTokens, reservedCostMicros := event.reservedCostMicros,
        budgetKeys }
    let reservation : ReservationState :=
      { id, principal := event.principal, tenant := event.tenant, upstream := event.upstream,
        model := event.model, requestID := event.requestID, startedAt := event.startedAt,
        windowStarted := event.windowStarted, reservedTokens := event.reservedTokens,
        reservedCostMicros := event.reservedCostMicros, budgetKeys,
        attempts := Table.set ∅ attempt }
    .ok { r with
      windows := r.windows.applyAttemptReservation attempt
      counters.admitted := r.counters.admitted + 1
      active := r.active.set reservation
      seen := Function.update r.seen id [] }

def attemptReserved (r : Replay) (id : String) (event : AttemptReservedEvent) :
    Except ReplayError Replay :=
  match r.active.get? id with
  | none => .error (.orphanAttemptReservation id)
  | some reservation =>
      if event.attemptID = "" ∨ event.windowStarted = 0 then
        .error (.orphanAttemptReservation id)
      else if (reservation.attempts.get? event.attemptID).isSome then .ok r
      else
        let attempt : AttemptState :=
          { id := event.attemptID, windowStarted := event.windowStarted,
            reservedTokens := event.reservedTokens,
            reservedCostMicros := event.reservedCostMicros,
            budgetKeys := normalizeBudgetKeys event.budgetKeys reservation.principal }
        .ok { r with
          windows := r.windows.applyAttemptReservation attempt
          active := r.active.set { reservation with
            attempts := reservation.attempts.set attempt
            reservedTokens :=
              safeAdd64 reservation.reservedTokens (max64 event.reservedTokens 0)
            reservedCostMicros :=
              safeAdd64 reservation.reservedCostMicros (max64 event.reservedCostMicros 0) } }

def bound (r : Replay) (id : String) (event : BoundEvent) : Except ReplayError Replay :=
  match r.active.get? id with
  | none => .error (.orphanBinding id)
  | some reservation =>
      if event.upstream = "" then .error (.orphanBinding id)
      else
        let keys := normalizeBudgetKeys event.budgetKeys reservation.principal
        let moved :=
          if event.attemptReservations ≠ [] then
            rebindReservation r.windows reservation keys event.attemptReservations
          else moveReservationKeys r.windows reservation keys
        let reservation := { moved.2 with upstream := event.upstream, budgetKeys := keys }
        .ok { r with windows := moved.1, active := r.active.set (reservation.chargeAll keys) }

def heartbeat (r : Replay) (id : String) (event : HeartbeatEvent) : Except ReplayError Replay :=
  if (r.active.get? id).isNone ∨ event.principal = "" then .error (.orphanHeartbeat id)
  else .ok r

/-- A settlement of an attempt, once the attempt is known. -/
def settle (r : Replay) (reservation : ReservationState) (attempt : AttemptState)
    (event : UsageRecordedEvent) : Replay :=
  let released := reservation.releaseAttempt attempt
  let window := if event.windowStarted = 0 then attempt.windowStarted else event.windowStarted
  { r with
    windows := (r.windows.releaseAttempt attempt).recordUsage attempt.budgetKeys window event
    active := r.active.set
      { released with
        settlements := reservation.settlements ++ [(event.settlementID, event.costMicros)]
        attempts := released.attempts.set
          { attempt with reservationReleased := true, settled := true } }
    seen := Function.update r.seen reservation.id
      (event.settlementID :: r.seen reservation.id)
    estimates :=
      if event.known then
        Function.update r.estimates event.model
          ((r.estimates event.model).update event.totalTokens event.costMicros)
      else r.estimates
    counters := r.counters.settle event.known }

def usageRecorded (r : Replay) (id : String) (event : UsageRecordedEvent) :
    Except ReplayError Replay :=
  match r.active.get? id with
  | none => .error (.orphanSettlement id)
  | some reservation =>
      if event.settlementID = "" ∨ event.principal ≠ reservation.principal then
        .error (.orphanSettlement id)
      else if event.settlementID ∈ r.seen id then .ok r
      else
        match reservation.attempts.get? (attemptIDOr event.attemptID) with
        | some attempt => .ok (r.settle reservation attempt event)
        | none =>
            -- older ledgers: the attempt that is still outstanding
            match reservation.outstandingAttempts.head? with
            | some attempt => .ok (r.settle reservation attempt event)
            | none => .error (.orphanAttemptSettlement id)

/-- A released and a reconciled entry are replayed alike. -/
def closed (r : Replay) (id : String) : Replay :=
  { r with
    windows :=
      match r.active.get? id with
      | some reservation => r.windows.releaseReservation reservation
      | none => r.windows
    active := r.active.erase id
    seen := Function.update r.seen id [] }

def entry (r : Replay) (entry : Entry) : Except ReplayError Replay :=
  match entry.event with
  | .reserved event => r.reserved entry.entityID event
  | .attemptReserved event => r.attemptReserved entry.entityID event
  | .bound event => r.bound entry.entityID event
  | .heartbeat event => r.heartbeat entry.entityID event
  | .usageRecorded event => r.usageRecorded entry.entityID event
  | .released _ => .ok (r.closed entry.entityID)
  | .reconciled _ => .ok (r.closed entry.entityID)
  | .malformed type => .error (.decode type)
  | .other type => .error (if type = "" then .noEventType else .unsupported type)

/-- The loop of `replayLocked` over the ledger. -/
def entries (r : Replay) (entries : List Entry) : Except ReplayError Replay :=
  entries.foldlM entry r

end Replay

namespace Manager

/-- The loop of `replayLocked` over what is left, one reservation. -/
def reconcile (clk : String → Clock) (m : Manager) (reservation : ReservationState) :
    Except ReplayError Manager :=
  let clk := clk reservation.id
  let (m, ok) := m.append clk reservation.id <| .reconciled
    { principal := reservation.principal, reason := "process_restart", recordedAt := clk.now }
  if !ok ∧ m.enforcing then .error .ledgerUnavailable
  else
    .ok { m with
      windows := m.windows.releaseReservation reservation
      counters.reconciled := m.counters.reconciled + 1 }

/-- The manager replay leaves before it reconciles. -/
def replayed (cfg : GovernanceConfig) (ledger : Ledger) (r : Replay) : Manager where
  config := cfg
  windows := r.windows
  estimates := r.estimates
  ledger := some ledger
  counters := r.counters

/-- `NewPersistent` on a ledger, with a reading of the clock for each
reservation to be reconciled. -/
def newPersistent (cfg : GovernanceConfig) (ledger : Ledger) (clk : String → Clock) :
    Except ReplayError Manager := do
  let r ← Replay.entries {} ledger.entries
  r.active.items.foldlM (reconcile clk) (replayed cfg ledger r)

end Manager

end RelayLifeline.Governance
