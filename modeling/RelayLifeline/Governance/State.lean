import RelayLifeline.Clock
import RelayLifeline.Governance.Keys
import RelayLifeline.Lib.Table
import Mathlib.Logic.Function.Basic

/-!
# The governance manager's data

What the manager holds and what it writes to its usage ledger. Counters and
limits that Go keeps in an `int` are naturals, since validation refuses a
negative limit and a counter starts at zero; amounts are signed words, as in
the source, because they saturate and wrap. The validity of a configuration is
part of its type.

The manager keeps one `usageState` for each principal and window and one for
each other budget key and window, and makes it on first use. Here both maps
are one function on slots, and a state nobody made yet is the zero state. A
map keyed by an identifier the record itself stores is a `Table`; where Go
ranges over such a map, in an order of its own choosing, the model goes by
insertion.
-/

namespace RelayLifeline.Governance

open Lib

/-! ## Configuration -/

inductive Mode where
  | observe
  | enforce
  deriving DecidableEq, Repr

inductive UnknownUsagePolicy where
  | observe
  | deny
  deriving DecidableEq, Repr

theorem toInt_zero_nonneg : 0 ≤ (0 : Int64).toInt := by decide

structure ModelPriceConfig where
  model : String
  inputMicrosPerToken : Int64
  outputMicrosPerToken : Int64
  input_nonneg : 0 ≤ inputMicrosPerToken.toInt := by decide
  output_nonneg : 0 ≤ outputMicrosPerToken.toInt := by decide

structure GovernanceBudgetConfig where
  scope : Scope
  key : String
  maxConcurrent : Nat := 0
  requestsPerMinute : Nat := 0
  tokenLimit : Int64 := 0
  costLimitMicros : Int64 := 0
  token_nonneg : 0 ≤ tokenLimit.toInt := by first | exact Governance.toInt_zero_nonneg | decide
  cost_nonneg : 0 ≤ costLimitMicros.toInt := by first | exact Governance.toInt_zero_nonneg | decide

/-- The part of `GovernanceConfig` the manager decides by, with what
`Validate` checks of it. -/
structure GovernanceConfig where
  mode : Mode
  unknownUsagePolicy : UnknownUsagePolicy := .observe
  maxConcurrent : Nat := 0
  requestsPerMinute : Nat := 0
  tokenLimit : Int64 := 0
  costLimitMicros : Int64 := 0
  tokenReservation : Int64 := 0
  costReservationMicros : Int64 := 0
  reservationMinTokens : Int64 := 0
  reservationMaxTokens : Int64 := 0
  reservationMinCostMicros : Int64 := 0
  reservationMaxCostMicros : Int64 := 0
  forecastWindow : Int := 0
  prices : List ModelPriceConfig := []
  budgets : List GovernanceBudgetConfig := []
  token_nonneg : 0 ≤ tokenLimit.toInt := by first | exact Governance.toInt_zero_nonneg | decide
  cost_nonneg : 0 ≤ costLimitMicros.toInt := by first | exact Governance.toInt_zero_nonneg | decide

/-! ## Usage by window -/

structure UsageState where
  requests : Nat := 0
  tokens : Int64 := 0
  costMicros : Int64 := 0
  reservedTokens : Int64 := 0
  reservedCostMicros : Int64 := 0
  unknownUsage : Nat := 0
  deriving DecidableEq, Repr

/-- Which of the two window maps a key is looked up in, and under what. -/
inductive Slot where
  | principal (value : String)
  | dimension (key : String)
  deriving DecidableEq, Repr

def slotOf (key : String) : Slot :=
  let parsed := parseBudgetKey key
  if parsed.1 = "principal" then .principal parsed.2 else .dimension key

/-- The principal windows and the dimension windows. -/
def Windows := Slot → Int → UsageState

namespace Windows

def empty : Windows := fun _ _ => {}

/-- Change the state of one slot and window. -/
def modifySlot (w : Windows) (slot : Slot) (window : Int) (f : UsageState → UsageState) :
    Windows :=
  fun s t => if s = slot ∧ t = truncateMinute window then f (w s t) else w s t

/-- `dimensionStateLocked`, read. -/
def get (w : Windows) (key : String) (window : Int) : UsageState :=
  w (slotOf key) (truncateMinute window)

/-- `dimensionStateLocked`, written through. -/
def modify (w : Windows) (key : String) (window : Int) (f : UsageState → UsageState) : Windows :=
  w.modifySlot (slotOf key) window f

/-- The same change under every key of a list, one after the other. -/
def charge (w : Windows) (keys : List String) (window : Int) (f : UsageState → UsageState) :
    Windows :=
  keys.foldl (fun w key => w.modify key window f) w

end Windows

structure ReservationEstimate where
  tokens : Int64 := 0
  costMicros : Int64 := 0
  samples : Nat := 0
  deriving DecidableEq, Repr

/-! ## Reservations -/

structure AttemptState where
  id : String
  windowStarted : Int
  reservedTokens : Int64
  reservedCostMicros : Int64
  reservationReleased : Bool := false
  settled : Bool := false
  budgetKeys : List String
  deriving DecidableEq, Repr

instance : Keyed AttemptState String := ⟨AttemptState.id⟩

@[simp] theorem key_attempt (attempt : AttemptState) : key attempt = attempt.id := rfl

/-- Neither released nor settled: the attempt still holds its reservation. -/
def AttemptState.outstanding (attempt : AttemptState) : Bool :=
  !attempt.reservationReleased && !attempt.settled

structure ReservationState where
  id : String
  principal : String
  tenant : String
  upstream : String
  model : String
  requestID : String
  startedAt : Int
  windowStarted : Int
  reservedTokens : Int64
  reservedCostMicros : Int64
  reservationReleased : Bool := false
  settlements : List (String × Int64) := []
  budgetKeys : List String
  attempts : Table AttemptState

instance : Keyed ReservationState String := ⟨ReservationState.id⟩

@[simp] theorem key_reservation (reservation : ReservationState) :
    key reservation = reservation.id := rfl

/-! ## The usage ledger -/

structure ReservedEvent where
  principal : String
  tenant : String
  upstream : String
  model : String
  requestID : String
  attemptID : String
  windowStarted : Int
  startedAt : Int
  reservedTokens : Int64
  reservedCostMicros : Int64
  budgetKeys : List String

structure AttemptReservedEvent where
  principal : String
  model : String
  attemptID : String
  windowStarted : Int
  reservedTokens : Int64
  reservedCostMicros : Int64
  budgetKeys : List String
  reservedAt : Int

structure AttemptReservationEvent where
  attemptID : String
  reservedTokens : Int64
  reservedCostMicros : Int64

structure BoundEvent where
  principal : String
  upstream : String
  budgetKeys : List String
  attemptReservations : List AttemptReservationEvent
  boundAt : Int

structure UsageRecordedEvent where
  settlementID : String
  principal : String
  model : String
  attemptID : String
  windowStarted : Int
  known : Bool
  inputTokens : Int64
  outputTokens : Int64
  totalTokens : Int64
  costMicros : Int64
  recordedAt : Int

structure ReleasedEvent where
  principal : String
  releasedAt : Int

structure ReconciledEvent where
  principal : String
  reason : String
  recordedAt : Int

structure HeartbeatEvent where
  principal : String
  recordedAt : Int

/-- A decoded ledger payload. A `malformed` entry has a known type and a
payload that does not decode; an `other` entry has a type replay does not
know. -/
inductive LedgerEvent where
  | reserved (event : ReservedEvent)
  | attemptReserved (event : AttemptReservedEvent)
  | bound (event : BoundEvent)
  | heartbeat (event : HeartbeatEvent)
  | usageRecorded (event : UsageRecordedEvent)
  | released (event : ReleasedEvent)
  | reconciled (event : ReconciledEvent)
  | malformed (type : String)
  | other (type : String)

structure Entry where
  time : Int
  entityID : String
  event : LedgerEvent

inductive LedgerState where
  | healthy
  | degraded
  | closed
  deriving DecidableEq, Repr

/-- The journal under the ledger. The disk is an oracle: `faults` says of each
coming write whether it fails, `probes` of each coming health check whether
the file turns out unwritable, and past the end of either list nothing
does. -/
structure Ledger where
  entries : List Entry := []
  state : LedgerState := .healthy
  faults : List Bool := []
  probes : List Bool := []

/-- `Store.AppendContext`. The first write that fails degrades the store, and
a degraded store refuses every write after it. -/
def Ledger.append (ledger : Ledger) (entry : Entry) : Ledger × Bool :=
  match ledger.state with
  | .closed => (ledger, false)
  | .degraded => (ledger, false)
  | .healthy =>
      match ledger.faults with
      | true :: faults => ({ ledger with faults, state := .degraded }, false)
      | false :: faults => ({ ledger with faults, entries := ledger.entries ++ [entry] }, true)
      | [] => ({ ledger with entries := ledger.entries ++ [entry] }, true)

/-- `Store.Health() == nil`. -/
def Ledger.health (ledger : Ledger) : Ledger × Bool :=
  match ledger.state with
  | .closed => (ledger, false)
  | .degraded => (ledger, false)
  | .healthy =>
      match ledger.probes with
      | unwritable :: probes => ({ ledger with probes }, !unwritable)
      | [] => (ledger, true)

/-! ## The manager -/

/-- Why a decision denies. -/
inductive Reason where
  | canceled
  | reservationID
  | tenantRequired
  | duplicateReservation
  | ledgerUnavailable
  | reservationClosed
  | upstream
  | attemptID
  | duplicateAttempt
  | budgetLimit
  | unknownUsage
  | concurrentLimit
  | rateLimit
  | tokenLimit
  | costLimit
  deriving DecidableEq, Repr

def Reason.text : Reason → String
  | .canceled => "canceled"
  | .reservationID => "reservation_id"
  | .tenantRequired => "tenant_required"
  | .duplicateReservation => "duplicate_reservation"
  | .ledgerUnavailable => "ledger_unavailable"
  | .reservationClosed => "reservation_closed"
  | .upstream => "upstream"
  | .attemptID => "attempt_id"
  | .duplicateAttempt => "duplicate_attempt"
  | .budgetLimit => "budget_limit"
  | .unknownUsage => "unknown_usage"
  | .concurrentLimit => "concurrent_limit"
  | .rateLimit => "rate_limit"
  | .tokenLimit => "token_limit"
  | .costLimit => "cost_limit"

/-- The errors the operations return: the sentinels, the four argument
checks, the context's own error, and a failed append. -/
inductive Error where
  | concurrentLimit
  | rateLimit
  | tokenLimit
  | costLimit
  | unknownUsage
  | tenantContext
  | ledgerUnavailable
  | reservationClosed
  | duplicateReservation
  | admissionDenied
  | invalidReservationID
  | invalidUpstream
  | invalidAttemptID
  | invalidSettlementID
  | canceled
  | persist
  deriving DecidableEq, Repr

def reasonError : Reason → Error
  | .concurrentLimit => .concurrentLimit
  | .rateLimit => .rateLimit
  | .tokenLimit => .tokenLimit
  | .costLimit => .costLimit
  | .unknownUsage => .unknownUsage
  | .tenantRequired => .tenantContext
  | .ledgerUnavailable => .ledgerUnavailable
  | _ => .admissionDenied

structure Counters where
  admitted : Nat := 0
  rejected : Reason → Nat := fun _ => 0
  settlements : Nat := 0
  knownSettlements : Nat := 0
  unknownSettlements : Nat := 0
  reconciled : Nat := 0
  persistenceFailures : Nat := 0

def Counters.reject (counters : Counters) (reason : Reason) : Counters :=
  { counters with
    rejected := Function.update counters.rejected reason (counters.rejected reason + 1) }

/-- Count a settlement. -/
def Counters.settle (counters : Counters) (known : Bool) : Counters :=
  { counters with
    settlements := counters.settlements + 1
    knownSettlements := counters.knownSettlements + if known then 1 else 0
    unknownSettlements := counters.unknownSettlements + if known then 0 else 1 }

structure Manager where
  config : GovernanceConfig
  windows : Windows := Windows.empty
  estimates : String → ReservationEstimate := fun _ => {}
  reservations : Table ReservationState := ∅
  ledger : Option Ledger := none
  counters : Counters := {}

/-- A decision, less its two forecasts. -/
structure Decision where
  allowed : Bool
  mode : Option Mode := none
  reason : Option Reason := none
  principal : String := ""
  model : String := ""
  windowStarted : Int := 0
  requests : Nat := 0
  active : Nat := 0
  tokens : Int64 := 0
  costMicros : Int64 := 0
  reservedTokens : Int64 := 0
  reservedCostMicros : Int64 := 0
  budgetScope : String := ""
  persistenceDegraded : Bool := false
  deriving DecidableEq, Repr

structure AdmissionContext where
  principal : String
  tenant : String := ""
  model : String := ""
  upstream : String := ""
  requestID : String := ""

structure Usage where
  inputTokens : Int64 := 0
  outputTokens : Int64 := 0
  totalTokens : Int64 := 0
  known : Bool := false
  deriving DecidableEq, Repr

end RelayLifeline.Governance
