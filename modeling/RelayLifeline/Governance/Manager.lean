import RelayLifeline.Governance.Budget

/-!
# The governance manager

The five operations a gateway drives a reservation through, each a function
from a manager to the manager it leaves and the answer it gives. What a method
of the source does under one hold of the manager's lock is one step, taken at
one reading of the clock; `BeginAttempt` with an upstream takes the lock twice
and reads the clock for each. A handle on a reservation is the reservation's
identifier, and a method called on a handle that is closed finds no
reservation under it.
-/

namespace RelayLifeline.Governance

open Lib

/-- The admission as `AdmitWithContext` reads it. -/
def AdmissionContext.normalized (admission : AdmissionContext) : AdmissionContext where
  principal :=
    if trimSpace admission.principal = "" then "anonymous" else trimSpace admission.principal
  tenant := trimSpace admission.tenant
  model := trimSpace admission.model
  upstream := trimSpace admission.upstream
  requestID := trimSpace admission.requestID

theorem AdmissionContext.principal_normalized (admission : AdmissionContext) :
    admission.normalized.principal ≠ "" := by
  unfold AdmissionContext.normalized
  dsimp only
  split
  · decide
  · assumption

/-! ## Accounting of one state -/

namespace UsageState

def reserve (tokens cost : Int64) (state : UsageState) : UsageState :=
  { state with
    requests := state.requests + 1
    reservedTokens := safeAdd64 state.reservedTokens tokens
    reservedCostMicros := safeAdd64 state.reservedCostMicros cost }

def release (tokens cost : Int64) (state : UsageState) : UsageState :=
  { state with
    reservedTokens := max64 (state.reservedTokens - tokens) 0
    reservedCostMicros := max64 (state.reservedCostMicros - cost) 0 }

/-- Undo `reserve`, the request included. -/
def unreserve (tokens cost : Int64) (state : UsageState) : UsageState :=
  { state.release tokens cost with requests := state.requests - 1 }

/-- `applyUsageLocked`. -/
def applyUsage (event : UsageRecordedEvent) (state : UsageState) : UsageState :=
  if event.known then
    { state with
      tokens := safeAdd64 state.tokens (max64 event.totalTokens 0)
      costMicros := safeAdd64 state.costMicros (max64 event.costMicros 0) }
  else { state with unknownUsage := state.unknownUsage + 1 }

end UsageState

namespace Windows

/-- `stateForPrincipalWindowLocked`. -/
def forPrincipal (w : Windows) (principal : String) (window : Int) : UsageState :=
  w (.principal principal) (truncateMinute window)

/-- `applyAttemptReservationLocked`. -/
def applyAttemptReservation (w : Windows) (attempt : AttemptState) : Windows :=
  if attempt.reservationReleased then w
  else w.charge attempt.budgetKeys attempt.windowStarted
    (UsageState.reserve attempt.reservedTokens attempt.reservedCostMicros)

/-- Take an attempt's request and amounts off its keys again. -/
def unapplyAttemptReservation (w : Windows) (attempt : AttemptState) : Windows :=
  w.charge attempt.budgetKeys attempt.windowStarted
    (UsageState.unreserve attempt.reservedTokens attempt.reservedCostMicros)

/-- The windows' part of `releaseAttemptLocked`. -/
def releaseAttempt (w : Windows) (attempt : AttemptState) : Windows :=
  if attempt.reservationReleased then w
  else if truncateMinute attempt.windowStarted = attempt.windowStarted then
    w.charge attempt.budgetKeys attempt.windowStarted
      (UsageState.release attempt.reservedTokens attempt.reservedCostMicros)
  else w

/-- The principal's own window, then the window of each other key. -/
def recordUsage (w : Windows) (keys : List String) (window : Int) (event : UsageRecordedEvent) :
    Windows :=
  let w := w.modifySlot (.principal event.principal) window (UsageState.applyUsage event)
  w.charge (keys.filter fun key => budgetKeyScope key ≠ "principal") window
    (UsageState.applyUsage event)

end Windows

/-! ## Accounting of one reservation -/

namespace ReservationState

def allAttemptsReleased (reservation : ReservationState) : Bool :=
  reservation.attempts.items.all fun attempt => attempt.reservationReleased || attempt.settled

/-- The reservation's part of `releaseAttemptLocked`. -/
def releaseAttempt (reservation : ReservationState) (attempt : AttemptState) : ReservationState :=
  if attempt.reservationReleased then reservation
  else
    let attempts := reservation.attempts.set { attempt with reservationReleased := true }
    { reservation with
      reservedTokens := max64 (reservation.reservedTokens - attempt.reservedTokens) 0
      reservedCostMicros := max64 (reservation.reservedCostMicros - attempt.reservedCostMicros) 0
      attempts
      reservationReleased :=
        reservation.reservationReleased || { reservation with attempts }.allAttemptsReleased }

/-- How many of the reservation's attempts hold a place under a key. -/
def activeFor (reservation : ReservationState) (key : String) : Nat :=
  reservation.attempts.items.countP fun attempt =>
    attempt.outstanding && decide (key ∈ attempt.budgetKeys)

def outstandingAttempts (reservation : ReservationState) : List AttemptState :=
  reservation.attempts.items.filter AttemptState.outstanding

/-- Add an attempt and what it reserves. -/
def addAttempt (reservation : ReservationState) (attempt : AttemptState) : ReservationState :=
  { reservation with
    attempts := reservation.attempts.set attempt
    reservationReleased := false
    reservedTokens := safeAdd64 reservation.reservedTokens attempt.reservedTokens
    reservedCostMicros := safeAdd64 reservation.reservedCostMicros attempt.reservedCostMicros }

end ReservationState

/-- `releaseReservationLocked`, where it acts on the windows. -/
def Windows.releaseReservation (w : Windows) (reservation : ReservationState) : Windows :=
  reservation.attempts.items.foldl Windows.releaseAttempt w

/-- An outstanding attempt on its new keys, with the amount listed for it. -/
def AttemptState.rebind (attempt : AttemptState) (newKeys : List String)
    (amounts : List AttemptReservationEvent) : AttemptState :=
  let amount := (amounts.reverse.find? fun amount => amount.attemptID = attempt.id).getD
    ⟨attempt.id, attempt.reservedTokens, attempt.reservedCostMicros⟩
  { attempt with
    budgetKeys := newKeys, reservationReleased := false
    reservedTokens := amount.reservedTokens, reservedCostMicros := amount.reservedCostMicros }

/-- The step of `rebindReservationLocked` on one attempt. -/
def rebindAttempt (newKeys : List String) (amounts : List AttemptReservationEvent)
    (acc : Windows × ReservationState) (attempt : AttemptState) : Windows × ReservationState :=
  if attempt.outstanding then
    let moved := attempt.rebind newKeys amounts
    ((acc.1.unapplyAttemptReservation attempt).applyAttemptReservation moved,
      { acc.2 with
        attempts := acc.2.attempts.set moved
        reservedTokens := safeAdd64
          (max64 (acc.2.reservedTokens - attempt.reservedTokens) 0) moved.reservedTokens
        reservedCostMicros := safeAdd64
          (max64 (acc.2.reservedCostMicros - attempt.reservedCostMicros) 0)
          moved.reservedCostMicros })
  else acc

/-- `rebindReservationLocked`: take every outstanding attempt off its keys and
put it on the new ones with its new amounts. -/
def rebindReservation (w : Windows) (reservation : ReservationState) (newKeys : List String)
    (amounts : List AttemptReservationEvent) : Windows × ReservationState :=
  let moved := reservation.attempts.items.foldl (rebindAttempt newKeys amounts) (w, reservation)
  (moved.1, { moved.2 with reservationReleased := moved.2.allAttemptsReleased })

namespace Manager

/-! ## Counting and deciding -/

def enforcing (m : Manager) : Bool := m.config.mode = .enforce

/-- `activeForBudgetLockedExcluding`: outstanding attempts under a key, those
of one reservation left out. -/
def activeForBudgetExcluding (m : Manager) (key : String) (exclude : Option String) : Nat :=
  m.reservations.total fun reservation =>
    if exclude = some reservation.id then 0 else reservation.activeFor key

/-- `activeForBudgetLocked`. -/
def activeForBudget (m : Manager) (key : String) : Nat := m.activeForBudgetExcluding key none

/-- `activeLocked`. -/
def active (m : Manager) (principal : String) : Nat :=
  m.reservations.total fun reservation =>
    if reservation.principal = principal then reservation.outstandingAttempts.length else 0

/-- `reservationAmountsForKeysLocked`. -/
def reservationAmountsForKeys (m : Manager) (model : String) (keys : List String) :
    Int64 × Int64 :=
  m.config.reservationAmountsForKeys (m.estimates model) model keys

/-- The limit of one key that one more request with these amounts would break,
if there is one. The three terms of an amount are added as Go adds them. -/
def limitReason (m : Manager) (window : Int) (reservedTokens reservedCost : Int64)
    (extraRequests : Nat) (exclude : Option String) (key : String) : Option Reason :=
  let state := m.windows.get key window
  (m.config.budgetForKey key).refusal state.unknownUsage
    (m.activeForBudgetExcluding key exclude + 1) (state.requests + extraRequests)
    (state.tokens + state.reservedTokens + reservedTokens)
    (state.costMicros + state.reservedCostMicros + reservedCost)

/-- One key's part of `evaluateDecisionLimitsLocked`. -/
def evaluateKey (m : Manager) (window : Int) (reservedTokens reservedCost : Int64)
    (extraRequests : Nat) (exclude : Option String) (decision : Decision) (key : String) :
    Decision :=
  if m.enforcing ∧ decision.allowed then
    match m.limitReason window reservedTokens reservedCost extraRequests exclude key with
    | some reason =>
        { decision with
          allowed := false, reason := some reason, budgetScope := displayBudgetKey key }
    | none => decision
  else decision

/-- `evaluateDecisionLimitsLocked`. The first key to refuse decides. -/
def evaluateDecisionLimits (m : Manager) (decision : Decision) (window : Int)
    (keys : List String) (reservedTokens reservedCost : Int64) (extraRequests : Nat)
    (exclude : Option String) : Decision :=
  keys.foldl (m.evaluateKey window reservedTokens reservedCost extraRequests exclude) decision

/-- What a decision reports before any limit is looked at. -/
def openDecision (m : Manager) (principal model : String) (window : Int) (active : Nat)
    (reserved : Int64 × Int64) : Decision :=
  let state := m.windows.forPrincipal principal window
  { allowed := true, mode := some m.config.mode, principal, model, windowStarted := window,
    requests := state.requests, active, tokens := state.tokens, costMicros := state.costMicros,
    reservedTokens := reserved.1, reservedCostMicros := reserved.2 }

/-- `m.ledger != nil && m.ledger.Health() != nil`, with the probe it makes. -/
def ledgerUnhealthy (m : Manager) : Manager × Bool :=
  match m.ledger with
  | none => (m, false)
  | some ledger =>
      let (ledger, healthy) := ledger.health
      ({ m with ledger := some ledger }, !healthy)

/-- `decisionLocked`. -/
def decisionFor (m : Manager) (principal model : String) (window : Int) (keys : List String) :
    Manager × Decision :=
  let amounts := m.reservationAmountsForKeys model keys
  let decision :=
    m.openDecision principal model window (m.activeForBudget (keys.headD "")) amounts
  let (m, unhealthy) := if m.enforcing then m.ledgerUnhealthy else (m, false)
  let decision :=
    if unhealthy then { decision with allowed := false, reason := some .ledgerUnavailable }
    else decision
  (m, m.evaluateDecisionLimits decision window keys amounts.1 amounts.2 1 none)

/-- `attemptDecisionLocked`. -/
def attemptDecision (m : Manager) (reservation : ReservationState) (window : Int)
    (keys : List String) : Decision :=
  let amounts := m.reservationAmountsForKeys reservation.model keys
  let decision := m.openDecision reservation.principal reservation.model window
    (m.activeForBudget (keys.headD "")) amounts
  m.evaluateDecisionLimits decision window keys amounts.1 amounts.2 1 (some reservation.id)

/-- `reservationDecisionLocked`. -/
def reservationDecision (m : Manager) (reservation : ReservationState) : Decision :=
  let window := truncateMinute reservation.windowStarted
  let decision := m.openDecision reservation.principal reservation.model window
    (m.active reservation.principal) (reservation.reservedTokens, reservation.reservedCostMicros)
  m.evaluateDecisionLimits decision window reservation.budgetKeys 0 0 0 (some reservation.id)

/-- `appendLocked`; the answer is whether the entry is in the ledger, which it
always is where there is none. -/
def append (m : Manager) (clk : Clock) (id : String) (event : LedgerEvent) : Manager × Bool :=
  match m.ledger with
  | none => (m, true)
  | some ledger =>
      let (ledger, ok) := ledger.append ⟨clk.stamp, id, event⟩
      let failures := m.counters.persistenceFailures
      ({ m with
          ledger := some ledger
          counters.persistenceFailures := if ok then failures else failures + 1 }, ok)

/-- Count a denial under its reason. -/
def reject (m : Manager) (reason : Reason) : Manager :=
  { m with counters := m.counters.reject reason }

/-! ## Admission -/

/-- The attempt an admission opens. -/
def initialAttempt (clk : Clock) (amounts : Int64 × Int64) (keys : List String) :
    AttemptState where
  id := "attempt-1"
  windowStarted := clk.window
  reservedTokens := amounts.1
  reservedCostMicros := amounts.2
  budgetKeys := keys

/-- The reservation an admission opens. -/
def openReservation (clk : Clock) (id : String) (admission : AdmissionContext)
    (amounts : Int64 × Int64) (keys : List String) : ReservationState where
  id
  principal := admission.principal
  tenant := admission.tenant
  upstream := admission.upstream
  model := admission.model
  requestID := admission.requestID
  startedAt := clk.now
  windowStarted := clk.window
  reservedTokens := amounts.1
  reservedCostMicros := amounts.2
  budgetKeys := keys
  attempts := Table.set ∅ (initialAttempt clk amounts keys)

/-- What `AdmitWithContext` writes to the ledger. -/
def reservedEvent (clk : Clock) (admission : AdmissionContext) (amounts : Int64 × Int64)
    (keys : List String) : ReservedEvent where
  principal := admission.principal
  tenant := admission.tenant
  upstream := admission.upstream
  model := admission.model
  requestID := admission.requestID
  attemptID := "attempt-1"
  windowStarted := clk.window
  startedAt := clk.now
  reservedTokens := amounts.1
  reservedCostMicros := amounts.2
  budgetKeys := keys

/-- `AdmitWithContext` once its arguments are in order. -/
def admitNormalized (m : Manager) (clk : Clock) (id : String) (admission : AdmissionContext) :
    Manager × Decision × Option Error :=
  if m.enforcing ∧ m.config.tenantContextRequired ∧ admission.tenant = "" then
    (m.reject .tenantRequired,
      { allowed := false, mode := some m.config.mode, principal := admission.principal,
        model := admission.model, reason := some .tenantRequired, budgetScope := "tenant" },
      some .tenantContext)
  else if (m.reservations.get? id).isSome then
    (m, { allowed := false, reason := some .duplicateReservation }, some .duplicateReservation)
  else
    let keys := m.config.budgetKeys admission admission.principal admission.model
    let (m, decision) := m.decisionFor admission.principal admission.model clk.window keys
    if decision.allowed then
      let amounts := (decision.reservedTokens, decision.reservedCostMicros)
      let (m, ok) := m.append clk id (.reserved (reservedEvent clk admission amounts keys))
      let decision := { decision with persistenceDegraded := !ok }
      if !ok ∧ m.enforcing then
        (m.reject .ledgerUnavailable,
          { decision with allowed := false, reason := some .ledgerUnavailable },
          some .ledgerUnavailable)
      else
        let m := { m with
          windows := m.windows.applyAttemptReservation (initialAttempt clk amounts keys)
          reservations := m.reservations.set (openReservation clk id admission amounts keys)
          counters.admitted := m.counters.admitted + 1 }
        let state := m.windows.forPrincipal admission.principal clk.window
        (m, { decision with requests := state.requests, active := m.active admission.principal },
          none)
    else
      let reason := decision.reason.getD .budgetLimit
      (m.reject reason, decision, some (reasonError reason))

/-- `AdmitWithContext`. -/
def admitWithContext (m : Manager) (clk : Clock) (canceled : Bool) (id : String)
    (admission : AdmissionContext) : Manager × Decision × Option Error :=
  if canceled then (m, { allowed := false, reason := some .canceled }, some .canceled)
  else
    let id := trimSpace id
    if id = "" ∨ id.utf8ByteSize > 128 then
      (m, { allowed := false, reason := some .reservationID }, some .invalidReservationID)
    else m.admitNormalized clk id admission.normalized

/-! ## Binding -/

/-- The amounts each outstanding attempt will reserve under the new keys. -/
def attemptReservations (m : Manager) (reservation : ReservationState) (newKeys : List String) :
    List AttemptReservationEvent :=
  let amounts := m.reservationAmountsForKeys reservation.model newKeys
  reservation.outstandingAttempts.map fun attempt => ⟨attempt.id, amounts.1, amounts.2⟩

/-- The reservation's outstanding attempts that began in a window. -/
def attemptsIn (reservation : ReservationState) (window : Int) : List AttemptState :=
  reservation.outstandingAttempts.filter fun attempt => attempt.windowStarted = window

/-- The limit of one new key that `bindingAmountsLocked` finds broken, if
there is one: what the key holds already, plus this reservation's attempts of
the current window with their new amounts. -/
def bindingReason (m : Manager) (window : Int) (reservation : ReservationState)
    (amounts : List AttemptReservationEvent) (key : String) : Option Reason :=
  let state := m.windows.get key window
  let own := attemptsIn reservation window
  let amountOf := fun attempt : AttemptState =>
    (amounts.find? fun amount => amount.attemptID = attempt.id).getD ⟨attempt.id, 0, 0⟩
  let reservedTokens := own.foldl
    (fun sum attempt => sum + (amountOf attempt).reservedTokens) state.reservedTokens
  let reservedCost := own.foldl
    (fun sum attempt => sum + (amountOf attempt).reservedCostMicros) state.reservedCostMicros
  (m.config.budgetForKey key).refusal state.unknownUsage
    (m.activeForBudgetExcluding key (some reservation.id) + own.length)
    (state.requests + own.length) (state.tokens + reservedTokens)
    (state.costMicros + reservedCost)

/-- `bindingAmountsLocked`. -/
def bindingAmounts (m : Manager) (clk : Clock) (reservation : ReservationState)
    (newKeys : List String) : Except Reason (List AttemptReservationEvent) :=
  let amounts := m.attemptReservations reservation newKeys
  if m.enforcing then
    match newKeys.findSome? (m.bindingReason clk.window reservation amounts) with
    | some reason => .error reason
    | none => .ok amounts
  else .ok amounts

/-- The keys a reservation would be charged under at an upstream. -/
def keysAt (m : Manager) (reservation : ReservationState) (upstream : String) : List String :=
  m.config.budgetKeys
    { principal := reservation.principal, tenant := reservation.tenant,
      model := reservation.model, upstream, requestID := reservation.requestID }
    reservation.principal reservation.model

/-- The manager `BindUpstream` leaves once it has accepted. -/
def rebound (m : Manager) (reservation : ReservationState) (upstream : String)
    (newKeys : List String) (amounts : List AttemptReservationEvent) : Manager :=
  let moved := rebindReservation m.windows reservation newKeys amounts
  { m with
    windows := moved.1
    reservations := m.reservations.set { moved.2 with upstream, budgetKeys := newKeys } }

/-- `BindUpstreamWithDecision`. -/
def bindUpstreamWithDecision (m : Manager) (clk : Clock) (id upstream : String) :
    Manager × Decision × Option Error :=
  let upstream := trimSpace upstream
  if upstream = "" ∨ upstream.utf8ByteSize > 128 then
    (m, { allowed := false, reason := some .upstream }, some .invalidUpstream)
  else
    match m.reservations.get? id with
    | none =>
        (m, { allowed := false, reason := some .reservationClosed }, some .reservationClosed)
    | some reservation =>
        if reservation.upstream = upstream then (m, m.reservationDecision reservation, none)
        else
          let newKeys := m.keysAt reservation upstream
          match m.bindingAmounts clk reservation newKeys with
          | .error reason =>
              (m, { m.reservationDecision reservation with
                allowed := false, reason := some reason }, some (reasonError reason))
          | .ok amounts =>
              let (m, ok) := m.append clk id <| .bound
                { principal := reservation.principal, upstream, budgetKeys := newKeys,
                  attemptReservations := amounts, boundAt := clk.now }
              if !ok ∧ m.enforcing then
                (m, { allowed := false, reason := some .ledgerUnavailable },
                  some .ledgerUnavailable)
              else
                let m := m.rebound reservation upstream newKeys amounts
                let decision :=
                  match m.reservations.get? id with
                  | some reservation => m.reservationDecision reservation
                  | none => { allowed := false, reason := some .reservationClosed }
                (m, decision, none)

/-! ## Beginning an attempt -/

/-- The attempt a decision allows. -/
def allowedAttempt (clk : Clock) (reservation : ReservationState) (attemptID : String)
    (amounts : Int64 × Int64) : AttemptState where
  id := attemptID
  windowStarted := clk.window
  reservedTokens := amounts.1
  reservedCostMicros := amounts.2
  budgetKeys := reservation.budgetKeys

/-- Write an attempt down and add it; both `BeginAttempt` and the reservation
`Record` makes for a missing attempt end this way. -/
def reserveAttempt (m : Manager) (clk : Clock) (reservation : ReservationState)
    (attempt : AttemptState) : Manager × Option Error :=
  let (m, ok) := m.append clk reservation.id <| .attemptReserved
    { principal := reservation.principal, model := reservation.model, attemptID := attempt.id,
      windowStarted := attempt.windowStarted, reservedTokens := attempt.reservedTokens,
      reservedCostMicros := attempt.reservedCostMicros, budgetKeys := attempt.budgetKeys,
      reservedAt := clk.now }
  if !ok ∧ m.enforcing then (m, some .ledgerUnavailable)
  else
    ({ m with
        windows := m.windows.applyAttemptReservation attempt
        reservations := m.reservations.set (reservation.addAttempt attempt) }, none)

/-- The second half of `BeginAttempt`, after any binding. -/
def begin (m : Manager) (clk : Clock) (id attemptID : String) :
    Manager × Decision × Option Error :=
  match m.reservations.get? id with
  | none => (m, { allowed := false, reason := some .reservationClosed }, some .reservationClosed)
  | some reservation =>
      match reservation.attempts.get? attemptID with
      | some existing =>
          if existing.outstanding then (m, m.reservationDecision reservation, none)
          else
            (m, { allowed := false, reason := some .duplicateAttempt },
              some .duplicateReservation)
      | none =>
          let decision := m.attemptDecision reservation clk.window reservation.budgetKeys
          if decision.allowed then
            let attempt := allowedAttempt clk reservation attemptID
              (decision.reservedTokens, decision.reservedCostMicros)
            match m.reserveAttempt clk reservation attempt with
            | (m, none) => (m, decision, none)
            | (m, some error) =>
                (m, { allowed := false, reason := some .ledgerUnavailable }, some error)
          else
            let reason := decision.reason.getD .budgetLimit
            (m.reject reason, decision, some (reasonError reason))

/-- `BeginAttempt`. The binding and the attempt run under the lock one after
the other, each with its own reading of the clock; this is the call where
nothing comes between the two. -/
def beginAttempt (m : Manager) (bindClk clk : Clock) (id attemptID : String)
    (upstream : Option String) : Manager × Decision × Option Error :=
  let attemptID := trimSpace attemptID
  if attemptID = "" ∨ attemptID.utf8ByteSize > 128 then
    (m, { allowed := false, reason := some .attemptID }, some .invalidAttemptID)
  else
    match upstream with
    | none => m.begin clk id attemptID
    | some upstream =>
        if trimSpace upstream = "" then m.begin clk id attemptID
        else
          match m.bindUpstreamWithDecision bindClk id upstream with
          | (m, _, some error) => (m, { allowed := false, reason := some .upstream }, some error)
          | (m, _, none) => m.begin clk id attemptID

/-! ## Settling and releasing -/

/-- `beginAttemptLocked`: the reservation `Record` makes for an attempt nobody
began. It is refused as an attempt is, and a denial is not counted. -/
def beginAttemptLocked (m : Manager) (clk : Clock) (reservation : ReservationState)
    (attemptID : String) : Manager × Except Error AttemptState :=
  let decision := m.attemptDecision reservation clk.window reservation.budgetKeys
  if decision.allowed then
    let attempt := allowedAttempt clk reservation attemptID
      (decision.reservedTokens, decision.reservedCostMicros)
    match m.reserveAttempt clk reservation attempt with
    | (m, none) => (m, .ok attempt)
    | (m, some error) => (m, .error error)
  else (m, .error (reasonError (decision.reason.getD .budgetLimit)))

/-- What `Record` writes to the ledger. -/
def usageEvent (m : Manager) (clk : Clock) (reservation : ReservationState)
    (attempt : AttemptState) (settlementID : String) (usage : Usage) : UsageRecordedEvent :=
  let charge := m.config.usageCost reservation.model usage
  { settlementID, principal := reservation.principal, model := reservation.model,
    attemptID := attempt.id, windowStarted := attempt.windowStarted, known := usage.known,
    inputTokens := max64 usage.inputTokens 0, outputTokens := max64 usage.outputTokens 0,
    totalTokens := charge.1, costMicros := charge.2, recordedAt := clk.now }

/-- What a settlement changes once it is written down. -/
def settled (m : Manager) (reservation : ReservationState) (attempt : AttemptState)
    (event : UsageRecordedEvent) : Manager :=
  let released := reservation.releaseAttempt attempt
  { m with
    windows := (m.windows.releaseAttempt attempt).recordUsage attempt.budgetKeys
      attempt.windowStarted event
    reservations := m.reservations.set
      { released with
        settlements := reservation.settlements ++ [(event.settlementID, event.costMicros)]
        attempts := released.attempts.set
          { attempt with reservationReleased := true, settled := true } }
    estimates :=
      if event.known then
        Function.update m.estimates event.model
          ((m.estimates event.model).update event.totalTokens event.costMicros)
      else m.estimates
    counters := m.counters.settle event.known }

/-- The part of `Record` after the attempt is known. -/
def settle (m : Manager) (clk : Clock) (reservation : ReservationState) (attempt : AttemptState)
    (settlementID : String) (usage : Usage) : Manager × Int64 × Option Error :=
  let event := m.usageEvent clk reservation attempt settlementID usage
  let (m, ok) := m.append clk reservation.id (.usageRecorded event)
  if !ok ∧ m.enforcing then (m, 0, some .ledgerUnavailable)
  else
    (m.settled reservation attempt event, event.costMicros,
      if ok then none else some .persist)

/-- `Record`. -/
def record (m : Manager) (clk : Clock) (id settlementID : String) (usage : Usage) :
    Manager × Int64 × Option Error :=
  let settlementID := trimSpace settlementID
  if settlementID = "" ∨ settlementID.utf8ByteSize > 128 then
    (m, 0, some .invalidSettlementID)
  else
    match m.reservations.get? id with
    | none => (m, 0, some .reservationClosed)
    | some reservation =>
        match reservation.settlements.lookup settlementID with
        | some cost => (m, cost, none)
        | none =>
            match reservation.attempts.get? settlementID with
            | some attempt => m.settle clk reservation attempt settlementID usage
            | none =>
                -- The source looks "attempt-1" up a second time here, under the
                -- same lock; having just missed it, it misses it again.
                match m.beginAttemptLocked clk reservation settlementID with
                | (m, .error error) => (m, 0, some error)
                | (m, .ok attempt) =>
                    match m.reservations.get? id with
                    | none => (m, 0, some .reservationClosed)
                    | some reservation =>
                        m.settle clk reservation attempt settlementID usage

/-- `Release`. -/
def release (m : Manager) (clk : Clock) (id : String) : Manager × Option Error :=
  match m.reservations.get? id with
  | none => (m, none)
  | some reservation =>
      let (m, ok) := m.append clk id <| .released
        { principal := reservation.principal, releasedAt := clk.now }
      if !ok ∧ m.enforcing then (m, some .ledgerUnavailable)
      else
        ({ m with
            windows := m.windows.releaseReservation reservation
            reservations := m.reservations.erase id },
          if ok then none else some .persist)

end Manager

end RelayLifeline.Governance
