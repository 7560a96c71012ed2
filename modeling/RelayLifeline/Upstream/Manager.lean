import Mathlib.Data.List.Sort
import RelayLifeline.Clock
import RelayLifeline.Lib.Table
import RelayLifeline.Lib.Word

/-!
# The upstream pool

`upstream.Manager` hands out leases on targets and learns from how they end. A
lease points at the state of its target, and a reload may put a new state under
the target's name while leases on the old one are out, so states live in a heap
here and the manager's map goes from a name to a reference into it.

Every method that holds the mutex is one function from the manager to the
manager. The HTTP client and transport of a state, the health mode and the
egress policy decide nothing these functions read and are left out, and so is
the capability score of a target.
-/

namespace RelayLifeline.Upstream

open Lib

/-- `config.UpstreamConfig`. -/
structure UpstreamConfig where
  baseURL : String
  connectTimeout : Int
  responseHeaderTimeout : Int
  responseBodyIdleTimeout : Int
  deriving DecidableEq

/-- `config.UpstreamTargetConfig`. -/
structure UpstreamTargetConfig where
  id : String
  baseURL : String
  priority : Int := 0
  weight : Int := 0
  maxActive : Int := 0
  idempotencyDomain : String := ""
  costMicrosPer1K : Int := 0
  deriving DecidableEq

/-- `config.UpstreamCircuitConfig`. -/
structure UpstreamCircuitConfig where
  enabled : Bool := false
  minimumRequests : Int := 0
  failurePercent : Int := 0
  openDuration : Int := 0
  halfOpenMax : Int := 0
  deriving DecidableEq

/-- `config.UpstreamPoolConfig`. -/
structure UpstreamPoolConfig where
  strategy : String := ""
  targets : List UpstreamTargetConfig := []
  circuit : UpstreamCircuitConfig := {}

/-- `upstream.Target`. -/
structure Target where
  id : String := ""
  baseURL : String := ""
  priority : Int := 0
  weight : Int := 0
  maxActive : Int := 0
  idempotencyDomain : String := ""
  costMicrosPer1K : Int := 0
  deriving DecidableEq

/-- `upstream.SelectionContext`. -/
structure SelectionContext where
  preferredTargetID : String := ""
  requirePreferredTarget : Bool := false
  previousTargetID : String := ""
  previousDomain : String := ""
  wroteRequest : Bool := false
  idempotencyKey : String := ""
  allowCrossDomain : Bool := false

/-- `upstream.Observation`. -/
structure Observation where
  success : Bool := false
  wroteRequest : Bool := false
  statusCode : Int := 0
  category : String := ""
  latency : Int := 0

inductive CircuitState where
  | circuitClosed
  | circuitOpen
  | circuitHalfOpen
  deriving DecidableEq

structure TargetState where
  cfg : Target := {}
  active : Nat := 0
  failures : Nat := 0
  rateLimitFailures : Nat := 0
  successes : Nat := 0
  lastFailureAt : Int := 0
  lastSuccessAt : Int := 0
  lastLatency : Int := 0
  lastErrorClass : String := ""
  circuit : CircuitState := .circuitClosed
  openedAt : Int := 0
  halfOpenLeases : Nat := 0
  transportCfg : UpstreamConfig

/-- One entry of the map from a target's name to its state. -/
structure Slot where
  id : String
  state : Nat
  deriving DecidableEq

instance : Keyed Slot String := ⟨Slot.id⟩

structure Manager where
  strategy : String
  circuit : UpstreamCircuitConfig
  targets : Table Slot
  order : List String
  cursor : UInt64
  heap : Nat → TargetState
  size : Nat

/-- A lease handed out; `done` is its `once`. -/
structure Lease where
  state : Nat
  target : Target
  done : Bool

/-- Why a context is done. -/
inductive ContextError where
  | canceled
  | deadlineExceeded
  deriving DecidableEq

inductive SelectError where
  | context (err : ContextError)
  | noHealthyTarget
  | failoverNotSafe
  | targetConcurrencyFull
  deriving DecidableEq

/-- `fmt.Errorf("invalid upstream target %q", id)`. -/
structure InvalidTarget where
  id : String
  deriving DecidableEq

/-- `countsForCircuit`. -/
def countsForCircuit (observation : Observation) : Bool :=
  if observation.success then false
  else observation.category ∉ ["auth", "client", "duplicate_risk"]

def canChangeTarget (selection : SelectionContext) : Bool :=
  if !selection.wroteRequest then true
  else selection.idempotencyKey ≠ ""

namespace TargetState

/-- `observeLocked`. -/
def observe (circuit : UpstreamCircuitConfig) (now : Int) (state : TargetState)
    (observation : Observation) : TargetState :=
  let state :=
    if 0 < observation.latency then { state with lastLatency := observation.latency } else state
  if observation.success then
    let state :=
      { state with successes := state.successes + 1, lastSuccessAt := now, lastErrorClass := "" }
    if state.circuit = .circuitHalfOpen ∨ state.circuit = .circuitOpen then
      { state with circuit := .circuitClosed, failures := 0 }
    else state
  else if !countsForCircuit observation then
    { state with lastFailureAt := now, lastErrorClass := observation.category }
  else
    let state := { state with failures := state.failures + 1 }
    let state :=
      if observation.category = "rate_limit" then
        { state with rateLimitFailures := state.rateLimitFailures + 1 }
      else state
    let state := { state with lastFailureAt := now, lastErrorClass := observation.category }
    if !circuit.enabled then state
    else
      let requests : Int := state.failures + state.successes
      if state.circuit = .circuitHalfOpen then
        { state with circuit := .circuitOpen, openedAt := now }
      else if circuit.minimumRequests ≤ requests ∧
          (requests * circuit.failurePercent).bmod (2 ^ 64) ≤
            (state.failures * 100 : Int).bmod (2 ^ 64) then
        { state with circuit := .circuitOpen, openedAt := now }
      else state

theorem observe_rest (circuit : UpstreamCircuitConfig) (now : Int) (state : TargetState)
    (observation : Observation) :
    (observe circuit now state observation).cfg = state.cfg ∧
      (observe circuit now state observation).active = state.active ∧
      (observe circuit now state observation).halfOpenLeases = state.halfOpenLeases ∧
      (observe circuit now state observation).transportCfg = state.transportCfg := by
  simp only [observe]
  split_ifs <;> exact ⟨rfl, rfl, rfl, rfl⟩

/-- What `candidatesLocked` makes of a circuit whose time has come. -/
def warm (state : TargetState) : TargetState :=
  if state.circuit = .circuitOpen then { state with circuit := .circuitHalfOpen } else state

/-- What `Select` writes to the state it leases. -/
def takeLease (state : TargetState) : TargetState :=
  { state with
    halfOpenLeases :=
      if state.circuit = .circuitHalfOpen then state.halfOpenLeases + 1
      else state.halfOpenLeases
    active := state.active + 1 }

/-- The part of `finish` before it observes. Both counters stop at zero. -/
def giveBack (state : TargetState) : TargetState :=
  { state with
    active := state.active - 1
    halfOpenLeases :=
      if state.circuit = .circuitHalfOpen then state.halfOpenLeases - 1
      else state.halfOpenLeases }

end TargetState

namespace Manager

/-- Write the state a reference points at. -/
def put (m : Manager) (ref : Nat) (state : TargetState) : Manager :=
  { m with heap := Function.update m.heap ref state }

/-! ## Selecting -/

/-- One round of the loop of `candidatesLocked`. -/
def consider (now : Int) (selection : SelectionContext) (acc : Manager × List Nat)
    (id : String) : Manager × List Nat :=
  let m := acc.1
  if m.strategy = "primary-only" ∧ some id ≠ m.order.head? then acc
  else
    match m.targets.get? id with
    | none => acc
    | some slot =>
        let state := m.heap slot.state
        if state.circuit = .circuitOpen ∧ now - state.openedAt < m.circuit.openDuration then acc
        else if state.circuit = .circuitOpen ∧ m.circuit.enabled ∧
            m.circuit.halfOpenMax ≤ state.halfOpenLeases then acc
        else
          let state := state.warm
          let m := m.put slot.state state
          if state.circuit = .circuitHalfOpen ∧ m.circuit.halfOpenMax ≤ state.halfOpenLeases then
            (m, acc.2)
          else if selection.previousTargetID ≠ "" ∧ selection.wroteRequest ∧
              selection.idempotencyKey = "" ∧ state.cfg.id ≠ selection.previousTargetID then
            (m, acc.2)
          else if selection.previousDomain ≠ "" ∧ selection.wroteRequest ∧
              !selection.allowCrossDomain ∧
              state.cfg.idempotencyDomain ≠ selection.previousDomain then
            (m, acc.2)
          else (m, acc.2 ++ [slot.state])

/-- What `candidatesLocked` keeps of the targets the loop left. -/
def narrow (m : Manager) (selection : SelectionContext) (result : List Nat) : List Nat :=
  let preferred :=
    if selection.preferredTargetID ≠ "" then
      result.find? fun candidate => (m.heap candidate).cfg.id = selection.preferredTargetID
    else none
  match preferred with
  | some candidate => [candidate]
  | none =>
      if selection.preferredTargetID ≠ "" ∧ selection.requirePreferredTarget then []
      else if m.strategy = "weighted-priority" ∧ selection.previousTargetID ≠ "" ∧
          1 < result.length ∧ canChangeTarget selection then
        let alternatives :=
          result.filter fun candidate => (m.heap candidate).cfg.id ≠ selection.previousTargetID
        if 0 < alternatives.length then alternatives else result
      else result

/-- `candidatesLocked`. -/
def candidates (m : Manager) (now : Int) (selection : SelectionContext) : Manager × List Nat :=
  let found := m.order.foldl (consider now selection) (m, [])
  (found.1, found.1.narrow selection found.2)

/-- One round of the loop of `safetyBlockedLocked`. -/
def blocks (m : Manager) (selection : SelectionContext) (id : String) : Bool :=
  match m.targets.get? id with
  | none => false
  | some slot =>
      let state := m.heap slot.state
      (selection.idempotencyKey = "" ∧ state.cfg.id ≠ selection.previousTargetID) ∨
        (!selection.allowCrossDomain ∧ selection.previousDomain ≠ "" ∧
          state.cfg.idempotencyDomain ≠ selection.previousDomain)

/-- `safetyBlockedLocked`. -/
def safetyBlocked (m : Manager) (selection : SelectionContext) : Bool :=
  if !selection.wroteRequest ∨ m.targets.items = [] then false
  else m.order.any (m.blocks selection)

/-- `candidate.cfg.MaxActive <= 0 || candidate.active < candidate.cfg.MaxActive`. -/
def hasRoom (m : Manager) (ref : Nat) : Bool :=
  (m.heap ref).cfg.maxActive ≤ 0 ∨ (m.heap ref).active < (m.heap ref).cfg.maxActive

def weightOf (m : Manager) (ref : Nat) : Int := max (m.heap ref).cfg.weight 1

/-- The last loop of `chooseLocked`. -/
def pick (m : Manager) (point : Int) : List Nat → Option Nat
  | [] => none
  | candidate :: rest =>
      if point - m.weightOf candidate < 0 then some candidate
      else if rest = [] then some candidate
      else m.pick (point - m.weightOf candidate) rest

/-- `chooseLocked`. -/
def choose (m : Manager) (candidates : List Nat) : Manager × Option Nat :=
  match candidates.filter m.hasRoom with
  | [] => (m, none)
  | first :: rest =>
      let minPriority := rest.foldl (fun low candidate =>
        if (m.heap candidate).cfg.priority < low then (m.heap candidate).cfg.priority else low)
        (m.heap first).cfg.priority
      let preferred :=
        (first :: rest).filter fun candidate => (m.heap candidate).cfg.priority = minPriority
      let weight := preferred.foldl (fun sum candidate =>
        (sum + m.weightOf candidate).bmod (2 ^ 64)) (0 : Int)
      if weight ≤ 0 then (m, preferred.head?)
      else
        ({ m with cursor := m.cursor + 1 }, m.pick (m.cursor.toNat % weight.toNat : Nat) preferred)

/-- `Select`. The context is asked once before the lock and, when every
candidate is full, once more after the wait. -/
def select (m : Manager) (now : Int) (selection : SelectionContext)
    (ctx waited : Option ContextError) : Manager × Except SelectError Lease :=
  match ctx with
  | some err => (m, .error (.context err))
  | none =>
      let found := m.candidates now selection
      if found.2 = [] then
        (found.1, .error
          (if found.1.safetyBlocked selection then .failoverNotSafe else .noHealthyTarget))
      else
        let chosen := found.1.choose found.2
        match chosen.2 with
        | some ref =>
            if chosen.1.hasRoom ref then
              let state := chosen.1.heap ref
              (chosen.1.put ref state.takeLease, .ok ⟨ref, state.cfg, false⟩)
            else
              (chosen.1, .error ((waited.map SelectError.context).getD .targetConcurrencyFull))
        | none =>
            (chosen.1, .error ((waited.map SelectError.context).getD .targetConcurrencyFull))

/-! ## Finishing -/

/-- `finish`, behind the lease's `once`. -/
def finish (m : Manager) (lease : Lease) (now : Int) (observation : Option Observation) :
    Manager :=
  if lease.done then m
  else
    let state := (m.heap lease.state).giveBack
    match observation with
    | none => m.put lease.state state
    | some observation => m.put lease.state (state.observe m.circuit now observation)

/-- `Observe`. -/
def observe (m : Manager) (now : Int) (targetID : String) (observation : Observation) : Manager :=
  match m.targets.get? targetID with
  | none => m
  | some slot => m.put slot.state ((m.heap slot.state).observe m.circuit now observation)

/-! ## Reloading -/

/-- The configuration `ApplyWithEgress` stores for one target. -/
def targetConfig (target : UpstreamTargetConfig) : Target where
  id := target.id
  baseURL := target.baseURL
  priority := target.priority
  weight := if target.weight ≤ 0 then 1 else target.weight
  maxActive := target.maxActive
  idempotencyDomain := target.idempotencyDomain
  costMicrosPer1K := target.costMicrosPer1K

/-- The state `ApplyWithEgress` makes for a target it does not reuse. -/
def freshState (previous : Option TargetState) (target : UpstreamTargetConfig)
    (legacy : UpstreamConfig) : TargetState :=
  let state : TargetState := { cfg := targetConfig target, transportCfg := legacy }
  match previous with
  | none => state
  | some previous =>
      if previous.cfg.baseURL = target.baseURL then
        { state with
          failures := previous.failures
          successes := previous.successes
          rateLimitFailures := previous.rateLimitFailures
          lastFailureAt := previous.lastFailureAt
          lastSuccessAt := previous.lastSuccessAt
          lastLatency := previous.lastLatency
          lastErrorClass := previous.lastErrorClass
          circuit := previous.circuit
          openedAt := previous.openedAt }
      else state

/-- The state a reload keeps for a target: the one under its name, unless its
address or the transport changed. -/
def reused (m : Manager) (legacy : UpstreamConfig) (target : UpstreamTargetConfig) : Option Slot :=
  (m.targets.get? target.id).filter fun slot =>
    (m.heap slot.state).cfg.baseURL = target.baseURL ∧ (m.heap slot.state).transportCfg = legacy

/-- The loop of `ApplyWithEgress` over the targets. A configuration it turns
down has already been written to the states it reuses. -/
def stage (legacy : UpstreamConfig) :
    List UpstreamTargetConfig → Manager → Table Slot → Manager × Except InvalidTarget (Table Slot)
  | [], m, next => (m, .ok next)
  | target :: rest, m, next =>
      if target.id = "" ∨ target.baseURL = "" then (m, .error ⟨target.id⟩)
      else
        match m.reused legacy target with
        | some slot =>
            stage legacy rest
              (m.put slot.state { m.heap slot.state with cfg := targetConfig target })
              (next.set slot)
        | none =>
            let previous := (m.targets.get? target.id).map fun slot => m.heap slot.state
            stage legacy rest
              { m.put m.size (freshState previous target legacy) with size := m.size + 1 }
              (next.set ⟨target.id, m.size⟩)

/-- The targets a pool configuration stands for. -/
def targetsOf (pool : UpstreamPoolConfig) (legacy : UpstreamConfig) :
    List UpstreamTargetConfig :=
  if pool.targets.length = 0 then
    [{ id := "primary", baseURL := legacy.baseURL, priority := 0, weight := 1,
       idempotencyDomain := "legacy" }]
  else pool.targets

/-- The circuit configuration with its defaults filled in. -/
def normalize (circuit : UpstreamCircuitConfig) : UpstreamCircuitConfig where
  enabled := circuit.enabled
  openDuration := if circuit.openDuration ≤ 0 then 30000000000 else circuit.openDuration
  halfOpenMax := if circuit.halfOpenMax ≤ 0 then 1 else circuit.halfOpenMax
  minimumRequests := if circuit.minimumRequests ≤ 0 then 5 else circuit.minimumRequests
  failurePercent := if circuit.failurePercent ≤ 0 then 60 else circuit.failurePercent

/-- The order of `rebuildOrderLocked`. -/
def before (m : Manager) (left right : Slot) : Prop :=
  (m.heap left.state).cfg.priority < (m.heap right.state).cfg.priority ∨
    (m.heap left.state).cfg.priority = (m.heap right.state).cfg.priority ∧
      (m.heap left.state).cfg.id ≤ (m.heap right.state).cfg.id

instance (m : Manager) : DecidableRel m.before := fun _ _ =>
  inferInstanceAs (Decidable (_ ∨ _))

/-- `rebuildOrderLocked`. -/
def rebuildOrder (m : Manager) : Manager :=
  { m with order := (m.targets.items.insertionSort m.before).map Slot.id }

/-- `ApplyWithEgress`. -/
def apply (m : Manager) (pool : UpstreamPoolConfig) (legacy : UpstreamConfig) :
    Manager × Except InvalidTarget Unit :=
  let staged := stage legacy (targetsOf pool legacy) m ∅
  match staged.2 with
  | .error err => (staged.1, .error err)
  | .ok next =>
      (rebuildOrder { staged.1 with
        strategy := if pool.strategy = "" then "primary-only" else pool.strategy
        circuit := normalize pool.circuit
        targets := next }, .ok ())

/-- The manager `NewWithEgress` starts from. -/
def blank (legacy : UpstreamConfig) : Manager where
  strategy := ""
  circuit := {}
  targets := ∅
  order := []
  cursor := 0
  heap := fun _ => { transportCfg := legacy }
  size := 0

/-- `NewWithEgress`. -/
def new (pool : UpstreamPoolConfig) (legacy : UpstreamConfig) : Except InvalidTarget Manager :=
  let applied := (blank legacy).apply pool legacy
  applied.2.map fun _ => applied.1

end Manager

end RelayLifeline.Upstream
