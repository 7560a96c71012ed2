import Mathlib.Data.List.Sort
import RelayLifeline.Clock
import RelayLifeline.Journal.Snapshots

/-!
# Incidents

`incident.Store` correlates failures into incidents. A failure goes to the
incident that is not resolved, or else to one resolved a short while ago, or
else opens one; a success has the incident recover, and a timer that finds it
still recovering resolves it. Every change is appended to the journal before it
is made. A map is gone through in any order, which is what `rank` stands for.

A timer is due when the recovery has been stable for the window, and does not
fire before. One that is stopped may have fired before, its function waiting for
the lock, so a timer the store has let go of may still run, and in any order with
the others. The state of an incident is one of the three the store gives it.
-/

namespace RelayLifeline.Incidents

open Lib Journal

inductive State where
  | opened
  | recovering
  | resolved
  deriving DecidableEq

/-- One entry of a map of counts. -/
structure Count (κ : Type) where
  value : κ
  count : Int
  deriving DecidableEq

instance {κ : Type} : Keyed (Count κ) κ := ⟨fun c => c.value⟩

/-- `counts[value]++`. -/
def bump {κ : Type} [DecidableEq κ] (counts : Table (Count κ)) (value : κ) : Table (Count κ) :=
  counts.set ⟨value, ((counts.get? value).elim 0 fun c => c.count) + 1⟩

structure Incident where
  id : String
  state : State := .opened
  startedAt : Int
  lastFailureAt : Int
  recoveryStarted : Option Int := none
  resolvedAt : Option Int := none
  affectedRequests : List String := []
  failedAttempts : Int := 0
  categories : Table (Count String) := ∅
  statusCodes : Table (Count Int) := ∅

instance : Keyed Incident String := ⟨fun incident => incident.id⟩

structure IncidentConfig where
  enabled : Bool
  maxItems : Int
  retention : Int
  correlationWindow : Int
  recoveryStableWindow : Int

/-- A timer that `scheduleRecoveryLocked` has started, with what its function
calls `resolve` on and the moment from which on it fires. -/
structure Timer where
  id : String
  recoveryStarted : Int
  due : Int
  deriving DecidableEq

structure Store where
  journal : Option (Log Incident) := none
  items : Table Incident := ∅
  /-- None where the source has the empty string. -/
  current : Option String := none
  /-- The timers that have not run. -/
  timers : List Timer := []

/-- What `pruneLocked` reads. -/
structure Pruning where
  cfg : IncidentConfig
  now : Int
  rank : String → Nat

/-- What `scheduleRecoveryLocked` reads. -/
structure Scheduling where
  cfg : IncidentConfig
  now : Int

/-- The delay of `scheduleRecoveryLocked`. -/
def recoveryDelay (recoveryStableWindow now recoveryStarted : Int) : Int :=
  let delay := recoveryStableWindow - (now - recoveryStarted)
  if delay < 0 then 0 else delay

/-- When the timer of a recovery that started then is due. -/
def Scheduling.due (sch : Scheduling) (recoveryStarted : Int) : Int :=
  sch.now + recoveryDelay sch.cfg.recoveryStableWindow sch.now recoveryStarted

namespace Incident

/-- `RecordFailure`, on the candidate. -/
def fail (incident : Incident) (now : Int) (requestID category : String) (statusCode : Int) :
    Incident :=
  { incident with
    state := .opened
    lastFailureAt := now
    recoveryStarted := none
    resolvedAt := none
    failedAttempts := incident.failedAttempts + 1
    categories := bump incident.categories category
    statusCodes :=
      if 0 < statusCode then bump incident.statusCodes statusCode else incident.statusCodes
    affectedRequests :=
      if requestID ≠ "" ∧ requestID ∉ incident.affectedRequests ∧
          incident.affectedRequests.length < 1000 then
        incident.affectedRequests ++ [requestID]
      else incident.affectedRequests }

/-- The incident was resolved within the correlation window. -/
def correlates (incident : Incident) (now window : Int) : Bool :=
  incident.state = .resolved ∧ incident.resolvedAt.any fun resolvedAt => now - resolvedAt ≤ window

/-- The incident was resolved before the cutoff. -/
def expired (incident : Incident) (cutoff : Int) : Bool :=
  incident.state = .resolved ∧ incident.resolvedAt.any fun resolvedAt => resolvedAt < cutoff

end Incident

namespace Store

/-- The incidents, in the order a `range` over the map takes them. -/
def ranged (items : Table Incident) (rank : String → Nat) : List Incident :=
  items.items.mergeSort fun a b => rank a.id ≤ rank b.id

/-- `persistLocked`, and whether it succeeds. -/
def persist (s : Store) (stamp : Int) (incident : Incident) (fate : Fate) : Store × Bool :=
  match s.journal with
  | none => (s, true)
  | some log =>
      let appended := log.append ⟨stamp, incident.id, incident⟩ fate
      ({ s with journal := some appended.1 }, appended.2)

/-- `candidateLocked`. `newID` is what `newID` draws. -/
def candidate (s : Store) (cfg : IncidentConfig) (now : Int) (rank : String → Nat)
    (newID : String) : Incident :=
  match s.current.bind fun current => s.items.get? current with
  | some current => current
  | none =>
      match (ranged s.items rank).find? fun i => i.correlates now cfg.correlationWindow with
      | some candidate => { candidate with state := .opened, resolvedAt := none }
      | none => { id := newID, startedAt := now, lastFailureAt := now }

/-- `pruneLocked`. -/
def prune (s : Store) (p : Pruning) : Store :=
  let cutoff := p.now - p.cfg.retention
  let kept := (ranged s.items p.rank).foldl
    (fun items i => if i.expired cutoff then items.erase i.id else items) s.items
  let resolved := (ranged kept p.rank).filter fun i => i.state = .resolved
  if kept.items.length ≤ p.cfg.maxItems then { s with items := kept }
  else
    let sorted := resolved.mergeSort fun a b => a.resolvedAt.getD 0 ≤ b.resolvedAt.getD 0
    { s with
      items := sorted.foldl
        (fun items i => if items.items.length ≤ p.cfg.maxItems then items else items.erase i.id)
        kept }

/-- `scheduleRecoveryLocked`. -/
def scheduleRecovery (s : Store) (sch : Scheduling) : Store :=
  match s.current.bind fun current => s.items.get? current with
  | none => s
  | some incident =>
      match incident.recoveryStarted with
      | none => s
      | some recoveryStarted =>
          if incident.state ≠ .recovering then s
          else
            { s with
              timers := s.timers ++ [⟨incident.id, recoveryStarted, sch.due recoveryStarted⟩] }

/-- `RecordFailure`, and whether it succeeds. -/
def recordFailure (s : Store) (cfg : IncidentConfig) (clk : Clock) (rank : String → Nat)
    (newID requestID category : String) (statusCode : Int) (fate : Fate) (p : Pruning) :
    Store × Bool :=
  if !cfg.enabled then (s, true)
  else
    let incident := (s.candidate cfg clk.now rank newID).fail clk.now requestID category statusCode
    let persisted := s.persist clk.stamp incident fate
    if !persisted.2 then (persisted.1, false)
    else
      (prune { persisted.1 with items := s.items.set incident, current := some incident.id } p, true)

/-- `RecordSuccess`, and whether it succeeds. -/
def recordSuccess (s : Store) (clk : Clock) (sch : Scheduling) (fate : Fate) : Store × Bool :=
  match s.current.bind fun current => s.items.get? current with
  | none => (s, true)
  | some current =>
      let incident := { current with state := .recovering, recoveryStarted := some clk.now }
      let persisted := s.persist clk.stamp incident fate
      if !persisted.2 then (persisted.1, false)
      else (scheduleRecovery { persisted.1 with items := s.items.set incident } sch, true)

/-- `resolve`. -/
def resolve (s : Store) (clk : Clock) (timer : Timer) (fate : Fate) (p : Pruning) : Store :=
  match s.items.get? timer.id with
  | none => s
  | some incident =>
      if incident.state ≠ .recovering ∨ incident.recoveryStarted ≠ some timer.recoveryStarted then s
      else
        let candidate := { incident with state := .resolved, resolvedAt := some clk.now }
        let persisted := s.persist clk.stamp candidate fate
        if !persisted.2 then persisted.1
        else prune { persisted.1 with items := s.items.set candidate, current := none } p

/-- One turn of the loop of `restoreCurrentLocked`. -/
def restoreTurn (items : Table Incident) (current : Option String) (i : Incident) :
    Option String :=
  if i.state = .opened ∨ i.state = .recovering then
    match current.bind fun current => items.get? current with
    | none => some i.id
    | some latest => if latest.startedAt < i.startedAt then some i.id else current
  else current

/-- `restoreCurrentLocked`. -/
def restoreCurrent (items : Table Incident) (rank : String → Nat) : Option String :=
  (ranged items rank).foldl (restoreTurn items) none

/-- `New`. -/
def new (journal : Option (Log Incident)) (rank : String → Nat) (p : Pruning) (sch : Scheduling) :
    Store :=
  let items := journal.elim ∅ fun log => snapshots log.lines
  let restored : Store := { journal := journal, items := items, current := restoreCurrent items rank }
  (restored.prune p).scheduleRecovery sch

/-- A method of the store, the function of a timer at a moment, or the process
started again, which compacts the journal first. -/
inductive Input where
  | recordFailure (cfg : IncidentConfig) (clk : Clock) (rank : String → Nat)
      (newID requestID category : String) (statusCode : Int) (fate : Fate) (p : Pruning)
  | recordSuccess (clk : Clock) (sch : Scheduling) (fate : Fate)
  | fires (timer : Nat) (moment : Int) (clk : Clock) (fate : Fate) (p : Pruning)
  | list (p : Pruning)
  | restart (cutoff : Int) (rank : String → Nat) (p : Pruning) (sch : Scheduling)

def step (s : Store) : Input → Store
  | .recordFailure cfg clk rank newID requestID category statusCode fate p =>
      (s.recordFailure cfg clk rank newID requestID category statusCode fate p).1
  | .recordSuccess clk sch fate => (s.recordSuccess clk sch fate).1
  | .fires timer moment clk fate p =>
      match s.timers[timer]? with
      | none => s
      | some fired =>
          if moment < fired.due then s
          else resolve { s with timers := s.timers.eraseIdx timer } clk fired fate p
  | .list p => s.prune p
  | .restart cutoff rank p sch =>
      new (s.journal.map fun log => { lines := Log.compact log.lines cutoff [] }) rank p sch

def run (s : Store) (inputs : List Input) : Store := inputs.foldl step s

end Store

end RelayLifeline.Incidents
