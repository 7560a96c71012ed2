import Mathlib.Data.List.Sort
import RelayLifeline.Clock
import RelayLifeline.Journal.Tape
import RelayLifeline.Lib.Table
import RelayLifeline.Timeline.Record

/-!
# The timeline store

`timeline.Store` keeps the records of the requests that are under way and the
history of those that are not, newest first. Every change is appended to the
journal before it is made, and a restart replays the journal: what was under way
is then orphaned. The limits of the history are taken as constant, and what
`json.Unmarshal` makes of what was written is a parameter.
-/

namespace RelayLifeline.TimelineStore

open Lib Journal

variable {D E : Type}

instance : Keyed (Record D E) String := ⟨Record.id⟩

structure Limits where
  maxItems : Nat
  retention : Int

structure FinishPayload where
  outcome : String
  completedAt : Int

/-- What is appended to the journal, by its event type. -/
inductive Payload (D E : Type) where
  | start (record : Record D E)
  | event (event : Event D E)
  | finish (payload : FinishPayload)
  | other (eventType : String)

/-- What the details of messages and errors read back as. An empty map of
details is not written, and what was read once reads back as it is. -/
structure Codec (D E : Type) where
  details : D → Option D
  errorDetail : E → E
  details_read : ∀ {d d'}, details d = some d' → details d' = some d'
  errorDetail_read : ∀ e, errorDetail (errorDetail e) = errorDetail e

namespace Codec

def event (c : Codec D E) (event : Event D E) : Event D E :=
  { event with
    messageDetails := event.messageDetails.bind c.details
    errorDetail := event.errorDetail.map c.errorDetail }

def record (c : Codec D E) (record : Record D E) : Record D E :=
  { record with
    lastErrorDetails := record.lastErrorDetails.bind c.details
    lastErrorDetail := record.lastErrorDetail.map c.errorDetail
    events := record.events.map c.event }

def payload (c : Codec D E) : Payload D E → Payload D E
  | .start record => .start (c.record record)
  | .event event => .event (c.event event)
  | .finish payload => .finish payload
  | .other eventType => .other eventType

end Codec

/-- The texts of the errors `replay` wraps. -/
inductive ReplayError where
  | requestIDMismatch
  | notActive
  | unsupported (eventType : String)
  deriving DecidableEq

def Record.finished (record : Record D E) (payload : FinishPayload) : Record D E :=
  { record with state := payload.outcome, completedAt := payload.completedAt }

structure Memory (D E : Type) where
  active : Table (Record D E) := ∅
  history : List (Record D E) := []

namespace Memory

/-- The record leaves the active ones for the history. -/
def conclude (m : Memory D E) (record : Record D E) (payload : FinishPayload) : Memory D E where
  active := m.active.erase record.id
  history := record.finished payload :: m.history

/-- One round of the loop of `replay`. -/
def tell (m : Memory D E) (entityID : String) : Payload D E → Except ReplayError (Memory D E)
  | .start record =>
      if record.id = "" ∨ record.id ≠ entityID then .error .requestIDMismatch
      else .ok { m with active := m.active.set record }
  | .event event =>
      match m.active.get? entityID with
      | none => .error .notActive
      | some record => .ok { m with active := m.active.set (record.applyEvent event) }
  | .finish payload =>
      match m.active.get? entityID with
      | none => .error .notActive
      | some record => .ok (m.conclude record payload)
  | .other eventType => .error (.unsupported eventType)

/-- What the history is cut down to. -/
def pruned (limits : Limits) (now : Int) (history : List (Record D E)) : List (Record D E) :=
  (history.filter fun record => !(record.completedAt < now - limits.retention)).take limits.maxItems

/-- `pruneLocked`. -/
def prune (m : Memory D E) (limits : Limits) (now : Int) : Memory D E :=
  { m with history := pruned limits now m.history }

/-- The loop of `replay`. -/
def replayLines (c : Codec D E) (m : Memory D E) :
    List (Line (Payload D E)) → Except ReplayError (Memory D E)
  | [] => .ok m
  | line :: lines =>
      match m.tell line.entityID (c.payload line.payload) with
      | .error err => .error err
      | .ok m => replayLines c m lines

/-- `replay`. -/
def replay (c : Codec D E) (limits : Limits) (now : Int) (lines : List (Line (Payload D E))) :
    Except ReplayError (Memory D E) :=
  (replayLines c {} lines).map fun m => m.prune limits now

end Memory

structure Store (D E : Type) extends Memory D E where
  journal : Tape (Payload D E) := {}

namespace Store

/-- `StartWithIdentity`, and whether it succeeds. -/
def start (s : Store D E) (clk : Clock) (id method path clientID taskID : String) (fate : Fate) :
    Store D E × Bool :=
  let record := Record.started id method path clientID taskID clk.now
  let appended := s.journal.append ⟨clk.stamp, id, .start record⟩ fate
  if appended.2 then ({ s with active := s.active.set record, journal := appended.1 }, true)
  else ({ s with journal := appended.1 }, false)

/-- `Add`. -/
def add (s : Store D E) (clk : Clock) (id : String) (event : Event D E) (fate : Fate) :
    Store D E × Bool :=
  match s.active.get? id with
  | none => (s, true)
  | some record =>
      let event := if event.time = 0 then { event with time := clk.now } else event
      let appended := s.journal.append ⟨clk.stamp, id, .event event⟩ fate
      if appended.2 then
        ({ s with active := s.active.set (record.applyEvent event), journal := appended.1 }, true)
      else ({ s with journal := appended.1 }, false)

/-- `Finish`. The history is pruned at `later`. -/
def finish (s : Store D E) (limits : Limits) (clk : Clock) (later : Int) (id outcome : String)
    (fate : Fate) : Store D E × Bool :=
  match s.active.get? id with
  | none => (s, true)
  | some record =>
      let payload : FinishPayload := ⟨outcome, clk.now⟩
      let appended := s.journal.append ⟨clk.stamp, id, .finish payload⟩ fate
      if appended.2 then
        ({ (s.conclude record payload).prune limits later with journal := appended.1 }, true)
      else ({ s with journal := appended.1 }, false)

/-- `History`, on the store. -/
def listed (s : Store D E) (limits : Limits) (now : Int) : Store D E :=
  { s.prune limits now with journal := s.journal }

/-- `ActiveIDs`. -/
def activeIDs (s : Store D E) : List String := s.active.items.map Record.id

/-- The records, in the order a `range` over the map takes them. -/
def ranged (active : Table (Record D E)) (rank : String → Nat) : List (Record D E) :=
  active.items.mergeSort fun a b => rank a.id ≤ rank b.id

/-- One turn of the loop of `orphanInterrupted`, and whether it goes on. -/
def orphan (now : Int) (state : Store D E × Bool) (record : Record D E) (answer : Int × Fate) :
    Store D E × Bool :=
  if !state.2 then state
  else
    let payload : FinishPayload := ⟨"orphaned", now⟩
    let appended := state.1.journal.append ⟨answer.1, record.id, .finish payload⟩ answer.2
    if appended.2 then ({ state.1.conclude record payload with journal := appended.1 }, true)
    else ({ state.1 with journal := appended.1 }, false)

/-- `orphanInterrupted`, and whether it succeeds. -/
def orphanInterrupted (s : Store D E) (limits : Limits) (now later : Int) (rank : String → Nat)
    (answers : String → Int × Fate) : Store D E × Bool :=
  let orphaned := (ranged s.active rank).foldl
    (fun state record => orphan now state record (answers record.id)) (s, true)
  if orphaned.2 then (orphaned.1.listed limits later, true) else orphaned

/-- `NewPersistent` over a journal that is open, and whether it succeeds where
the replay does. -/
def newPersistent (c : Codec D E) (limits : Limits) (journal : Tape (Payload D E))
    (opened now later : Int) (rank : String → Nat) (answers : String → Int × Fate) :
    Except ReplayError (Store D E × Bool) :=
  (Memory.replay c limits opened journal.entries).map fun m =>
    orphanInterrupted { m with journal := journal } limits now later rank answers

end Store

/-! ## The store at work -/

/-- The store, whether its process is up, and the arguments of the compaction of
the journal that is under way. -/
structure Process (D E : Type) where
  store : Store D E := {}
  up : Bool := true
  compacting : Option (Int × List String) := none

/-- A method of the store, a step of the compaction of its journal, or the
process started again. -/
inductive Input (D E : Type) where
  | start (clk : Clock) (id method path clientID taskID : String) (fate : Fate)
  | add (clk : Clock) (id : String) (event : Event D E) (fate : Fate)
  | finish (clk : Clock) (later : Int) (id outcome : String) (fate : Fate)
  | history (now : Int)
  | activeIDs (now cutoff : Int)
  | compact (fate : Fate)
  | restart (opened now later : Int) (rank : String → Nat) (answers : String → Int × Fate)

namespace Process

/-- A step of a process that is up. -/
def serve (p : Process D E) (limits : Limits) : Input D E → Process D E
  | .start clk id method path clientID taskID fate =>
      { p with store := (p.store.start clk id method path clientID taskID fate).1 }
  | .add clk id event fate => { p with store := (p.store.add clk id event fate).1 }
  | .finish clk later id outcome fate =>
      { p with store := (p.store.finish limits clk later id outcome fate).1 }
  | .history now => { p with store := p.store.listed limits now }
  | .activeIDs _ cutoff => { p with compacting := some (cutoff, p.store.activeIDs) }
  | .compact fate =>
      match p.compacting with
      | none => p
      | some (cutoff, ids) =>
          { p with
            store.journal := p.store.journal.compact cutoff ids fate
            compacting := none }
  | .restart .. => p

def restart (p : Process D E) (c : Codec D E) (limits : Limits) (opened now later : Int)
    (rank : String → Nat) (answers : String → Int × Fate) : Process D E :=
  match Store.newPersistent c limits p.store.journal.reopen opened now later rank answers with
  | .error _ => { p with up := false, compacting := none }
  | .ok (store, up) => { store, up }

def step (c : Codec D E) (limits : Limits) (p : Process D E) : Input D E → Process D E
  | .restart opened now later rank answers => p.restart c limits opened now later rank answers
  | i => if p.up then p.serve limits i else p

def run (c : Codec D E) (limits : Limits) (p : Process D E) (inputs : List (Input D E)) :
    Process D E :=
  inputs.foldl (step c limits) p

end Process

end RelayLifeline.TimelineStore
