import RelayLifeline.Lib.Paging
import RelayLifeline.Lib.Ring

/-!
# Operational events

The monitoring store numbers the events it is given and keeps the last of them
in a ring. A client reads them page by page, by the number of the last event it
has, and is told where the ring no longer has what comes next.
-/

namespace RelayLifeline.Monitoring

open Lib

def securityEventCapacity : Nat := 1000

/-- `Event`, with `D` for what its details hold. -/
structure Event (D : Type) where
  id : Nat := 0
  time : Int := 0
  code : String := ""
  category : String := ""
  requestID : String := ""
  statusCode : Int := 0
  attempt : Int := 0
  outcome : String := ""
  details : Option D := none
  changed : Option Bool := none
  restartRequired : Option Bool := none
  deriving DecidableEq

variable {D : Type}

instance : Inhabited (Event D) := ⟨{}⟩

structure EventPage (D : Type) where
  events : List (Event D) := []
  nextAfter : Nat
  oldestAfter : Nat := 0
  hasMore : Bool := false
  hasGap : Bool := false
  deriving DecidableEq

structure EventRing (D : Type) extends Lib.Ring (Event D) where
  nextID : Nat := 0

namespace EventRing

/-- `newEventRing`. -/
def new : EventRing D := { toRing := Ring.empty securityEventCapacity }

/-- The event as it is stored. -/
def stored (r : EventRing D) (now : Int) (event : Event D) : Event D :=
  let event := if event.time = 0 then { event with time := now } else event
  { event with id := r.nextID + 1 }

def recordEvent (r : EventRing D) (now : Int) (event : Event D) : EventRing D where
  toRing := r.toRing.push securityEventCapacity (r.stored now event)
  nextID := r.nextID + 1

/-- The limit of a page: a hundred where none was given. -/
def pageLimit (limit : Int) : Nat := if limit < 1 then 100 else limit.toNat

def events (r : EventRing D) (after : Nat) (limit : Int) : EventPage D :=
  let limit := pageLimit limit
  if r.length = 0 then { nextAfter := after, oldestAfter := r.nextID }
  else
    let oldestAfter := (r.get securityEventCapacity 0).id - 1
    let page := page Event.id (fun _ => true) limit (r.inOrder securityEventCapacity) after
    { events := page.items
      nextAfter := page.nextAfter
      oldestAfter := oldestAfter
      hasMore := page.hasMore
      hasGap := after < oldestAfter }

end EventRing

/-- The ring and every event it was ever given, as it stored them, which the
source does not remember. -/
structure EventLog (D : Type) where
  ring : EventRing D := .new
  history : List (Event D) := []

namespace EventLog

/-- One call of `RecordEvent`: the reading of the clock, and the event. -/
def record (log : EventLog D) (call : Int × Event D) : EventLog D where
  ring := log.ring.recordEvent call.1 call.2
  history := log.history ++ [log.ring.stored call.1 call.2]

def run (calls : List (Int × Event D)) : EventLog D := calls.foldl record {}

/-- The events that the ring still has. -/
def retained (log : EventLog D) : List (Event D) := lastOf securityEventCapacity log.history

/-- The events whose place has been taken. -/
def overwritten (log : EventLog D) : List (Event D) :=
  log.history.take (log.history.length - securityEventCapacity)

end EventLog

end RelayLifeline.Monitoring
