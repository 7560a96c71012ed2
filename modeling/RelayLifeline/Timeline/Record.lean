import RelayLifeline.Lib.Capped

/-!
# The record of a request

What the timeline store keeps of one request: its identity, where it stands, the
last error and up to a hundred of its events. What an event carries only to be
shown is left out, and the details of messages and errors are of any type.
-/

namespace RelayLifeline.TimelineStore

open Lib

def maxEventsPerRequest : Nat := 100

structure Event (D E : Type) where
  time : Int := 0
  type : String
  attempt : Int := 0
  message : String := ""
  messageCode : String := ""
  messageDetails : Option D := none
  errorDetail : Option E := none

structure Record (D E : Type) where
  id : String
  clientID : String := ""
  taskID : String := ""
  method : String
  path : String
  state : String := "queued"
  attempt : Int := 0
  startedAt : Int
  completedAt : Int := 0
  lastError : String := ""
  lastErrorCode : String := ""
  lastErrorDetails : Option D := none
  lastErrorDetail : Option E := none
  events : List (Event D E)
  eventsTruncated : Bool := false
  droppedEvents : Nat := 0

def criticalEvent (eventType : String) : Bool :=
  eventType = "uncertain" || "uncertain_".toList.isPrefixOf eventType.toList ||
    eventType = "completed"

variable {D E : Type}

/-- The event every record begins with. -/
def received (now : Int) : Event D E :=
  { time := now, type := "received", messageCode := "timeline.received" }

namespace Record

/-- The record `StartWithIdentity` makes. -/
def started (id method path clientID taskID : String) (now : Int) : Record D E :=
  { id, clientID, taskID, method, path, startedAt := now, events := [received now] }

/-- The loop of `applyEvent` that looks for the event to drop. -/
def drop (events : List (Event D E)) : Nat :=
  match ((events.drop 1).dropLast).findIdx? fun event => !criticalEvent event.type with
  | some index => index + 1
  | none => 1

def applyEvent (record : Record D E) (event : Event D E) : Record D E :=
  let record := { record with events := record.events ++ [event] }
  let record :=
    if maxEventsPerRequest < record.events.length then
      { record with
        events := record.events.eraseIdx (drop record.events)
        eventsTruncated := true
        droppedEvents := record.droppedEvents + 1 }
    else record
  let record :=
    if record.attempt < event.attempt then { record with attempt := event.attempt } else record
  if event.type = "attempt_failed" then
    { record with
      lastError := event.message
      lastErrorCode := event.messageCode
      lastErrorDetails := event.messageDetails
      lastErrorDetail := event.errorDetail }
  else record

theorem applyEvent_events (record : Record D E) (event : Event D E) :
    (record.applyEvent event).events =
        Capped.push (fun e => criticalEvent e.type) maxEventsPerRequest record.events event ∧
      (record.applyEvent event).eventsTruncated =
        (record.eventsTruncated ||
          decide (maxEventsPerRequest < (record.events ++ [event]).length)) ∧
      (record.applyEvent event).droppedEvents =
        if maxEventsPerRequest < (record.events ++ [event]).length then record.droppedEvents + 1
        else record.droppedEvents := by
  rw [Capped.push, Capped.dropIndex, Capped.interior, ← List.drop_one, applyEvent]
  dsimp only
  by_cases hlong : maxEventsPerRequest < (record.events ++ [event]).length
  · rw [if_pos hlong, if_pos hlong, if_pos hlong, decide_eq_true hlong, Bool.or_true]
    split
    · split
      · exact ⟨rfl, rfl, rfl⟩
      · exact ⟨rfl, rfl, rfl⟩
    · split
      · exact ⟨rfl, rfl, rfl⟩
      · exact ⟨rfl, rfl, rfl⟩
  · rw [if_neg hlong, if_neg hlong, if_neg hlong, decide_eq_false hlong, Bool.or_false]
    split
    · split
      · exact ⟨rfl, rfl, rfl⟩
      · exact ⟨rfl, rfl, rfl⟩
    · split
      · exact ⟨rfl, rfl, rfl⟩
      · exact ⟨rfl, rfl, rfl⟩

end Record

end RelayLifeline.TimelineStore
