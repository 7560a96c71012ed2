import RelayLifeline.Registry.Lifecycle

/-!
# The timeline of a request

The record the timeline store keeps of one request, open until it is finished.
Each event is first appended to a journal, and whether that append succeeds is
an argument here. What an event carries only to be shown is left out.
-/

namespace RelayLifeline.Timeline

open Lifecycle

inductive EventType where
  | received
  | attemptStarted
  | attemptFailed
  | uncertain
  | uncertainRetryBlocked
  | uncertainAbandon
  | uncertainConfirmSuccess
  | uncertainRequestCompensation
  | waiting
  | retryRescheduled
  | retryRequested
  | retryPolicyUpdated
  | retryPolicyReset
  | retryPolicyActivated
  | retryResumed
  | retryWindowExpired
  | retryAttemptsExhausted
  | cancelRequested
  | deliveryFailed
  | completed
  | canceled
  | expired
  deriving DecidableEq, Repr

structure Event where
  type : EventType
  attempt : Nat := 0
  statusCode : Nat := 0
  category : String := ""
  messageCode : String := ""
  waitNanoseconds : Int := 0
  attemptPhase : Option AttemptPhase := none
  targetID : String := ""
  targetDomain : String := ""
  wroteRequest : Bool := false
  deriving DecidableEq, Repr

/-- `criticalEvent`. -/
def criticalEvent : EventType → Bool
  | .uncertain | .uncertainRetryBlocked | .uncertainAbandon | .uncertainConfirmSuccess
  | .uncertainRequestCompensation | .completed => true
  | _ => false

def maxEventsPerRequest : Nat := 100

structure Record where
  /-- The outcome the record was finished with, none while it is active. -/
  finished : Option State := none
  attempt : Nat := 0
  lastErrorCode : String := ""
  events : List Event := [{ type := .received, messageCode := "timeline.received" }]
  eventsTruncated : Bool := false
  droppedEvents : Nat := 0

namespace Record

/-- The place of the event `applyEvent` drops from a list that is too long: the
first one between the two ends that is not critical, or else the second. -/
def drop (events : List Event) : Nat :=
  match (events.tail.dropLast).findIdx? fun event => !criticalEvent event.type with
  | some index => index + 1
  | none => 1

/-- `applyEvent`. -/
def applyEvent (record : Record) (event : Event) : Record :=
  let events := record.events ++ [event]
  let failed := event.type = .attemptFailed
  { record with
    attempt := max record.attempt event.attempt
    lastErrorCode := if failed then event.messageCode else record.lastErrorCode
    events := if maxEventsPerRequest < events.length then events.eraseIdx (drop events) else events
    eventsTruncated :=
      if maxEventsPerRequest < events.length then true else record.eventsTruncated
    droppedEvents :=
      if maxEventsPerRequest < events.length then record.droppedEvents + 1
      else record.droppedEvents }

/-- `Store.Add`; the answer is whether it returns no error. A record that is
finished takes no more events and says nothing. -/
def add (record : Record) (event : Event) (persisted : Bool) : Record × Bool :=
  if record.finished.isSome then (record, true)
  else if persisted then (record.applyEvent event, true)
  else (record, false)

/-- `Store.Finish`. -/
def finish (record : Record) (outcome : State) (persisted : Bool) : Record × Bool :=
  if record.finished.isSome then (record, true)
  else if persisted then ({ record with finished := some outcome }, true)
  else (record, false)

@[simp] theorem add_finished (record : Record) (event : Event) (persisted : Bool) :
    (record.add event persisted).1.finished = record.finished := by
  simp only [add]
  split
  · rfl
  · split <;> rfl

/-- An event that is written is found at the end of the record. -/
theorem mem_applyEvent (record : Record) (event : Event) :
    event ∈ (record.applyEvent event).events := by
  simp only [applyEvent]
  split
  · rename_i hlong
    have hdrop : drop (record.events ++ [event]) < record.events.length := by
      simp only [maxEventsPerRequest, List.length_append, List.length_singleton] at hlong
      simp only [drop]
      split
      · rename_i index hindex
        have := List.findIdx?_eq_some_iff_getElem.1 hindex
        obtain ⟨hlt, -⟩ := this
        simp only [List.length_dropLast, List.length_tail, List.length_append,
          List.length_singleton] at hlt
        omega
      · omega
    rw [List.eraseIdx_append_of_lt_length hdrop]
    simp
  · simp

end Record

end RelayLifeline.Timeline
