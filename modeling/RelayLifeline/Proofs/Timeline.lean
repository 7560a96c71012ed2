import RelayLifeline.Timeline.Record

/-!
# What a timeline keeps of its events

The events of a record are a log with a bound of a hundred, of which the events
of an uncertain delivery and the completion are critical. Whatever is added to a
record, its events hold both ends of everything in order, and the record counts
what it has dropped.
-/

namespace RelayLifeline.TimelineStore

open Lib

variable {D E : Type}

namespace Record

/-- The record a sequence of events makes. -/
def addAll (record : Record D E) (events : List (Event D E)) : Record D E :=
  events.foldl applyEvent record

/-- The events of a record hold what was added, and it counts what they do
not. -/
structure Complete (all : List (Event D E)) (record : Record D E) : Prop where
  holds : Capped.Holds maxEventsPerRequest all record.events record.droppedEvents
  truncated : record.eventsTruncated = true ↔ 0 < record.droppedEvents
  nonempty : record.events ≠ []

theorem complete_started (id method path clientID taskID : String) (now : Int) :
    Complete [received now] (started id method path clientID taskID now : Record D E) where
  holds := ⟨by show 1 ≤ 100; omega, rfl, rfl, List.Sublist.refl _, rfl⟩
  truncated := ⟨fun h => absurd h Bool.false_ne_true, fun h => absurd h (Nat.lt_irrefl 0)⟩
  nonempty := List.cons_ne_nil _ _

theorem Complete.applyEvent {all : List (Event D E)} {record : Record D E}
    (h : Complete all record) (event : Event D E) :
    Complete (all ++ [event]) (record.applyEvent event) := by
  obtain ⟨hevents, htruncated, hdropped⟩ := record.applyEvent_events event
  have hpush := @Capped.Holds.push _ (fun e => criticalEvent e.type) _ _ _ _ h.holds (by decide)
    h.nonempty event
  rw [← hevents, ← hdropped] at hpush
  refine ⟨hpush, ?_, ?_⟩
  · rw [htruncated, hdropped, Bool.or_eq_true, h.truncated, decide_eq_true_eq]
    split
    next hlong => exact ⟨fun _ => Nat.succ_pos _, fun _ => .inr hlong⟩
    next hshort => exact ⟨fun hor => hor.resolve_right hshort, .inl⟩
  · intro hnil
    have hlast := hpush.last
    rw [hnil, List.getLast?_concat] at hlast
    cases hlast

theorem Complete.addAll {all : List (Event D E)} {record : Record D E} (h : Complete all record)
    (events : List (Event D E)) : Complete (all ++ events) (record.addAll events) := by
  induction events generalizing all record with
  | nil =>
      rw [List.append_nil]
      exact h
  | cons event events ih =>
      have hnext := ih (h.applyEvent event)
      rw [List.append_assoc] at hnext
      exact hnext

/-- **Whatever is added to a record, its events are the newest of them behind
the anchor**, a hundred at most and in order; what is missing is counted and
marked, and an event of an uncertain delivery or a completion is lost only when
no other is left between the two ends. -/
theorem events_capped (id method path clientID taskID : String) (now : Int)
    (added : List (Event D E)) :
    let record := (started id method path clientID taskID now).addAll added
    record.events.length ≤ 100 ∧
      record.events.head? = some (received now) ∧
      record.events.getLast? = (received now :: added).getLast? ∧
      record.events.Sublist (received now :: added) ∧
      record.events.length + record.droppedEvents = 1 + added.length ∧
      (record.eventsTruncated = true ↔ 0 < record.droppedEvents) ∧
      ∀ before event after, added = before ++ event :: after → ∀ lost,
        (((started id method path clientID taskID now).addAll before).events ++ [event]).Perm
          (lost :: ((started id method path clientID taskID now).addAll
            (before ++ [event])).events) →
        criticalEvent lost.type = true →
        ∀ other ∈ Capped.interior
          (((started id method path clientID taskID now).addAll before).events ++ [event]),
          criticalEvent other.type = true := by
  have hcomplete := (complete_started id method path clientID taskID now).addAll added
  refine ⟨hcomplete.holds.within, hcomplete.holds.first, hcomplete.holds.last,
    hcomplete.holds.ordered, ?_, hcomplete.truncated, ?_⟩
  · rw [hcomplete.holds.counted, List.length_append, List.length_singleton]
  · intro before event after _ lost hlost hcritical
    rw [addAll, addAll, List.foldl_concat, (applyEvent_events _ event).1] at hlost
    exact Capped.critical_of_lost hlost (by decide) hcritical

end Record

end RelayLifeline.TimelineStore
