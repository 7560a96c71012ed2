import RelayLifeline.Lib.Trace
import RelayLifeline.Monitoring.Events

/-!
# Events are read without loss

The events are numbered from one on, so the ring has those with the last
numbers, in order, and what it has lost are the first ones. The oldest number
that is left therefore tells how far the loss goes.
-/

namespace RelayLifeline.Monitoring

open Lib

variable {D : Type}

namespace EventLog

/-- The ring has the end of the history, which is numbered. -/
structure Sound (log : EventLog D) : Prop where
  keeps : log.ring.toRing.Keeps securityEventCapacity log.history
  nextID_eq : log.ring.nextID = log.history.length
  numbered : Numbered Event.id log.history

theorem sound_new : Sound ({} : EventLog D) :=
  ⟨Ring.keeps_empty (by decide), rfl, numbered_nil⟩

theorem Sound.record {log : EventLog D} (h : log.Sound) (call : Int × Event D) :
    (log.record call).Sound := by
  refine ⟨h.keeps.push _, ?_, h.numbered.push ?_⟩
  · show log.ring.nextID + 1 = (log.history ++ [_]).length
    rw [h.nextID_eq, List.length_append, List.length_singleton]
  · rw [← h.nextID_eq]
    rfl

theorem sound_run (calls : List (Int × Event D)) : (run calls).Sound :=
  foldl_invariant (fun _ call h => h.record call) sound_new calls

variable {log : EventLog D}

theorem Sound.sorted_retained (h : log.Sound) : log.retained.Pairwise (·.id < ·.id) :=
  h.numbered.sorted.sublist (List.drop_sublist _ _)

/-- The oldest event that is left comes right after what is lost. -/
theorem Sound.oldest_eq (h : log.Sound) (hne : log.ring.length ≠ 0) :
    (log.ring.get securityEventCapacity 0).id =
      log.history.length - securityEventCapacity + 1 := by
  have hread := h.keeps.inOrder_eq
  obtain ⟨n, hn⟩ := Nat.exists_eq_succ_of_ne_zero hne
  rw [Ring.inOrder, hn, List.range_succ_eq_map, List.map_cons, lastOf] at hread
  exact h.numbered.id_of_drop hread.symm

end EventLog

namespace EventPage

/-- What the reader goes by. -/
def toPage (page : EventPage D) : Page (Event D) := ⟨page.events, page.nextAfter, page.hasMore⟩

end EventPage

namespace EventLog

variable {log : EventLog D}

theorem pageLimit_pos (limit : Int) : 0 < EventRing.pageLimit limit := by
  unfold EventRing.pageLimit
  split <;> omega

/-- A page of the ring is a page of what is left of the history. -/
theorem Sound.toPage_events (h : log.Sound) (limit : Int) (after : Nat) :
    (log.ring.events after limit).toPage =
      page Event.id (fun _ => true) (EventRing.pageLimit limit) log.retained after := by
  rw [EventRing.events]
  split
  · next hempty =>
      have hnil : log.retained = [] := by
        rw [retained, ← h.keeps.inOrder_eq, Ring.inOrder, hempty]
        rfl
      rw [hnil]
      rfl
  · rw [h.keeps.inOrder_eq, EventPage.toPage, retained]

theorem Sound.hasGap_iff (h : log.Sound) (limit : Int) (after : Nat) :
    (log.ring.events after limit).hasGap = true ↔
      after < log.history.length - securityEventCapacity := by
  have hlength := h.keeps.length_eq
  have hcapacity : 0 < securityEventCapacity := by decide
  rw [EventRing.events]
  split
  · refine iff_of_false Bool.false_ne_true ?_
    omega
  · next hsome =>
      dsimp only
      rw [decide_eq_true_eq, h.oldest_eq hsome, Nat.add_sub_cancel]

/-- Whatever has been recorded: the events a reader has not seen yet are read
in the order of their numbers, each once, by following the pages to the last
one, and a page tells of a gap exactly where an event the reader has not seen
has been overwritten. -/
theorem events_complete (calls : List (Int × Event D)) (after : Nat) (limit : Int) :
    let log := run calls
    log.retained.Pairwise (·.id < ·.id) ∧
      Follows (fun after => (log.ring.events after limit).toPage) after
        (log.retained.filter fun e => after < e.id) ∧
      ((log.ring.events after limit).hasGap = true ↔ ∃ e ∈ log.overwritten, after < e.id) := by
  have h := sound_run calls
  refine ⟨h.sorted_retained, ?_, ?_⟩
  · have hread : Follows
        (page Event.id (fun _ => true) (EventRing.pageLimit limit) (run calls).retained)
        after (above Event.id (fun _ => true) after (run calls).retained) :=
      follows h.sorted_retained (pageLimit_pos limit) after
    simp only [h.toPage_events]
    simpa [above] using hread
  · rw [h.hasGap_iff, EventLog.overwritten]
    exact (h.numbered.exists_take_iff (Nat.sub_le _ _) after).symm

end EventLog

end RelayLifeline.Monitoring
