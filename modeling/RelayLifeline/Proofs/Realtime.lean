import RelayLifeline.Admin.Realtime
import RelayLifeline.Journal.DigestNat
import RelayLifeline.Lib.Trace

/-!
# Gaps in the realtime feed

The events of a feed are numbered one, two, three, and the ring holds the last
of them. What comes after a cursor is then a suffix of all that was published,
and the ring has the whole of it or it does not. Where it does not, the feed
says so of every cursor but zero; and a cursor that is ahead of the feed hides
what is published until the feed has come up with it.
-/

namespace RelayLifeline.Admin

open Journal Lib

/-! ## Numbered events -/

/-- The events after a cursor are the suffix that follows it. -/
theorem filter_eq_drop {events : List RealtimeEvent} {first : Nat}
    (h : events.map RealtimeEvent.sequence = List.range' first events.length) (cursor : Nat) :
    (events.filter fun event => cursor < event.sequence) = events.drop (cursor + 1 - first) := by
  induction events generalizing first with
  | nil => simp
  | cons event rest ih =>
      rw [List.length_cons, List.range'_succ, List.map_cons, List.cons.injEq] at h
      obtain ⟨hfirst, hrest⟩ := h
      rw [List.filter_cons, ih hrest, hfirst]
      by_cases hlt : cursor < first
      · have hnone : cursor + 1 - first = 0 := by omega
        have hnone' : cursor + 1 - (first + 1) = 0 := by omega
        rw [if_pos (by simpa using hlt), hnone, hnone']
        rfl
      · have hsucc : cursor + 1 - first = cursor + 1 - (first + 1) + 1 := by omega
        rw [if_neg (by simpa using hlt), hsucc, List.drop_succ_cons]

/-- The last of a list, after it has grown by one. -/
theorem drop_push {α : Type*} (events : List α) (event : α) (capacity : Nat) :
    (events.drop (events.length - capacity) ++ [event]).drop
        ((events.drop (events.length - capacity) ++ [event]).length - capacity) =
      (events ++ [event]).drop (events.length + 1 - capacity) := by
  rw [← List.drop_append_of_le_length (by omega), List.drop_drop, List.length_drop,
    List.length_append, List.length_singleton]
  congr 1
  omega

namespace FeedLog

variable {log : FeedLog}

/-- The events are numbered from one, and the ring holds the last of them. -/
structure Ring (log : FeedLog) : Prop where
  next : log.feed.next = log.history.length
  numbered : log.history.map RealtimeEvent.sequence = List.range' 1 log.history.length
  last : log.feed.events = log.history.drop log.overwritten

theorem length_trim (events : List RealtimeEvent) :
    RealtimeFeed.trim events = events.drop (events.length - realtimeEventCapacity) := by
  rw [RealtimeFeed.trim]
  split
  · rfl
  · next h =>
    have hnone : events.length - realtimeEventCapacity = 0 := by omega
    rw [hnone]
    rfl

theorem Ring.publish (h : log.Ring) (p : Publication) : (log.publish p).Ring := by
  have hnext := h.next
  cases hevent : log.feed.eventOf p with
  | none =>
      have hsame : log.publish p = log := by
        rw [FeedLog.publish, RealtimeFeed.publishData, hevent]
        simp
      rw [hsame]
      exact h
  | some event =>
      have hsequence : event.sequence = log.history.length + 1 := by
        rw [RealtimeFeed.eventOf] at hevent
        split at hevent
        · cases hevent
        · rw [← Option.some.inj hevent, hnext]
      have hpublished : log.publish p = ⟨log.feed.publishData p, log.history ++ [event]⟩ := by
        rw [FeedLog.publish, hevent]
        rfl
      have hfeed : (log.feed.publishData p).next = log.history.length + 1 ∧
          (log.feed.publishData p).events = RealtimeFeed.trim (log.feed.events ++ [event]) := by
        rw [RealtimeFeed.publishData, hevent, ← hnext]
        exact ⟨rfl, rfl⟩
      rw [hpublished]
      constructor
      · rw [hfeed.1]
        simp
      · simp only [List.map_append, List.map_cons, List.map_nil, h.numbered, hsequence,
          List.length_append, List.length_cons, List.length_nil]
        rw [List.range'_concat]
        simp [Nat.add_comm]
      · show (log.feed.publishData p).events =
          (log.history ++ [event]).drop ((log.feed.publishData p).next - realtimeEventCapacity)
        rw [hfeed.1, hfeed.2, length_trim, h.last, overwritten, hnext]
        exact drop_push log.history event realtimeEventCapacity

theorem ring_run (ps : List Publication) : (run {} ps).Ring :=
  foldl_invariant (P := Ring) (fun _ p h => h.publish p) ⟨rfl, rfl, List.drop_nil.symm⟩ ps

/-! ## What comes after a cursor -/

/-- The events of the ring are numbered from the first it has not lost. -/
theorem Ring.ring_numbered (h : log.Ring) :
    log.feed.events.map RealtimeEvent.sequence =
      List.range' (log.overwritten + 1) log.feed.events.length := by
  rw [h.last, List.map_drop, h.numbered, List.drop_range', List.length_drop, Nat.mul_one,
    Nat.add_comm]

theorem Ring.overwritten_of_empty (h : log.Ring) (hempty : log.feed.events = []) :
    log.overwritten = 0 := by
  have hlength := congrArg List.length h.last
  rw [hempty, List.length_drop, overwritten, h.next] at hlength
  rw [overwritten, h.next]
  have hcapacity : 0 < realtimeEventCapacity := by decide
  rw [List.length_nil] at hlength
  omega

theorem Ring.latest_after (h : log.Ring) (cursor : Nat) :
    (log.feed.after cursor).latest = log.history.length := by
  rw [← h.next, RealtimeFeed.after]
  split
  · rfl
  · split
    · rfl
    · rfl

/-- A gap is reported of a cursor whose next event is lost, unless it is zero. -/
theorem Ring.gap_after (h : log.Ring) (cursor : Nat) :
    (log.feed.after cursor).gap = true ↔ 0 < cursor ∧ cursor < log.overwritten := by
  rw [RealtimeFeed.after]
  split
  · next hempty =>
    rw [h.overwritten_of_empty hempty]
    simp
  · next oldest rest hevents =>
    have hnumbered := h.ring_numbered
    rw [hevents, List.length_cons, List.range'_succ, List.map_cons, List.cons.injEq] at hnumbered
    rw [hnumbered.1, Nat.add_sub_cancel]
    split
    · next hgap => exact ⟨fun _ => hgap, fun _ => rfl⟩
    · next hnone => exact ⟨fun heq => absurd heq Bool.false_ne_true, fun hgap => absurd hgap hnone⟩

/-- Otherwise the page has what the ring still has of the events after the
cursor. -/
theorem Ring.events_after (h : log.Ring) {cursor : Nat}
    (hgap : ¬(0 < cursor ∧ cursor < log.overwritten)) :
    (log.feed.after cursor).events = log.history.drop (max cursor log.overwritten) := by
  have hfilter : (log.feed.events.filter fun event => cursor < event.sequence) =
      log.history.drop (max cursor log.overwritten) := by
    have hmax : log.overwritten + (cursor + 1 - (log.overwritten + 1)) =
        max cursor log.overwritten := by omega
    rw [filter_eq_drop h.ring_numbered, h.last, List.drop_drop, hmax]
  rw [← hfilter, RealtimeFeed.after]
  split
  · next hempty =>
    rw [hempty]
    rfl
  · next oldest rest hevents =>
    have hnumbered := h.ring_numbered
    rw [hevents, List.length_cons, List.range'_succ, List.map_cons, List.cons.injEq] at hnumbered
    rw [hnumbered.1, Nat.add_sub_cancel, if_neg hgap]

theorem Ring.overwritten_le (h : log.Ring) : log.overwritten ≤ log.history.length := by
  rw [overwritten, h.next]
  omega

/-- After any cursor there is a gap or every event, but for the cursor zero once
the ring has lost an event. -/
theorem Ring.after_iff (h : log.Ring) (cursor : Nat) :
    ((log.feed.after cursor).gap = true ∨
        (log.feed.after cursor).events = log.history.drop cursor) ↔
      (0 < cursor ∨ log.overwritten = 0) := by
  rw [h.gap_after]
  by_cases hgap : 0 < cursor ∧ cursor < log.overwritten
  · exact ⟨fun _ => .inl hgap.1, fun _ => .inl hgap⟩
  rw [h.events_after hgap]
  constructor
  · rintro (hgap' | hall)
    · exact absurd hgap' hgap
    · have hlength := congrArg List.length hall
      have hle := h.overwritten_le
      simp only [List.length_drop] at hlength
      omega
  · intro hcursor
    have hmax : max cursor log.overwritten = cursor := by omega
    rw [hmax]
    exact .inr rfl

/-- The last event is numbered by how many there are. -/
theorem Ring.last_sequence (h : log.Ring) {cursor : Nat} (hlt : cursor < log.history.length) :
    (log.history.drop cursor).getLast?.map RealtimeEvent.sequence = some log.history.length := by
  rw [List.getLast?_drop, if_neg (by omega), ← List.getLast?_map, h.numbered,
    List.getLast?_range', if_neg (by omega)]
  congr 1
  omega

end FeedLog

/-! ## A stream -/

namespace Stream

variable {s : Stream}

/-- Where the event after the cursor is lost, the cursor is not zero; elsewhere
it is not ahead of where the client has been brought, unless nothing has been
published since. -/
def keepsUp (s : Stream) : StreamOp → Bool
  | .publish _ => true
  | .page =>
      if s.cursor < s.log.overwritten then 0 < s.cursor
      else s.cursor ≤ s.paged || s.log.feed.next = s.paged

/-- A client that is complete, with the cursor where it has been brought or
ahead of it. -/
structure Kept (s : Stream) : Prop where
  ring : s.log.Ring
  base_le : s.base ≤ s.paged
  paged_le : s.paged ≤ s.log.history.length
  ahead : s.paged ≤ s.cursor
  complete : s.Complete

theorem Kept.publish (h : s.Kept) (p : Publication) : (s.step (.publish p)).Kept := by
  have hpaged := h.paged_le
  have hhistory : (s.log.publish p).history =
      s.log.history ++ (s.log.feed.eventOf p).toList := rfl
  constructor
  · exact h.ring.publish p
  · exact h.base_le
  · show s.paged ≤ (s.log.publish p).history.length
    rw [hhistory, List.length_append]
    omega
  · exact h.ahead
  · show s.received = ((s.log.publish p).history.take s.paged).drop s.base
    rw [hhistory, List.take_append_of_le_length hpaged]
    exact h.complete

theorem kept_join {log : FeedLog} (h : log.Ring) (supplied : Option Nat) :
    (join log supplied).Kept := by
  have hnone : ∀ n, ([] : List RealtimeEvent) = (log.history.take n).drop n := by
    intro n
    rw [List.drop_eq_nil_of_le]
    rw [List.length_take]
    omega
  cases supplied with
  | none => exact ⟨h, Nat.le_refl _, Nat.le_of_eq h.next, Nat.le_refl _, hnone _⟩
  | some cursor =>
      exact ⟨h, Nat.le_refl _, Nat.le_trans (Nat.min_le_right _ _) (Nat.le_of_eq h.next),
        Nat.min_le_left _ _, hnone _⟩

/-- A client that is sent the state has everything. -/
theorem page_of_gap (h : s.log.Ring) (hgap : 0 < s.cursor ∧ s.cursor < s.log.overwritten) :
    s.page = ⟨s.log, s.log.history.length, s.log.history.length, [], s.log.history.length⟩ := by
  rw [page, if_pos ((h.gap_after s.cursor).2 hgap), h.latest_after]

theorem page_of_no_gap (h : s.log.Ring) (hgap : ¬(0 < s.cursor ∧ s.cursor < s.log.overwritten)) :
    s.page =
      { s with
        cursor := ((s.log.history.drop (max s.cursor s.log.overwritten)).getLast?.map
          RealtimeEvent.sequence).getD s.cursor
        received := s.received ++ s.log.history.drop (max s.cursor s.log.overwritten)
        paged := s.log.history.length } := by
  rw [page, if_neg (fun hreported => hgap ((h.gap_after s.cursor).1 hreported)), h.latest_after,
    h.events_after hgap]

theorem Kept.page (h : s.Kept) (hkeeps : s.keepsUp .page = true) : (s.step .page).Kept := by
  have hpaged := h.paged_le
  have hbase := h.base_le
  have hahead := h.ahead
  show s.page.Kept
  by_cases hgap : 0 < s.cursor ∧ s.cursor < s.log.overwritten
  · rw [page_of_gap h.ring hgap]
    refine ⟨h.ring, Nat.le_refl _, Nat.le_refl _, Nat.le_refl _, ?_⟩
    show [] = (s.log.history.take _).drop _
    rw [List.drop_eq_nil_of_le (by simp)]
  have hhas : s.log.overwritten ≤ s.cursor ∧
      (s.cursor ≤ s.paged ∨ s.log.history.length = s.paged) := by
    rw [← h.ring.next]
    simp only [keepsUp] at hkeeps
    split at hkeeps
    · next hlost => exact absurd ⟨of_decide_eq_true hkeeps, hlost⟩ hgap
    · next hkept => exact ⟨by omega, by simpa using hkeeps⟩
  have hmax : max s.cursor s.log.overwritten = s.cursor := by omega
  rw [page_of_no_gap h.ring hgap, hmax]
  refine ⟨h.ring, by dsimp only; omega, Nat.le_refl _, ?_, ?_⟩
  · show s.log.history.length ≤ _
    by_cases hlt : s.cursor < s.log.history.length
    · rw [h.ring.last_sequence hlt]
      exact Nat.le_refl _
    · rw [List.drop_eq_nil_of_le (by omega)]
      show s.log.history.length ≤ s.cursor
      omega
  · show s.received ++ _ = (s.log.history.take s.log.history.length).drop s.base
    rw [h.complete, List.take_length]
    rcases hhas.2 with hcursor | hnothing
    · have heq : s.cursor = s.paged := by omega
      rw [heq]
      conv_rhs => rw [← List.take_append_drop s.paged s.log.history]
      rw [List.drop_append_of_le_length]
      rw [List.length_take]
      omega
    · have hnone : s.log.history.drop s.cursor = [] := List.drop_eq_nil_of_le (by omega)
      rw [hnone, ← hnothing, List.take_length, List.append_nil]

/-- A client that cannot keep up misses an event. -/
theorem not_complete_page (h : s.Kept) (hkeeps : s.keepsUp .page = false) :
    ¬(s.step .page).Complete := by
  have hpaged := h.paged_le
  have hbase := h.base_le
  have hahead := h.ahead
  have hlost := h.ring.overwritten_le
  have hgap : ¬(0 < s.cursor ∧ s.cursor < s.log.overwritten) := by
    rintro ⟨hpos, hlt⟩
    rw [keepsUp, if_pos hlt] at hkeeps
    exact absurd hpos (of_decide_eq_false hkeeps)
  intro hcomplete
  have hlength : (s.received ++
        s.log.history.drop (max s.cursor s.log.overwritten)).length =
      ((s.log.history.take s.log.history.length).drop s.base).length := by
    have heq := congrArg List.length hcomplete
    have hstep : s.step .page = s.page := rfl
    rw [hstep, page_of_no_gap h.ring hgap] at heq
    exact heq
  rw [h.complete] at hlength
  simp only [List.length_append, List.length_drop, List.length_take, Nat.min_self] at hlength
  simp only [keepsUp] at hkeeps
  split at hkeeps
  · next hlt =>
    have hzero : ¬0 < s.cursor := of_decide_eq_false hkeeps
    omega
  · next hhas =>
    rw [Bool.or_eq_false_iff, h.ring.next] at hkeeps
    have hstale : ¬s.cursor ≤ s.paged := of_decide_eq_false hkeeps.1
    have hnew : s.log.history.length ≠ s.paged := of_decide_eq_false hkeeps.2
    omega

/-- Of any feed, `after` reports a gap or returns every event after the cursor,
unless the cursor is zero and an event is lost. A client that joins its stream
with any cursor, or none, has every event since it joined or was last sent the
state, in every state of the stream, exactly where it keeps up at each look. -/
theorem complete_iff (ps : List Publication) :
    let log := FeedLog.run {} ps
    log.history.map RealtimeEvent.sequence = List.range' 1 log.feed.next ∧
      (∀ cursor, ((log.feed.after cursor).gap = true ∨
          (log.feed.after cursor).events = log.history.drop cursor) ↔
        (0 < cursor ∨ log.overwritten = 0)) ∧
      ∀ supplied ops,
        (∀ front, front <+: ops → ((join log supplied).run front).Complete) ↔
          Along step (fun s op => s.keepsUp op = true) (join log supplied) ops := by
  intro log
  have hring : log.Ring := FeedLog.ring_run ps
  refine ⟨?_, hring.after_iff, ?_⟩
  · rw [hring.next]
    exact hring.numbered
  intro supplied ops
  refine Along.iff_prefixes (I := Kept) ?_ ?_ ?_ (kept_join hring supplied)
  · intro s op h hkeeps
    cases op with
    | publish p => exact h.publish p
    | page => exact h.page hkeeps
  · intro s op h hkeeps
    cases op with
    | publish p => exact absurd rfl hkeeps
    | page => exact not_complete_page h (Bool.eq_false_iff.2 hkeeps)
  · intro s h
    exact h.complete

/-- The status of the service, in one byte. -/
def statusOf (byte : UInt8) : Publication := ⟨"status", [byte], [byte], 0⟩

theorem sha256_zero_ne_one : sha256 [0] ≠ sha256 [1] := by
  rw [sha256_eq_nat, sha256_eq_nat]
  decide +kernel

theorem next_publishData {f : RealtimeFeed} {p : Publication}
    (h : f.hashes p.type ≠ some (sha256 p.fingerprint)) :
    (f.publishData p).next = f.next + 1 ∧
      (f.publishData p).hashes p.type = some (sha256 p.fingerprint) := by
  rw [RealtimeFeed.publishData, RealtimeFeed.eventOf, if_neg h]
  exact ⟨rfl, if_pos rfl⟩

/-- A status that changes with each publication is an event each time. -/
theorem next_alternating (n : Nat) {log : FeedLog}
    (h : log.feed.hashes "status" ≠ some (sha256 [0])) :
    (log.run (List.replicate n [statusOf 0, statusOf 1]).flatten).feed.next =
      log.feed.next + 2 * n := by
  induction n generalizing log with
  | zero => rfl
  | succ n ih =>
      obtain ⟨hnext, hhash⟩ := next_publishData (f := log.feed) (p := statusOf 0) h
      have hchanged : (log.feed.publishData (statusOf 0)).hashes "status" ≠
          some (sha256 [1]) := by
        intro heq
        exact sha256_zero_ne_one (Option.some.inj (hhash.symm.trans heq))
      obtain ⟨hnext', hhash'⟩ :=
        next_publishData (f := log.feed.publishData (statusOf 0)) (p := statusOf 1) hchanged
      rw [List.replicate_succ, List.flatten_cons, FeedLog.run, List.foldl_append]
      refine (@ih ((log.publish (statusOf 0)).publish (statusOf 1)) ?_).trans ?_
      · intro heq
        exact sha256_zero_ne_one (Option.some.inj (heq.symm.trans hhash'))
      · show ((log.feed.publishData (statusOf 0)).publishData (statusOf 1)).next + 2 * n = _
        rw [hnext', hnext]
        omega

/-- A client that comes back with a cursor from before a restart is not sent the
second event of the new feed. And a client that reads from the start is not told
that two events are lost. -/
theorem silent_gaps :
    ¬((join (FeedLog.run {} [statusOf 0]) (some 5)).run
        [.publish (statusOf 1), .page]).Complete ∧
      let log := FeedLog.run {} (List.replicate 257 [statusOf 0, statusOf 1]).flatten
      (log.feed.after 0).gap = false ∧ (log.feed.after 0).events ≠ log.history.drop 0 := by
  refine ⟨?_, ?_⟩
  · have hkept : (join (FeedLog.run {} [statusOf 0]) (some 5)).Kept :=
      kept_join (FeedLog.ring_run _) _
    have hfirst := next_publishData (f := {}) (p := statusOf 0) (Option.some_ne_none _).symm
    have hsecond := next_publishData (f := (FeedLog.run {} [statusOf 0]).feed)
      (p := statusOf 1) (by
        intro heq
        exact sha256_zero_ne_one (Option.some.inj (hfirst.2.symm.trans heq)))
    have hnext : ((FeedLog.run {} [statusOf 0]).publish (statusOf 1)).feed.next = 2 :=
      hsecond.1.trans (congrArg (· + 1) hfirst.1)
    have hjoined : (FeedLog.run {} [statusOf 0]).feed.next = 1 := hfirst.1
    rw [run, List.foldl_cons, List.foldl_cons, List.foldl_nil]
    refine not_complete_page (hkept.publish (statusOf 1)) ?_
    simp only [keepsUp, step, join, FeedLog.overwritten, hnext, hjoined, realtimeEventCapacity]
    decide
  · have hnext := @next_alternating 257 {} (Option.some_ne_none _).symm
    have hzero : ({} : FeedLog).feed.next = 0 := rfl
    rw [hzero] at hnext
    intro log
    have hring : log.Ring := FeedLog.ring_run _
    have hlost : log.overwritten = 2 := by
      rw [FeedLog.overwritten, hnext, realtimeEventCapacity]
    have hnot := mt (hring.after_iff 0).1 (by rw [hlost]; decide)
    rw [not_or, Bool.not_eq_true] at hnot
    exact hnot

end Stream

end RelayLifeline.Admin
