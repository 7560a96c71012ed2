import Mathlib.Data.List.Induction
import RelayLifeline.Lib.Trace
import RelayLifeline.Timeline.Store

/-!
# What a restart makes of the timeline

A restart replays the journal from its beginning and prunes the history once,
where the store has pruned it after every request. The two agree because
requests complete in the order of the history: what one prune removes a later
one would have. A compaction removes the lines of a request together, so a
replay misses the request and is none the wiser. What a failed append leaves in
the file is replayed like any other line.
-/

namespace RelayLifeline.TimelineStore

open Lib Journal

variable {D E : Type}

/-! ## Pruning -/

/-- Cutting a list down twice cuts no more than the second time, where the
second filter takes a part of what the first does and takes it from the
front. -/
theorem take_filter_take_filter {α : Type} {q r : α → Bool} {l : List α}
    (hsub : ∀ a, r a = true → q a = true)
    (hfront : l.Pairwise fun a b => r b = true → r a = true) (n : Nat) :
    (((l.filter q).take n).filter r).take n = (l.filter r).take n := by
  induction l generalizing n with
  | nil => simp
  | cons a l ih =>
    obtain ⟨ha, hl⟩ := List.pairwise_cons.1 hfront
    cases hr : r a with
    | true =>
      rw [List.filter_cons_of_pos (hsub a hr), List.filter_cons_of_pos hr]
      cases n with
      | zero => rfl
      | succ n =>
        rw [List.take_succ_cons, List.filter_cons_of_pos hr, List.take_succ_cons,
          List.take_succ_cons, ih hl]
    | false =>
      have hnone : ∀ b ∈ a :: l, ¬ r b = true := by
        intro b hb hrb
        rcases List.mem_cons.1 hb with rfl | hb
        · rw [hr] at hrb
          cases hrb
        · rw [ha b hb hrb] at hr
          cases hr
      rw [List.filter_eq_nil_iff.2 hnone, List.filter_eq_nil_iff.2 fun b hb =>
        hnone b (List.mem_filter.1 (List.mem_of_mem_take hb)).1]

/-- What is among the first stays among them when others are left out. -/
theorem mem_take_filter {α : Type} {p : α → Bool} {l : List α} {n : Nat} {a : α}
    (h : a ∈ l.take n) (hp : p a = true) : a ∈ (l.filter p).take n := by
  induction l generalizing n with
  | nil =>
    rw [List.take_nil] at h
    cases h
  | cons b l ih =>
    cases n with
    | zero => cases h
    | succ n =>
      rcases List.mem_cons.1 h with rfl | h
      · rw [List.filter_cons_of_pos hp]
        exact List.mem_cons_self
      · have hrest := ih h
        cases hb : p b with
        | true =>
          rw [List.filter_cons_of_pos hb]
          exact List.mem_cons_of_mem _ hrest
        | false =>
          rw [List.filter_cons_of_neg (by simp [hb])]
          exact List.take_subset_take_left _ n.le_succ hrest

namespace Memory

variable {limits : Limits} {now : Int} {record : Record D E} {history : List (Record D E)}

/-- The newest records first, none of them newer than the clock. -/
structure Descending (clock : Int) (history : List (Record D E)) : Prop where
  ordered : history.Pairwise fun a b => b.completedAt ≤ a.completedAt
  past : ∀ record ∈ history, record.completedAt ≤ clock

theorem Descending.sublist {clock : Int} {history' : List (Record D E)}
    (h : Descending clock history) (hsub : history'.Sublist history) : Descending clock history' :=
  ⟨h.ordered.sublist hsub, fun record hin => h.past record (hsub.subset hin)⟩

theorem Descending.mono {clock clock' : Int} (h : Descending clock history)
    (hle : clock ≤ clock') : Descending clock' history :=
  ⟨h.ordered, fun record hin => Int.le_trans (h.past record hin) hle⟩

theorem pruned_sublist : (pruned limits now history).Sublist history :=
  (List.take_sublist _ _).trans List.filter_sublist

theorem pruned_pruned {clock earlier : Int} (h : Descending clock history) (hle : earlier ≤ now) :
    pruned limits now (pruned limits earlier history) = pruned limits now history := by
  refine take_filter_take_filter (fun record hkept => ?_) (h.ordered.imp fun hab hkept => ?_) _
  · simp only [Bool.not_eq_true', decide_eq_false_iff_not] at hkept ⊢
    omega
  · simp only [Bool.not_eq_true', decide_eq_false_iff_not] at hkept ⊢
    omega

theorem pruned_cons_pruned :
    pruned limits now (record :: pruned limits now history) =
      pruned limits now (record :: history) := by
  simp only [pruned]
  generalize hkeeps : (fun record : Record D E => !(record.completedAt < now - limits.retention)) =
    keeps
  have hkept : ((history.filter keeps).take limits.maxItems).filter keeps =
      (history.filter keeps).take limits.maxItems :=
    List.filter_eq_self.2 fun a ha => (List.mem_filter.1 (List.mem_of_mem_take ha)).2
  cases hrecord : keeps record with
  | true =>
    rw [List.filter_cons_of_pos hrecord, List.filter_cons_of_pos hrecord, hkept]
    cases limits.maxItems with
    | zero => rfl
    | succ n =>
      rw [List.take_succ_cons, List.take_succ_cons, List.take_take, Nat.min_eq_left n.le_succ]
  | false =>
    rw [List.filter_cons_of_neg (by simp [hrecord]), List.filter_cons_of_neg (by simp [hrecord]),
      hkept, List.take_take, Nat.min_self]

theorem pruned_map {f : Record D E → Record D E}
    (hf : ∀ record, (f record).completedAt = record.completedAt) :
    pruned limits now (history.map f) = (pruned limits now history).map f := by
  rw [pruned, pruned, List.filter_map, List.map_take]
  refine congrArg (fun l => (List.map f l).take _) (List.filter_congr fun record _ => ?_)
  show (!decide ((f record).completedAt < _)) = _
  rw [hf]

theorem mem_pruned_filter {p : Record D E → Bool} (h : record ∈ pruned limits now history)
    (hp : p record = true) : record ∈ pruned limits now (history.filter p) := by
  rw [pruned, List.filter_filter]
  simp only [Bool.and_comm _ (p _)]
  rw [← List.filter_filter]
  exact mem_take_filter h hp

end Memory

/-! ## What reads back -/

namespace Codec

variable (c : Codec D E)

theorem bind_details (o : Option D) : (o.bind c.details).bind c.details = o.bind c.details := by
  cases o with
  | none => rfl
  | some d =>
    rw [Option.bind_some]
    cases hread : c.details d with
    | none => rfl
    | some d' => exact c.details_read hread

theorem event_event (event : Event D E) : c.event (c.event event) = c.event event := by
  simp only [Codec.event, c.bind_details, Option.map_map, Function.comp_def, c.errorDetail_read]

theorem record_record (record : Record D E) : c.record (c.record record) = c.record record := by
  simp only [Codec.record, c.bind_details, Option.map_map, Function.comp_def, c.errorDetail_read,
    List.map_map, c.event_event]

theorem drop_map (events : List (Event D E)) :
    Record.drop (events.map c.event) = Record.drop events := by
  rw [Record.drop, Record.drop, ← List.map_drop, ← List.map_dropLast, List.findIdx?_map]
  rfl

end Codec

/-! ## The parts of `applyEvent` -/

namespace Record

def push (event : Event D E) (record : Record D E) : Record D E :=
  let events := record.events ++ [event]
  if maxEventsPerRequest < events.length then
    { record with
      events := events.eraseIdx (drop events)
      eventsTruncated := true
      droppedEvents := record.droppedEvents + 1 }
  else { record with events }

def noteAttempt (event : Event D E) (record : Record D E) : Record D E :=
  if record.attempt < event.attempt then { record with attempt := event.attempt } else record

def noteFailure (event : Event D E) (record : Record D E) : Record D E :=
  if event.type = "attempt_failed" then
    { record with
      lastError := event.message
      lastErrorCode := event.messageCode
      lastErrorDetails := event.messageDetails
      lastErrorDetail := event.errorDetail }
  else record

theorem applyEvent_eq (record : Record D E) (event : Event D E) :
    record.applyEvent event = ((record.push event).noteAttempt event).noteFailure event := rfl

theorem applyEvent_keeps (record : Record D E) (event : Event D E) :
    (record.applyEvent event).id = record.id ∧
      (record.applyEvent event).completedAt = record.completedAt := by
  rw [applyEvent_eq, noteFailure, noteAttempt, push]
  split
  · split
    · split
      · exact ⟨rfl, rfl⟩
      · exact ⟨rfl, rfl⟩
    · split
      · exact ⟨rfl, rfl⟩
      · exact ⟨rfl, rfl⟩
  · split
    · split
      · exact ⟨rfl, rfl⟩
      · exact ⟨rfl, rfl⟩
    · split
      · exact ⟨rfl, rfl⟩
      · exact ⟨rfl, rfl⟩

end Record

namespace Codec

variable (c : Codec D E)

theorem record_push (record : Record D E) (event : Event D E) :
    c.record (record.push event) = (c.record record).push (c.event event) := by
  have hevents : (c.record record).events ++ [c.event event] =
      (record.events ++ [event]).map c.event := by
    rw [List.map_append]
    rfl
  rw [Record.push, Record.push, hevents]
  simp only [List.length_map, c.drop_map]
  split
  · rw [Codec.record, List.eraseIdx_map]
    rfl
  · rfl

theorem record_noteAttempt (record : Record D E) (event : Event D E) :
    c.record (record.noteAttempt event) = (c.record record).noteAttempt (c.event event) := by
  show _ = if record.attempt < event.attempt then _ else _
  rw [Record.noteAttempt]
  split
  · rfl
  · rfl

theorem record_noteFailure (record : Record D E) (event : Event D E) :
    c.record (record.noteFailure event) = (c.record record).noteFailure (c.event event) := by
  show _ = if event.type = "attempt_failed" then _ else _
  rw [Record.noteFailure]
  split
  · rfl
  · rfl

theorem record_applyEvent (record : Record D E) (event : Event D E) :
    c.record (record.applyEvent event) = (c.record record).applyEvent (c.event event) := by
  rw [Record.applyEvent_eq, Record.applyEvent_eq, c.record_noteFailure, c.record_noteAttempt,
    c.record_push]

end Codec

namespace Memory

variable (c : Codec D E) (limits : Limits)

/-! ## The store and its replay -/

/-- A replay has what the store has, as it reads back, and the store has pruned
nothing that would be there from now on. -/
structure Mirrors (clock : Int) (live m : Memory D E) : Prop where
  active : Table.Rel (fun a b => b = c.record a) live.active m.active
  history : ∀ now, clock ≤ now →
    pruned limits now m.history = (pruned limits now live.history).map c.record
  ordered : Descending clock live.history
  replayed : Descending clock m.history

variable {c limits} {clock clock' : Int} {live live' m m' : Memory D E} {id : String}

theorem Mirrors.items (h : Mirrors c limits clock live m) :
    m.active.items = live.active.items.map c.record := by
  have hrel := h.active
  rw [Table.Rel] at hrel
  generalize live.active.items = records at hrel ⊢
  generalize m.active.items = read at hrel ⊢
  induction hrel with
  | nil => rfl
  | cons heq _ ih => rw [heq, ih, List.map_cons]

theorem Mirrors.get? (h : Mirrors c limits clock live m) (id : String) :
    m.active.get? id = (live.active.get? id).map c.record := by
  have hkey (a b : Record D E) (hab : b = c.record a) : key a = key b := by
    rw [hab]
    rfl
  cases hm : m.active.get? id with
  | none => rw [h.active.get?_none hkey hm, Option.map_none]
  | some b =>
    obtain ⟨a, ha, rfl⟩ := h.active.get?_some hkey hm
    rw [ha, Option.map_some]

theorem Mirrors.mono (h : Mirrors c limits clock live m) (hle : clock ≤ clock') :
    Mirrors c limits clock' live m :=
  ⟨h.active, fun now hnow => h.history now (Int.le_trans hle hnow), h.ordered.mono hle,
    h.replayed.mono hle⟩

/-- The store prunes its history, and a replay would have all the same. -/
theorem Mirrors.prune (h : Mirrors c limits clock live m) (hle : clock ≤ clock') :
    Mirrors c limits clock' (live.prune limits clock') m where
  active := h.active
  history now hnow := by
    rw [h.history now (Int.le_trans hle hnow)]
    exact congrArg _ (pruned_pruned h.ordered hnow).symm
  ordered := (h.ordered.mono hle).sublist pruned_sublist
  replayed := h.replayed.mono hle

/-- Both take a line. -/
theorem Mirrors.tell (h : Mirrors c limits clock live m) (hle : clock ≤ clock')
    {payload : Payload D E}
    (hfinish : ∀ f, payload = .finish f → f.completedAt ≤ clock' ∧
      (∀ record ∈ live.history, record.completedAt ≤ f.completedAt) ∧
      ∀ record ∈ m.history, record.completedAt ≤ f.completedAt)
    (hlive : live.tell id payload = .ok live') :
    ∃ m', m.tell id (c.payload payload) = .ok m' ∧ Mirrors c limits clock' live' m' := by
  have hkey (a b : Record D E) (hab : b = c.record a) : key a = key b := by
    rw [hab]
    rfl
  cases payload with
  | start record =>
    rw [Memory.tell] at hlive
    split at hlive
    next => cases hlive
    next hid =>
      cases hlive
      refine ⟨_, if_neg hid, (h.mono hle).active.set hkey rfl, (h.mono hle).history,
        h.ordered.mono hle, h.replayed.mono hle⟩
  | event event =>
    rw [Memory.tell] at hlive
    split at hlive
    next => cases hlive
    next record hget =>
      cases hlive
      refine ⟨{ m with active := m.active.set ((c.record record).applyEvent (c.event event)) }, ?_,
        h.active.set hkey (c.record_applyEvent record event).symm, (h.mono hle).history,
        h.ordered.mono hle, h.replayed.mono hle⟩
      rw [Codec.payload, Memory.tell, h.get?, hget, Option.map_some]
  | finish f =>
    obtain ⟨hpast, hnewest, hnewest'⟩ := hfinish f rfl
    rw [Memory.tell] at hlive
    split at hlive
    next => cases hlive
    next record hget =>
      cases hlive
      refine ⟨m.conclude (c.record record) f, ?_, h.active.erase hkey _, fun now hnow => ?_,
        ⟨List.pairwise_cons.2 ⟨hnewest, h.ordered.ordered⟩, fun other hin => ?_⟩,
        ⟨List.pairwise_cons.2 ⟨hnewest', h.replayed.ordered⟩, fun other hin => ?_⟩⟩
      · rw [Codec.payload, Memory.tell, h.get?, hget, Option.map_some]
      · calc pruned limits now ((c.record record).finished f :: m.history)
            = pruned limits now (c.record (record.finished f) ::
                pruned limits now (live.history.map c.record)) := by
              rw [@pruned_map _ _ _ _ _ c.record fun _ => rfl,
                ← h.history now (Int.le_trans hle hnow), pruned_cons_pruned]
              rfl
          _ = pruned limits now ((record.finished f :: live.history).map c.record) :=
              pruned_cons_pruned
          _ = (pruned limits now (record.finished f :: live.history)).map c.record :=
              pruned_map fun _ => rfl
      · rcases List.mem_cons.1 hin with rfl | hin
        · exact hpast
        · exact Int.le_trans (h.ordered.past other hin) hle
      · rcases List.mem_cons.1 hin with rfl | hin
        · exact hpast
        · exact Int.le_trans (h.replayed.past other hin) hle
  | other eventType => cases hlive

/-! ## Replays -/

variable {lines : List (Line (Payload D E))} {line : Line (Payload D E)}

theorem replayLines_append (h : replayLines c m lines = .ok m') :
    replayLines c m (lines ++ [line]) = m'.tell line.entityID (c.payload line.payload) := by
  induction lines generalizing m with
  | nil =>
    obtain rfl := Except.ok.inj h
    rw [List.nil_append, replayLines]
    split
    next hfails => exact hfails.symm
    next htold => exact htold.symm
  | cons first lines ih =>
    rw [List.cons_append, replayLines]
    rw [replayLines] at h
    split at h
    next => cases h
    next => exact ih h

/-- What is left of the records when some requests are left out. -/
def without (m : Memory D E) (keeps : String → Bool) : Memory D E where
  active := m.active.filter fun record => keeps (key record)
  history := m.history.filter fun record => keeps (key record)

theorem tell_without {payload : Payload D E} (keeps : String → Bool)
    (h : m.tell id payload = .ok m') :
    (keeps id = true → (m.without keeps).tell id payload = .ok (m'.without keeps)) ∧
      (keeps id = false → m'.without keeps = m.without keeps) := by
  have hget : (m.without keeps).active.get? id = if keeps id then m.active.get? id else none :=
    Table.get?_filter keeps id
  cases payload with
  | start record =>
    rw [tell] at h
    split at h
    next => cases h
    next hid =>
      cases h
      rw [not_or, not_not] at hid
      have heq : key record = id := hid.2
      refine ⟨fun hkeeps => ?_, fun hdrops => ?_⟩
      · rw [tell, if_neg (by rwa [not_or, not_not]), without, without]
        rw [← heq] at hkeeps
        rw [Table.filter_set_of_pos keeps hkeeps]
      · rw [← heq] at hdrops
        rw [without, without, Table.filter_set_of_neg keeps hdrops]
  | event event =>
    rw [tell] at h
    split at h
    next => cases h
    next record hfound =>
      cases h
      have heq : key (record.applyEvent event) = id :=
        (record.applyEvent_keeps event).1.trans (Table.key_of_get? hfound)
      refine ⟨fun hkeeps => ?_, fun hdrops => ?_⟩
      · rw [tell, hget, if_pos hkeeps, hfound]
        rw [← heq] at hkeeps
        rw [without, without, Table.filter_set_of_pos keeps hkeeps]
      · rw [← heq] at hdrops
        rw [without, without, Table.filter_set_of_neg keeps hdrops]
  | finish f =>
    rw [tell] at h
    split at h
    next => cases h
    next record hfound =>
      cases h
      have heq : key record = id := Table.key_of_get? hfound
      refine ⟨fun hkeeps => ?_, fun hdrops => ?_⟩
      · rw [tell, hget, if_pos hkeeps, hfound]
        rw [← heq] at hkeeps
        simp only [without, conclude]
        rw [List.filter_cons, if_pos (show keeps (key (record.finished f)) = true from hkeeps)]
        exact congrArg (fun active => Except.ok (Memory.mk active _))
          (Table.filter_erase keeps (key record)).symm
      · rw [← heq] at hdrops
        simp only [without, conclude]
        rw [List.filter_cons,
          if_neg (show ¬ keeps (key (record.finished f)) = true from Bool.eq_false_iff.1 hdrops)]
        exact congrArg (fun active => Memory.mk active _) (Table.filter_erase_of_neg keeps hdrops)
  | other eventType => cases h

/-- A replay of the lines of some requests misses the others and no more. -/
theorem replayLines_filter (keeps : String → Bool) (h : replayLines c m lines = .ok m') :
    replayLines c (m.without keeps) (lines.filter fun line => keeps line.entityID) =
      .ok (m'.without keeps) := by
  induction lines generalizing m with
  | nil =>
    obtain rfl := Except.ok.inj h
    rfl
  | cons line lines ih =>
    rw [replayLines] at h
    split at h
    next => cases h
    next next htold =>
      obtain ⟨hkept, hdropped⟩ := tell_without keeps htold
      cases hkeeps : keeps line.entityID with
      | true =>
        rw [List.filter_cons, if_pos hkeeps, replayLines, hkept hkeeps]
        exact ih h
      | false =>
        rw [List.filter_cons, if_neg (Bool.eq_false_iff.1 hkeeps), ← hdropped hkeeps]
        exact ih h

/-- Everything in the memory has been read. -/
structure Read (c : Codec D E) (m : Memory D E) : Prop where
  active : ∀ record ∈ m.active.items, c.record record = record
  history : ∀ record ∈ m.history, c.record record = record

theorem Read.tell {payload : Payload D E} (h : Read c m)
    (htold : m.tell id (c.payload payload) = .ok m') : Read c m' := by
  cases payload with
  | start record =>
    rw [Codec.payload, Memory.tell] at htold
    split at htold
    next => cases htold
    next =>
      cases htold
      refine ⟨fun other hin => ?_, h.history⟩
      rcases Table.mem_set.1 hin with rfl | ⟨hin, -⟩
      · exact c.record_record record
      · exact h.active other hin
  | event event =>
    rw [Codec.payload, Memory.tell] at htold
    split at htold
    next => cases htold
    next record hfound =>
      cases htold
      refine ⟨fun other hin => ?_, h.history⟩
      rcases Table.mem_set.1 hin with rfl | ⟨hin, -⟩
      · rw [c.record_applyEvent, c.event_event, h.active record (Table.mem_of_get? hfound)]
      · exact h.active other hin
  | finish f =>
    rw [Codec.payload, Memory.tell] at htold
    split at htold
    next => cases htold
    next record hfound =>
      cases htold
      refine ⟨fun other hin => h.active other (Table.mem_erase.1 hin).1, fun other hin => ?_⟩
      rcases List.mem_cons.1 hin with rfl | hin
      · show (c.record record).finished f = record.finished f
        rw [h.active record (Table.mem_of_get? hfound)]
      · exact h.history other hin
  | other eventType => cases htold

theorem Read.replayLines (h : Read c m) (htold : replayLines c m lines = .ok m') : Read c m' := by
  induction lines generalizing m with
  | nil =>
    obtain rfl := Except.ok.inj htold
    exact h
  | cons line lines ih =>
    rw [Memory.replayLines] at htold
    split at htold
    next => cases htold
    next next hnext => exact ih (h.tell hnext) htold

theorem read_empty : Read c ({} : Memory D E) :=
  ⟨fun _ hin => (nomatch hin), fun _ hin => (nomatch hin)⟩

/-- A replay mirrors itself when it is pruned. -/
theorem Read.mirrors (h : Read c m) (hordered : Descending clock m.history) (hle : clock ≤ clock') :
    Mirrors c limits clock' (m.prune limits clock') m where
  active := List.forall₂_same.2 fun record hin => (h.active record hin).symm
  history now hnow := by
    rw [Memory.prune, pruned_pruned (hordered.mono hle) hnow]
    refine ((List.map_congr_left fun record hin => ?_).trans (List.map_id _)).symm
    exact h.history record (pruned_sublist.subset hin)
  ordered := (hordered.mono hle).sublist pruned_sublist
  replayed := hordered.mono hle

/-! ## What a line needs -/

/-- A line that can be told begins a request or is about one that is active. -/
theorem active_of_tell {payload : Payload D E} (h : m.tell id payload = .ok m') :
    (∃ record, payload = .start record) ∨ ∃ record ∈ m.active.items, record.id = id := by
  cases payload with
  | start record => exact .inl ⟨record, rfl⟩
  | event event =>
    rw [tell] at h
    split at h
    next => cases h
    next record hfound => exact .inr ⟨record, Table.mem_of_get? hfound, Table.key_of_get? hfound⟩
  | finish f =>
    rw [tell] at h
    split at h
    next => cases h
    next record hfound => exact .inr ⟨record, Table.mem_of_get? hfound, Table.key_of_get? hfound⟩
  | other eventType => cases h

/-- It makes no request active but its own. -/
theorem id_of_tell {payload : Payload D E} (h : m.tell id payload = .ok m') {record : Record D E}
    (hin : record ∈ m'.active.items) :
    record.id = id ∨ ∃ old ∈ m.active.items, old.id = record.id := by
  cases payload with
  | start other =>
    rw [tell] at h
    split at h
    next => cases h
    next hid =>
      cases h
      rw [not_or, not_not] at hid
      rcases Table.mem_set.1 hin with rfl | ⟨hin, -⟩
      · exact .inl hid.2
      · exact .inr ⟨record, hin, rfl⟩
  | event event =>
    rw [tell] at h
    split at h
    next => cases h
    next found hfound =>
      cases h
      rcases Table.mem_set.1 hin with rfl | ⟨hin, -⟩
      · exact .inl ((found.applyEvent_keeps event).1.trans (Table.key_of_get? hfound))
      · exact .inr ⟨record, hin, rfl⟩
  | finish f =>
    rw [tell] at h
    split at h
    next => cases h
    next found hfound =>
      cases h
      exact .inr ⟨record, (Table.mem_erase.1 hin).1, rfl⟩
  | other eventType => cases h

/-- Whether a line can be told is up to the active records. -/
theorem exists_tell {payload : Payload D E} (h : m.tell id payload = .ok m')
    (hactive : live.active = m.active) : ∃ live', live.tell id payload = .ok live' := by
  cases payload with
  | start record =>
    rw [tell] at h ⊢
    split at h
    next => cases h
    next hid => exact ⟨_, if_neg hid⟩
  | event event =>
    rw [tell] at h ⊢
    rw [hactive]
    split at h
    next => cases h
    next => exact ⟨_, rfl⟩
  | finish f =>
    rw [tell] at h ⊢
    rw [hactive]
    split at h
    next => cases h
    next => exact ⟨_, rfl⟩
  | other eventType => cases h

end Memory

/-! ## A run with what it has told -/

/-- The latest time a run has seen, the identifiers it has drawn, the lines of
the file when its process was started with those acknowledged since, and the
cutoffs of the compactions that were committed since. -/
structure Told (D E : Type) where
  clock : Int := 0
  used : List String := []
  log : List (Line (Payload D E)) := []
  cutoffs : List Int := []

namespace Told

/-- Every line of the request is older than some compaction has kept. -/
def Expired (g : Told D E) (id : String) : Prop :=
  ∃ cutoff ∈ g.cutoffs, ∀ line ∈ g.log, line.entityID = id → line.time < cutoff

/-- The log, with the lines a step has added to the entries. -/
def grown (g : Told D E) (p p' : Process D E) : List (Line (Payload D E)) :=
  g.log ++ p'.store.journal.entries.drop p.store.journal.entries.length

def next (g : Told D E) (p p' : Process D E) : Input D E → Told D E
  | .start clk id _ _ _ _ _ =>
      { g with clock := clk.stamp, used := id :: g.used, log := g.grown p p' }
  | .add clk _ _ _ => { g with clock := clk.stamp, log := g.grown p p' }
  | .finish _ later _ _ _ => { g with clock := later, log := g.grown p p' }
  | .history now => { g with clock := now }
  | .activeIDs now _ => { g with clock := now }
  | .compact _ =>
      match p.compacting with
      | none => g
      | some (cutoff, _) =>
          if p'.store.journal.entries.length = p.store.journal.entries.length then g
          else { g with cutoffs := g.cutoffs ++ [cutoff] }
  | .restart _ _ later _ _ =>
      { g with clock := later, log := p'.store.journal.entries, cutoffs := [] }

/-- The clock is monotone, identifiers are unique, and no cutoff is in the
future. -/
def Timely (g : Told D E) : Input D E → Prop
  | .start clk id _ _ _ _ _ => g.clock ≤ clk.stamp ∧ id ≠ "" ∧ id ∉ g.used
  | .add clk _ _ _ => g.clock ≤ clk.stamp
  | .finish clk later _ _ _ => g.clock ≤ clk.now ∧ clk.now ≤ clk.stamp ∧ clk.stamp ≤ later
  | .history now => g.clock ≤ now
  | .activeIDs now cutoff => g.clock ≤ now ∧ cutoff ≤ now
  | .compact _ => True
  | .restart opened now later _ answers =>
      g.clock ≤ opened ∧ opened ≤ now ∧ now ≤ later ∧
        ∀ id, now ≤ (answers id).1 ∧ (answers id).1 ≤ later

end Told

/-- A step of a process and of what is told of it. -/
def told (c : Codec D E) (limits : Limits) (t : Process D E × Told D E) (i : Input D E) :
    Process D E × Told D E :=
  (t.1.step c limits i, t.2.next t.1 (t.1.step c limits i) i)

/-- The memory with the change that a failed append has left in the file. -/
def Store.recovered (s : Store D E) : Except ReplayError (Memory D E) :=
  match s.journal.stray with
  | none => .ok s.toMemory
  | some line => s.tell line.entityID line.payload

/-- A line a failed append has left can be told as it is. -/
structure Tells (s : Store D E) (g : Told D E) (m : Memory D E) (line : Line (Payload D E)) :
    Prop where
  told : ∃ live, s.tell line.entityID line.payload = .ok live
  named : line.entityID ∈ g.used
  finish : ∀ f, line.payload = .finish f → f.completedAt ≤ g.clock ∧
    (∀ record ∈ s.history, record.completedAt ≤ f.completedAt) ∧
    ∀ record ∈ m.history, record.completedAt ≤ f.completedAt

/-- The store is what a replay of its log would make, and its journal lacks the
lines of requests that have expired. -/
structure Sound (c : Codec D E) (limits : Limits) (s : Store D E)
    (compacting : Option (Int × List String)) (g : Told D E) (m : Memory D E) : Prop where
  replays : Memory.replayLines c {} g.log = .ok m
  mirrors : Memory.Mirrors c limits g.clock s.toMemory m
  named : ∀ record ∈ s.active.items, record.id ∈ g.used
  logged : ∀ line ∈ g.log, line.entityID ∈ g.used
  kept : ∃ lost : String → Bool,
    s.journal.entries = g.log.filter (fun line => !lost line.entityID) ∧
    (∀ line, s.journal.stray = some line → lost line.entityID = false) ∧
    ∀ id, lost id = true →
      id ∈ g.used ∧ (∀ record ∈ s.active.items, record.id ≠ id) ∧ g.Expired id
  stray : ∀ line, s.journal.stray = some line → Tells s g m line
  /-- What has become active since a compaction took the identifiers is recent. -/
  compacting : ∀ cutoff ids, compacting = some (cutoff, ids) → cutoff ≤ g.clock ∧
    ∀ record ∈ s.active.items, record.id ∈ ids ∨
      ∃ line ∈ s.journal.entries, line.entityID = record.id ∧ cutoff ≤ line.time

namespace Sound

variable {c : Codec D E} {limits : Limits} {s : Store D E}
  {compacting : Option (Int × List String)} {g : Told D E} {m : Memory D E} {clock' : Int}
  {used' : List String}

theorem later (h : Sound c limits s compacting g m) (hle : g.clock ≤ clock')
    (hused : g.used ⊆ used') :
    Sound c limits s compacting { g with clock := clock', used := used' } m where
  replays := h.replays
  mirrors := h.mirrors.mono hle
  named record hin := hused (h.named record hin)
  logged line hin := hused (h.logged line hin)
  kept := by
    obtain ⟨lost, hentries, hstray, hlost⟩ := h.kept
    exact ⟨lost, hentries, hstray, fun id hid => ⟨hused (hlost id hid).1, (hlost id hid).2⟩⟩
  stray line hline :=
    let htells := h.stray line hline
    ⟨htells.told, hused htells.named, fun f hf =>
      ⟨Int.le_trans (htells.finish f hf).1 hle, (htells.finish f hf).2⟩⟩
  compacting cutoff ids hat :=
    ⟨Int.le_trans (h.compacting cutoff ids hat).1 hle, (h.compacting cutoff ids hat).2⟩

theorem listed (h : Sound c limits s compacting g m) {now : Int} (hle : g.clock ≤ now) :
    Sound c limits (s.listed limits now) compacting { g with clock := now } m where
  replays := h.replays
  mirrors := h.mirrors.prune hle
  named := h.named
  logged := h.logged
  kept := h.kept
  stray line hline := by
    obtain ⟨⟨live, htold⟩, hnamed, hfinish⟩ := h.stray line hline
    refine ⟨Memory.exists_tell htold rfl, hnamed, fun f hf => ?_⟩
    obtain ⟨hpast, hnewest, hnewest'⟩ := hfinish f hf
    exact ⟨Int.le_trans hpast hle,
      fun record hin => hnewest record (Memory.pruned_sublist.subset hin), hnewest'⟩
  compacting cutoff ids hat :=
    ⟨Int.le_trans (h.compacting cutoff ids hat).1 hle, (h.compacting cutoff ids hat).2⟩

/-- A line that a method is about to append. -/
structure Fits (s : Store D E) (g : Told D E) (clock' : Int) (used' : List String)
    (line : Line (Payload D E)) (live : Memory D E) : Prop where
  told : s.tell line.entityID line.payload = .ok live
  recent : g.clock ≤ line.time
  named : line.entityID ∈ used'
  fresh : ∀ record, line.payload = .start record → line.entityID ∉ g.used
  finish : ∀ f, line.payload = .finish f → g.clock ≤ f.completedAt ∧ f.completedAt ≤ clock'

variable {line : Line (Payload D E)} {live : Memory D E} {journal' : Tape (Payload D E)}

/-- It is about no request that was lost. -/
theorem Fits.not_lost (hfits : Fits s g clock' used' line live) {lost : String → Bool}
    (hlost : ∀ id, lost id = true →
      id ∈ g.used ∧ (∀ record ∈ s.active.items, record.id ≠ id) ∧ g.Expired id) :
    lost line.entityID = false := by
  rw [Bool.eq_false_iff]
  intro hgone
  obtain ⟨hused, hinactive, -⟩ := hlost _ hgone
  rcases Memory.active_of_tell hfits.told with ⟨record, hstart⟩ | ⟨record, hin, heq⟩
  · exact hfits.fresh record hstart hused
  · exact hinactive record hin heq

/-- An append that is acknowledged. -/
theorem acknowledged (h : Sound c limits s compacting g m) (hle : g.clock ≤ clock')
    (hused : g.used ⊆ used') (hfits : Fits s g clock' used' line live)
    (hentries : journal'.entries = s.journal.entries ++ [line]) (hstray : journal'.stray = none) :
    ∃ m', Sound c limits { live with journal := journal' } compacting
      { clock := clock', used := used', log := g.log ++ [line], cutoffs := g.cutoffs } m' := by
  obtain ⟨m', htold, hmirrors⟩ := h.mirrors.tell hle (fun f hf =>
    ⟨(hfits.finish f hf).2,
      fun record hin => Int.le_trans (h.mirrors.ordered.past record hin) (hfits.finish f hf).1,
      fun record hin => Int.le_trans (h.mirrors.replayed.past record hin) (hfits.finish f hf).1⟩)
    hfits.told
  refine ⟨m', (Memory.replayLines_append h.replays).trans htold, hmirrors, fun record hin => ?_,
    fun other hin => ?_, ?_, fun other hother => ?_, fun cutoff ids hat => ?_⟩
  · rcases Memory.id_of_tell hfits.told hin with heq | ⟨old, hold, heq⟩
    · rw [heq]
      exact hfits.named
    · rw [← heq]
      exact hused (h.named old hold)
  · rcases List.mem_append.1 hin with hin | hin
    · exact hused (h.logged other hin)
    · rw [List.mem_singleton.1 hin]
      exact hfits.named
  · obtain ⟨lost, hkept, -, hlost⟩ := h.kept
    have hnot := hfits.not_lost hlost
    refine ⟨lost, ?_, fun other hother => ?_, fun id hid => ?_⟩
    · rw [hentries, hkept, List.filter_append, List.filter_cons, hnot]
      rfl
    · rw [hstray] at hother
      cases hother
    · obtain ⟨hin, hinactive, cutoff, hcutoff, hold⟩ := hlost id hid
      refine ⟨hused hin, fun record hrecord heq => ?_, cutoff, hcutoff, fun other hother heq => ?_⟩
      · rcases Memory.id_of_tell hfits.told hrecord with hown | ⟨old, hactive, hsame⟩
        · rw [← hown, heq, hid] at hnot
          cases hnot
        · exact hinactive old hactive (hsame.trans heq)
      · rcases List.mem_append.1 hother with hother | hother
        · exact hold other hother heq
        · rw [List.mem_singleton.1 hother] at heq
          rw [heq, hid] at hnot
          cases hnot
  · rw [hstray] at hother
    cases hother
  · obtain ⟨hcutoff, hrecent⟩ := h.compacting cutoff ids hat
    refine ⟨Int.le_trans hcutoff hle, fun record hin => ?_⟩
    show record.id ∈ ids ∨ ∃ line ∈ journal'.entries, _
    rw [hentries]
    rcases Memory.id_of_tell hfits.told hin with heq | ⟨old, hold, heq⟩
    · exact .inr ⟨line, List.mem_append_right _ List.mem_cons_self, heq.symm,
        Int.le_trans hcutoff hfits.recent⟩
    · rw [← heq]
      refine (hrecent old hold).imp_right fun hline => ?_
      obtain ⟨other, hother, hname, htime⟩ := hline
      exact ⟨other, List.mem_append_left _ hother, hname, htime⟩

/-- An append that fails, and may leave its line. -/
theorem refused (h : Sound c limits s compacting g m) (hle : g.clock ≤ clock')
    (hused : g.used ⊆ used') (hfits : Fits s g clock' used' line live)
    (hentries : journal'.entries = s.journal.entries)
    (hstray : journal'.stray = s.journal.stray ∨ journal'.stray = some line) :
    Sound c limits { s with journal := journal' } compacting
      { g with clock := clock', used := used' } m := by
  have hlater := h.later hle hused
  refine ⟨hlater.replays, hlater.mirrors, hlater.named, hlater.logged, ?_, fun other hother => ?_,
    fun cutoff ids hat => ?_⟩
  · obtain ⟨lost, hkept, hstrayed, hlost⟩ := h.kept
    refine ⟨lost, hentries.trans hkept, fun other hother => ?_,
      fun id hid => ⟨hused (hlost id hid).1, (hlost id hid).2⟩⟩
    rcases hstray with hsame | hnew
    · exact hstrayed other (hsame ▸ hother)
    · obtain rfl := Option.some.inj (hnew.symm.trans hother)
      exact hfits.not_lost hlost
  · rcases hstray with hsame | hnew
    · have htells := hlater.stray other (hsame ▸ hother)
      exact ⟨htells.told, htells.named, htells.finish⟩
    · obtain rfl := Option.some.inj (hnew.symm.trans hother)
      refine ⟨⟨live, hfits.told⟩, hfits.named, fun f hf => ⟨(hfits.finish f hf).2,
        fun record hin => Int.le_trans (h.mirrors.ordered.past record hin) (hfits.finish f hf).1,
        fun record hin => Int.le_trans (h.mirrors.replayed.past record hin) (hfits.finish f hf).1⟩⟩
  · obtain ⟨hcutoff, hrecent⟩ := hlater.compacting cutoff ids hat
    refine ⟨hcutoff, fun record hin => ?_⟩
    show record.id ∈ ids ∨ ∃ line ∈ journal'.entries, _
    rw [hentries]
    exact hrecent record hin

/-- An append, whatever becomes of it. -/
theorem append (h : Sound c limits s compacting g m) (hle : g.clock ≤ clock')
    (hused : g.used ⊆ used') (hfits : Fits s g clock' used' line live) (fate : Fate) :
    ((s.journal.append line fate).2 = true ∧
        (s.journal.append line fate).1.entries = s.journal.entries ++ [line] ∧
        ∃ m', Sound c limits { live with journal := (s.journal.append line fate).1 } compacting
          { clock := clock', used := used', log := g.log ++ [line], cutoffs := g.cutoffs } m') ∨
      (s.journal.append line fate).2 = false ∧
        (s.journal.append line fate).1.entries = s.journal.entries ∧
        Sound c limits { s with journal := (s.journal.append line fate).1 } compacting
          { g with clock := clock', used := used' } m := by
  rcases s.journal.append_cases line fate with ⟨hhealthy, heq⟩ | ⟨hfails, hentries, -, hstray⟩
  · rw [heq]
    exact .inl ⟨rfl, rfl,
      h.acknowledged hle hused hfits rfl (Tape.stray_of_healthy hhealthy)⟩
  · exact .inr ⟨hfails, hentries,
      h.refused hle hused hfits hentries (hstray.imp_right fun hnew => hnew.2)⟩

/-- The identifiers of the active requests are taken for a compaction. -/
theorem activeIDs (h : Sound c limits s compacting g m) {now cutoff : Int} (hle : g.clock ≤ now)
    (hcutoff : cutoff ≤ now) :
    Sound c limits s (some (cutoff, s.activeIDs)) { g with clock := now } m := by
  have hlater := h.later hle (List.Subset.refl _)
  refine ⟨hlater.replays, hlater.mirrors, hlater.named, hlater.logged, hlater.kept, hlater.stray,
    fun cutoff' ids hat => ?_⟩
  obtain ⟨rfl, rfl⟩ := Prod.mk.inj (Option.some.inj hat)
  exact ⟨hcutoff, fun record hin => .inl (List.mem_map_of_mem hin)⟩

theorem idle (h : Sound c limits s compacting g m) : Sound c limits s none g m :=
  ⟨h.replays, h.mirrors, h.named, h.logged, h.kept, h.stray, fun _ _ hat => nomatch hat⟩

/-- A compaction that is committed: what it removes is of requests that are not
active, and is old. -/
theorem compacted {cutoff : Int} {ids : List String}
    (h : Sound c limits s (some (cutoff, ids)) g m)
    (hentries : journal'.entries = Log.compact s.journal.entries cutoff ids)
    (hstray : journal'.stray = none) :
    Sound c limits { s with journal := journal' } none
      { g with cutoffs := g.cutoffs ++ [cutoff] } m := by
  refine ⟨h.replays, h.mirrors, h.named, h.logged, ?_, fun other hother => ?_,
    fun _ _ hat => nomatch hat⟩
  · obtain ⟨lost, hkept, -, hlost⟩ := h.kept
    obtain ⟨-, hrecent⟩ := h.compacting cutoff ids rfl
    refine ⟨fun id => lost id || g.log.any (fun line => line.entityID = id) &&
      !Log.retains s.journal.entries cutoff ids id, ?_, fun other hother => ?_, fun id hid => ?_⟩
    · rw [hentries, Log.compact, hkept, List.filter_filter]
      refine List.filter_congr fun line hin => ?_
      have hlogged : g.log.any (fun other => other.entityID = line.entityID) = true :=
        List.any_eq_true.2 ⟨line, hin, decide_eq_true rfl⟩
      dsimp only
      rw [hlogged, Bool.true_and, Bool.not_or, Bool.not_not, Bool.and_comm]
    · rw [hstray] at hother
      cases hother
    · rw [Bool.or_eq_true, Bool.and_eq_true, List.any_eq_true, Bool.not_eq_true'] at hid
      cases hgone : lost id with
      | true =>
        obtain ⟨hin, hinactive, older, holder, hold⟩ := hlost id hgone
        exact ⟨hin, hinactive, older, List.mem_append_left _ holder, hold⟩
      | false =>
        rw [hgone] at hid
        obtain ⟨⟨line, hin, hname⟩, hdropped⟩ := hid.resolve_left Bool.false_ne_true
        obtain rfl := of_decide_eq_true hname
        rw [Log.retains, decide_eq_false_iff_not, not_or, List.any_eq_true] at hdropped
        obtain ⟨hunprotected, hold⟩ := hdropped
        have holder (other : Line (Payload D E)) (hother : other ∈ s.journal.entries)
            (hsame : other.entityID = line.entityID) : other.time < cutoff := by
          by_contra hnew
          exact hold ⟨other, hother, by simp [hnew, hsame]⟩
        refine ⟨h.logged line hin, fun record hactive heq => ?_, cutoff,
          List.mem_append_right _ List.mem_cons_self, fun other hother hsame => ?_⟩
        · rcases hrecent record hactive with hprotected | ⟨other, hother, hsame, hnew⟩
          · exact hunprotected (heq ▸ hprotected)
          · have htime := holder other hother (hsame.trans heq)
            omega
        · refine holder other ?_ hsame
          rw [hkept]
          exact List.mem_filter.2 ⟨hother, by rw [hsame, hgone]; rfl⟩
  · rw [hstray] at hother
    cases hother

/-! ## Restarts -/

/-- The lines of the file, with those that compactions have removed, replay to
what is to be recovered. -/
theorem recovers (h : Sound c limits s compacting g m) :
    ∃ live m', s.recovered = .ok live ∧
      Memory.replayLines c {} (g.log ++ s.journal.stray.toList) = .ok m' ∧
      Memory.Mirrors c limits g.clock live m' ∧
      ∀ record ∈ live.active.items, (∃ old ∈ s.active.items, old.id = record.id) ∨
        ∃ line, s.journal.stray = some line ∧ line.entityID = record.id := by
  rw [Store.recovered]
  cases hstray : s.journal.stray with
  | none =>
    refine ⟨_, m, rfl, ?_, h.mirrors, fun record hin => .inl ⟨record, hin, rfl⟩⟩
    rw [Option.toList_none, List.append_nil]
    exact h.replays
  | some line =>
    obtain ⟨⟨live, htold⟩, -, hfinish⟩ := h.stray line hstray
    obtain ⟨m', htold', hmirrors⟩ := h.mirrors.tell (Int.le_refl _) hfinish htold
    refine ⟨live, m', htold, (Memory.replayLines_append h.replays).trans htold', hmirrors,
      fun record hin => ?_⟩
    rcases Memory.id_of_tell htold hin with heq | hold
    · exact .inr ⟨line, rfl, heq.symm⟩
    · exact .inl hold

/-- What a replay of the file finds. -/
structure Replayed (c : Codec D E) (limits : Limits) (g : Told D E) (live m : Memory D E) :
    Prop where
  read : Memory.Read c m
  descending : Memory.Descending g.clock m.history
  active : m.active.items = live.active.items.map c.record
  named : ∀ record ∈ m.active.items, record.id ∈ g.used
  whole : g.cutoffs = [] → ∀ now, g.clock ≤ now →
    Memory.pruned limits now m.history = (Memory.pruned limits now live.history).map c.record
  expired : ∀ now, g.clock ≤ now → ∀ record ∈ Memory.pruned limits now live.history,
    c.record record ∈ Memory.pruned limits now m.history ∨ g.Expired record.id

theorem replayed (h : Sound c limits s compacting g m) :
    ∃ live m', s.recovered = .ok live ∧ Memory.replayLines c {} s.journal.file = .ok m' ∧
      (∀ line ∈ s.journal.file, line.entityID ∈ g.used) ∧ Replayed c limits g live m' := by
  obtain ⟨live, whole, hrecovered, hreplays, hmirrors, hactive⟩ := h.recovers
  obtain ⟨lost, hkept, hstrayed, hlost⟩ := h.kept
  let keeps := fun id => !lost id
  have hfile : s.journal.file =
      (g.log ++ s.journal.stray.toList).filter fun line => keeps line.entityID := by
    rw [Tape.file, hkept, List.filter_append]
    congr 1
    refine (List.filter_eq_self.2 fun line hin => ?_).symm
    rw [Option.mem_toList] at hin
    exact congrArg not (hstrayed line hin)
  have hempty : ({} : Memory D E).without keeps = {} := rfl
  have hreplay : Memory.replayLines c {} s.journal.file = .ok (whole.without keeps) := by
    have hfiltered := Memory.replayLines_filter keeps hreplays
    rwa [hempty, ← hfile] at hfiltered
  -- no request that is active was lost
  have hitems : whole.active.items = live.active.items.map c.record :=
    hmirrors.items
  have hkeeps : ∀ record ∈ whole.active.items, keeps (key record) = true := by
    intro record hin
    rw [hitems] at hin
    obtain ⟨origin, horigin, rfl⟩ := List.mem_map.1 hin
    show (!lost origin.id) = true
    rw [Bool.not_eq_true', Bool.eq_false_iff]
    intro hgone
    rcases hactive origin horigin with ⟨old, hold, heq⟩ | ⟨line, hline, heq⟩
    · exact (hlost _ hgone).2.1 old hold heq
    · have hnot := hstrayed line hline
      rw [heq, hgone] at hnot
      cases hnot
  have hsame : (whole.without keeps).active = whole.active := Table.filter_eq_self keeps hkeeps
  refine ⟨live, _, hrecovered, hreplay, fun line hin => ?_,
    Memory.read_empty.replayLines hreplay, hmirrors.replayed.sublist List.filter_sublist, ?_,
    fun record hin => ?_, fun hnone now hnow => ?_, fun now hnow record hin => ?_⟩
  · rw [Tape.file, List.mem_append, Option.mem_toList, hkept] at hin
    rcases hin with hin | hin
    · exact h.logged line (List.mem_filter.1 hin).1
    · exact (h.stray line hin).named
  · rw [hsame, hitems]
  · rw [hsame, hitems] at hin
    obtain ⟨origin, horigin, rfl⟩ := List.mem_map.1 hin
    rcases hactive origin horigin with ⟨old, hold, heq⟩ | ⟨line, hline, heq⟩
    · exact heq ▸ h.named old hold
    · exact heq ▸ (h.stray line hline).named
  · have hall : (whole.without keeps).history = whole.history := by
      refine List.filter_eq_self.2 fun record _ => ?_
      show (!lost record.id) = true
      rw [Bool.not_eq_true', Bool.eq_false_iff]
      intro hgone
      obtain ⟨-, -, cutoff, hcutoff, -⟩ := hlost _ hgone
      rw [hnone] at hcutoff
      cases hcutoff
    rw [hall]
    exact hmirrors.history now hnow
  · cases hgone : lost record.id with
    | true => exact .inr (hlost _ hgone).2.2
    | false =>
      refine .inl (Memory.mem_pruned_filter ?_ (show (!lost record.id) = true by rw [hgone]; rfl))
      rw [hmirrors.history now hnow]
      exact List.mem_map_of_mem hin

/-- The state of the loop of `orphanInterrupted`: what is sound of the store,
and what has become of the records it has gone through. -/
structure Orphaning (c : Codec D E) (limits : Limits) (g : Told D E) (now : Int)
    (s : Store D E) (done : List (Record D E)) (state : Store D E × Bool) : Prop where
  sound : ∃ m, Sound c limits state.1 none
    { clock := now, used := g.used, log := state.1.journal.entries, cutoffs := [] } m
  read : Memory.Read c state.1.toMemory
  stray : state.2 = true → state.1.journal.stray = none
  active : state.2 = true → ∀ record, record ∈ state.1.active.items ↔
    record ∈ s.active.items ∧ ∀ other ∈ done, other.id ≠ record.id
  history : state.2 = true → state.1.history =
    (done.map fun record => record.finished ⟨"orphaned", now⟩).reverse ++ s.history

theorem Orphaning.turn {now : Int} {done : List (Record D E)} {state : Store D E × Bool}
    (h : Orphaning c limits g now s done state) {record : Record D E} {answer : Int × Fate}
    (hin : record ∈ s.active.items) (hnew : ∀ other ∈ done, other.id ≠ record.id)
    (hanswer : now ≤ answer.1) :
    Orphaning c limits g now s (done ++ [record]) (Store.orphan now state record answer) := by
  rw [Store.orphan]
  split
  next hstopped =>
    rw [Bool.not_eq_true'] at hstopped
    have hends (hgoes : state.2 = true) : False :=
      Bool.false_ne_true (hstopped.symm.trans hgoes)
    exact ⟨h.sound, h.read, h.stray, fun hgoes => (hends hgoes).elim,
      fun hgoes => (hends hgoes).elim⟩
  next hgoes =>
    rw [Bool.not_eq_true', Bool.not_eq_false] at hgoes
    obtain ⟨m, hsound⟩ := h.sound
    have hactive : record ∈ state.1.active.items := (h.active hgoes record).2 ⟨hin, hnew⟩
    have hget : state.1.active.get? record.id = some record := Table.get?_of_mem hactive
    have htold : state.1.tell record.id (.finish ⟨"orphaned", now⟩) =
        .ok (state.1.conclude record ⟨"orphaned", now⟩) := by
      rw [Memory.tell, hget]
    have hfits : Fits state.1
        { clock := now, used := g.used, log := state.1.journal.entries, cutoffs := [] } now g.used
        ⟨answer.1, record.id, .finish ⟨"orphaned", now⟩⟩
        (state.1.conclude record ⟨"orphaned", now⟩) :=
      ⟨htold, hanswer, hsound.named record hactive, fun _ hstart => (nomatch hstart),
        fun f hf => Payload.finish.inj hf ▸ ⟨Int.le_refl _, Int.le_refl _⟩⟩
    dsimp only
    rcases hsound.append (Int.le_refl _) (List.Subset.refl _) hfits answer.2 with
      ⟨hacked, hentries, m', hsound'⟩ | ⟨hfails, hentries, hsound'⟩
    · rw [if_pos hacked]
      have hread : Memory.Read c (state.1.conclude record ⟨"orphaned", now⟩) := by
        have htold' : state.1.tell record.id (c.payload (.finish ⟨"orphaned", now⟩)) = _ := htold
        exact h.read.tell htold'
      refine ⟨⟨m', ?_⟩, hread, fun _ => ?_,
        fun _ other => ?_, fun _ => ?_⟩
      · rwa [← hentries] at hsound'
      · rcases state.1.journal.append_cases ⟨answer.1, record.id, .finish ⟨"orphaned", now⟩⟩
          answer.2 with ⟨-, heq⟩ | ⟨hfails, -⟩
        · show (Tape.append _ _ _).1.stray = none
          rw [heq]
          exact h.stray hgoes
        · rw [hacked] at hfails
          cases hfails
      · show other ∈ (state.1.active.erase record.id).items ↔ _
        rw [Table.mem_erase, h.active hgoes other]
        constructor
        · rintro ⟨⟨hother, hdone⟩, hne⟩
          refine ⟨hother, fun done hdoneIn => ?_⟩
          rcases List.mem_append.1 hdoneIn with hdoneIn | hdoneIn
          · exact hdone done hdoneIn
          · rw [List.mem_singleton.1 hdoneIn]
            exact fun heq => hne heq.symm
        · rintro ⟨hother, hdone⟩
          exact ⟨⟨hother, fun done hdoneIn => hdone done (List.mem_append_left _ hdoneIn)⟩,
            fun heq => hdone record (List.mem_append_right _ List.mem_cons_self) heq.symm⟩
      · rw [List.map_append, List.reverse_append]
        show record.finished ⟨"orphaned", now⟩ :: state.1.history = _
        rw [h.history hgoes]
        rfl
    · rw [if_neg (by rw [hfails]; exact Bool.false_ne_true)]
      refine ⟨⟨m, ?_⟩, h.read, fun hok => (nomatch hok), fun hok => (nomatch hok),
        fun hok => (nomatch hok)⟩
      rwa [← hentries] at hsound'

theorem Orphaning.run {now : Int} {state : Store D E × Bool} {answers : String → Int × Fate}
    (hanswers : ∀ id, now ≤ (answers id).1) {done todo : List (Record D E)}
    (h : Orphaning c limits g now s done state) (hnodup : ((done ++ todo).map Record.id).Nodup)
    (hin : ∀ record ∈ todo, record ∈ s.active.items) :
    Orphaning c limits g now s (done ++ todo)
      (todo.foldl (fun state record => Store.orphan now state record (answers record.id))
        state) := by
  induction todo generalizing done state with
  | nil =>
    rw [List.append_nil]
    exact h
  | cons record todo ih =>
    have hnew : ∀ other ∈ done, other.id ≠ record.id := by
      intro other hother heq
      rw [List.map_append, List.map_cons, List.nodup_append] at hnodup
      exact hnodup.2.2 _ (List.mem_map_of_mem hother) _ List.mem_cons_self heq
    have hturn := h.turn (hin record List.mem_cons_self) hnew (hanswers record.id)
    rw [List.append_cons]
    rw [List.append_cons] at hnodup
    exact ih hturn hnodup fun other hother => hin other (List.mem_cons_of_mem _ hother)

/-- What a restart makes of a replay of the file. -/
structure Restarted (c : Codec D E) (limits : Limits) (opened now later : Int) (m : Memory D E)
    (started : Process D E) : Prop where
  idle : started.compacting = none
  read : Memory.Read c started.store.toMemory
  stray : started.up = true → started.store.journal.stray = none
  active : started.up = true → started.store.active = ∅
  history : started.up = true → ∃ orphans : List (Record D E),
    orphans.Perm (m.active.items.map fun record => record.finished ⟨"orphaned", now⟩) ∧
      started.store.history =
        Memory.pruned limits later (orphans ++ Memory.pruned limits opened m.history)

theorem restart_of_replay {p : Process D E} (limits : Limits) (opened now later : Int)
    (rank : String → Nat) (answers : String → Int × Fate) {read : Memory D E}
    (hreplay : Memory.replayLines c {} p.store.journal.file = .ok read) :
    p.restart c limits opened now later rank answers =
      let s : Store D E := { read.prune limits opened with journal := p.store.journal.reopen }
      { store := (s.orphanInterrupted limits now later rank answers).1
        up := (s.orphanInterrupted limits now later rank answers).2 } := by
  have hopen : Memory.replayLines c {} p.store.journal.reopen.entries = .ok read := hreplay
  rw [Process.restart, Store.newPersistent, Memory.replay, hopen]
  rfl

theorem restarted {p : Process D E} (h : Sound c limits p.store compacting g m)
    {opened now later : Int} {rank : String → Nat} {answers : String → Int × Fate}
    (hopened : g.clock ≤ opened) (hnow : opened ≤ now) (hlater : now ≤ later)
    (hanswers : ∀ id, now ≤ (answers id).1) {read : Memory D E}
    (hreplay : Memory.replayLines c {} p.store.journal.file = .ok read) :
    (∃ m', Sound c limits (p.restart c limits opened now later rank answers).store none
      { clock := later, used := g.used, cutoffs := []
        log := (p.restart c limits opened now later rank answers).store.journal.entries } m') ∧
      Restarted c limits opened now later read
        (p.restart c limits opened now later rank answers) := by
  obtain ⟨live, read', -, hreplay', hnamed, hreplayed⟩ := h.replayed
  obtain rfl := Except.ok.inj (hreplay.symm.trans hreplay')
  generalize hopen : ({ read.prune limits opened with journal := p.store.journal.reopen } :
    Store D E) = s₀
  have hactive₀ : s₀.active = read.active := by rw [← hopen]; rfl
  have hhistory₀ : s₀.history = Memory.pruned limits opened read.history := by rw [← hopen]; rfl
  generalize hranged : Store.ranged s₀.active rank = todo
  have hperm : todo.Perm read.active.items := by
    rw [← hranged, hactive₀]
    exact List.mergeSort_perm _ _
  have hheld : ∀ record ∈ todo, record ∈ s₀.active.items := by
    intro record hin
    rw [hactive₀]
    exact hperm.mem_iff.1 hin
  have hstart : Orphaning c limits g now s₀ [] (s₀, true) := by
    refine ⟨⟨read, ?_⟩, ?_, fun _ => ?_, fun _ record => by simp, fun _ => rfl⟩
    · have hsound : Sound c limits s₀ none
          { clock := opened, used := g.used, log := p.store.journal.file, cutoffs := [] } read := by
        rw [← hopen]
        refine ⟨hreplay, hreplayed.read.mirrors hreplayed.descending hopened, hreplayed.named,
          hnamed, ⟨fun _ => false, ?_, fun _ _ => rfl, fun _ hgone => nomatch hgone⟩,
          fun _ hline => (nomatch hline), fun _ _ hat => (nomatch hat)⟩
        exact (List.filter_eq_self.2 fun _ _ => rfl).symm
      have hentries : s₀.journal.entries = p.store.journal.file := by
        rw [← hopen]
        rfl
      rw [hentries]
      exact hsound.later hnow (List.Subset.refl _)
    · rw [← hopen]
      exact ⟨hreplayed.read.active, fun record hin =>
        hreplayed.read.history record (Memory.pruned_sublist.subset hin)⟩
    · rw [← hopen]
      rfl
  have hnodup : (([] ++ todo).map Record.id).Nodup := by
    rw [List.nil_append]
    exact (hperm.map Record.id).nodup_iff.2 read.active.nodup
  have hrun := hstart.run hanswers hnodup hheld
  rw [List.nil_append] at hrun
  rw [restart_of_replay limits opened now later rank answers hreplay]
  dsimp only
  rw [hopen, Store.orphanInterrupted, hranged]
  generalize todo.foldl (fun state record => Store.orphan now state record (answers record.id))
    (s₀, true) = state at hrun
  obtain ⟨⟨m', hsound⟩, hread, hstray, hactive, hhistory⟩ := hrun
  split
  next hok =>
    refine ⟨⟨m', hsound.listed hlater⟩, rfl, ⟨hread.active, fun record hin =>
      hread.history record (Memory.pruned_sublist.subset hin)⟩, fun _ => hstray hok, fun _ => ?_,
      fun _ => ⟨_, (List.reverse_perm _).trans (hperm.map _), ?_⟩⟩
    · refine Table.ext (List.eq_nil_iff_forall_not_mem.2 fun record hin => ?_)
      obtain ⟨hold, hother⟩ := (hactive hok record).1 hin
      rw [hactive₀] at hold
      exact hother record (hperm.mem_iff.2 hold) rfl
    · show Memory.pruned limits later state.1.history = _
      rw [hhistory hok, hhistory₀]
  next hfails =>
    exact ⟨⟨m', hsound.later hlater (List.Subset.refl _)⟩, rfl, hread,
      fun hok => absurd hok hfails, fun hok => absurd hok hfails, fun hok => absurd hok hfails⟩

/-- Where nothing is active and everything has been read, a restart changes
nothing but what is too old by then. -/
theorem again {p : Process D E} (h : Sound c limits p.store compacting g m)
    (hwhole : g.cutoffs = []) (hread : Memory.Read c p.store.toMemory)
    (hstray : p.store.journal.stray = none) (hactive : p.store.active = ∅) {opened later : Int}
    (hopened : g.clock ≤ opened) (now : Int) (hlater : opened ≤ later) (rank : String → Nat)
    (answers : String → Int × Fate) :
    let again := p.restart c limits opened now later rank answers
    again.up = true ∧ again.store.active = ∅ ∧
      again.store.journal.entries = p.store.journal.entries ∧
      again.store.history = Memory.pruned limits later p.store.history := by
  obtain ⟨live, read, hrecovered, hreplay, -, hreplayed⟩ := h.replayed
  rw [Store.recovered, hstray] at hrecovered
  obtain rfl := Except.ok.inj hrecovered
  have hnone : read.active = ∅ := Table.ext (by rw [hreplayed.active, hactive]; rfl)
  have hranged : Store.ranged
      (⟨read.prune limits opened, p.store.journal.reopen⟩ : Store D E).active rank = [] := by
    show (read.active.items.mergeSort _) = []
    rw [hnone]
    exact List.mergeSort_nil
  rw [restart_of_replay limits opened now later rank answers hreplay]
  dsimp only
  rw [Store.orphanInterrupted, hranged, List.foldl_nil, if_pos rfl]
  refine ⟨rfl, hnone, ?_, ?_⟩
  · show p.store.journal.entries ++ p.store.journal.stray.toList = _
    rw [hstray, Option.toList_none, List.append_nil]
  · show Memory.pruned limits later (Memory.pruned limits opened read.history) = _
    rw [Memory.pruned_pruned hreplayed.descending hlater,
      hreplayed.whole hwhole later (hopened.trans hlater)]
    refine (List.map_congr_left fun record hin => ?_).trans (List.map_id _)
    exact hread.history record (Memory.pruned_sublist.subset hin)

/-! ## Steps -/

theorem grown_of_append {p p' : Process D E} {lines : List (Line (Payload D E))}
    (h : p'.store.journal.entries = p.store.journal.entries ++ lines) :
    g.grown p p' = g.log ++ lines := by
  rw [Told.grown, h, List.drop_left]

theorem grown_of_eq {p p' : Process D E}
    (h : p'.store.journal.entries = p.store.journal.entries) : g.grown p p' = g.log := by
  rw [Told.grown, h, List.drop_length, List.append_nil]

/-- A process that is not up does nothing but see the time pass. -/
theorem down {p : Process D E} (h : Sound c limits p.store p.compacting g m) (i : Input D E)
    (htimely : g.Timely i) (hserves : ∀ opened now later rank answers,
      i ≠ .restart opened now later rank answers) :
    Sound c limits p.store p.compacting (g.next p p i) m := by
  have hgrown : g.grown p p = g.log := grown_of_eq rfl
  cases i with
  | start clk id method path clientID taskID fate =>
    rw [Told.next, hgrown]
    exact h.later htimely.1 (List.subset_cons_self _ _)
  | add clk id event fate =>
    rw [Told.next, hgrown]
    exact h.later htimely (List.Subset.refl _)
  | finish clk later id outcome fate =>
    rw [Told.next, hgrown]
    exact h.later (htimely.1.trans (htimely.2.1.trans htimely.2.2)) (List.Subset.refl _)
  | history now => exact h.later htimely (List.Subset.refl _)
  | activeIDs now cutoff => exact h.later htimely.1 (List.Subset.refl _)
  | compact fate =>
    rw [Told.next]
    split
    next => exact h
    next => rwa [if_pos rfl]
  | restart opened now later rank answers => exact absurd rfl (hserves _ _ _ _ _)

theorem start {p : Process D E} (h : Sound c limits p.store p.compacting g m) {clk : Clock}
    {id : String} (method path clientID taskID : String) (fate : Fate)
    (hstamp : g.clock ≤ clk.stamp) (hid : id ≠ "") (hfresh : id ∉ g.used) :
    let p' := p.serve limits (.start clk id method path clientID taskID fate)
    ∃ m', Sound c limits p'.store p'.compacting
      (g.next p p' (.start clk id method path clientID taskID fate)) m' := by
  generalize hrecord : (Record.started id method path clientID taskID clk.now : Record D E) = record
  have hname : record.id = id := by rw [← hrecord]; rfl
  have hfits : Fits p.store g clk.stamp (id :: g.used) ⟨clk.stamp, id, .start record⟩
      { p.store.toMemory with active := p.store.active.set record } :=
    ⟨if_neg (by rw [hname, not_or]; exact ⟨hid, fun hne => hne rfl⟩), hstamp, List.mem_cons_self,
      fun _ _ => hfresh, fun _ hfinish => nomatch hfinish⟩
  dsimp only [Process.serve, Told.next, Store.start]
  rw [hrecord]
  rcases h.append hstamp (List.subset_cons_self _ _) hfits fate with
    ⟨hacked, hentries, m', hsound⟩ | ⟨hfails, hentries, hsound⟩
  · rw [if_pos hacked]
    refine ⟨m', ?_⟩
    rw [grown_of_append hentries]
    exact hsound
  · rw [if_neg (by rw [hfails]; exact Bool.false_ne_true)]
    refine ⟨m, ?_⟩
    rw [grown_of_eq hentries]
    exact hsound

theorem add {p : Process D E} (h : Sound c limits p.store p.compacting g m) {clk : Clock}
    (id : String) (event : Event D E) (fate : Fate) (hstamp : g.clock ≤ clk.stamp) :
    let p' := p.serve limits (.add clk id event fate)
    ∃ m', Sound c limits p'.store p'.compacting (g.next p p' (.add clk id event fate)) m' := by
  dsimp only [Process.serve, Told.next, Store.add]
  split
  next =>
    refine ⟨m, ?_⟩
    rw [grown_of_eq rfl]
    exact h.later hstamp (List.Subset.refl _)
  next record hget =>
    generalize (if event.time = 0 then { event with time := clk.now } else event) = event
    have hid : record.id = id := Table.key_of_get? hget
    have hfits : Fits p.store g clk.stamp g.used ⟨clk.stamp, id, .event event⟩
        { p.store.toMemory with active := p.store.active.set (record.applyEvent event) } := by
      refine ⟨?_, hstamp, hid ▸ h.named record (Table.mem_of_get? hget),
        fun _ hstart => (nomatch hstart), fun _ hfinish => (nomatch hfinish)⟩
      rw [Memory.tell, hget]
    rcases h.append hstamp (List.Subset.refl _) hfits fate with
      ⟨hacked, hentries, m', hsound⟩ | ⟨hfails, hentries, hsound⟩
    · rw [if_pos hacked]
      refine ⟨m', ?_⟩
      rw [grown_of_append hentries]
      exact hsound
    · rw [if_neg (by rw [hfails]; exact Bool.false_ne_true)]
      refine ⟨m, ?_⟩
      rw [grown_of_eq hentries]
      exact hsound

theorem finish {p : Process D E} (h : Sound c limits p.store p.compacting g m) {clk : Clock}
    {later : Int} (id outcome : String) (fate : Fate) (hnow : g.clock ≤ clk.now)
    (hstamp : clk.now ≤ clk.stamp) (hlater : clk.stamp ≤ later) :
    let p' := p.serve limits (.finish clk later id outcome fate)
    ∃ m', Sound c limits p'.store p'.compacting
      (g.next p p' (.finish clk later id outcome fate)) m' := by
  dsimp only [Process.serve, Told.next, Store.finish]
  have hle : g.clock ≤ later := hnow.trans (hstamp.trans hlater)
  split
  next =>
    refine ⟨m, ?_⟩
    rw [grown_of_eq rfl]
    exact h.later hle (List.Subset.refl _)
  next record hget =>
    have hid : record.id = id := Table.key_of_get? hget
    have hfits : Fits p.store g later g.used ⟨clk.stamp, id, .finish ⟨outcome, clk.now⟩⟩
        (p.store.conclude record ⟨outcome, clk.now⟩) := by
      refine ⟨?_, hnow.trans hstamp, hid ▸ h.named record (Table.mem_of_get? hget),
        fun _ hstart => (nomatch hstart), fun f hf => ?_⟩
      · rw [Memory.tell, hget]
      · rw [← Payload.finish.inj hf]
        exact ⟨hnow, hstamp.trans hlater⟩
    rcases h.append hle (List.Subset.refl _) hfits fate with
      ⟨hacked, hentries, m', hsound⟩ | ⟨hfails, hentries, hsound⟩
    · rw [if_pos hacked]
      refine ⟨m', ?_⟩
      rw [grown_of_append hentries]
      exact hsound.listed (Int.le_refl _)
    · rw [if_neg (by rw [hfails]; exact Bool.false_ne_true)]
      refine ⟨m, ?_⟩
      rw [grown_of_eq hentries]
      exact hsound

theorem compact {p : Process D E} (h : Sound c limits p.store p.compacting g m) (fate : Fate) :
    let p' := p.serve limits (.compact fate)
    Sound c limits p'.store p'.compacting (g.next p p' (.compact fate)) m := by
  dsimp only [Process.serve, Told.next]
  cases hat : p.compacting with
  | none =>
    rw [hat] at h
    dsimp only
    rwa [hat]
  | some plan =>
    obtain ⟨cutoff, ids⟩ := plan
    rw [hat] at h
    show Sound c limits { p.store with journal := p.store.journal.compact cutoff ids fate } none
      (if (p.store.journal.compact cutoff ids fate).entries.length = p.store.journal.entries.length
        then g else { g with cutoffs := g.cutoffs ++ [cutoff] }) m
    rcases p.store.journal.compact_cases cutoff ids fate with hsame | ⟨hentries, hlength, hstray⟩
    · rw [hsame, if_pos rfl]
      exact h.idle
    · rw [if_neg (by rwa [hentries])]
      exact h.compacted hentries hstray

end Sound

/-- Every step keeps the store sound. -/
theorem sound_told {c : Codec D E} {limits : Limits} {t : Process D E × Told D E} {m : Memory D E}
    (h : Sound c limits t.1.store t.1.compacting t.2 m) (i : Input D E) (htimely : t.2.Timely i) :
    ∃ m', Sound c limits (told c limits t i).1.store (told c limits t i).1.compacting
      (told c limits t i).2 m' := by
  obtain ⟨p, g⟩ := t
  by_cases hrestarts : ∃ opened now later rank answers, i = .restart opened now later rank answers
  · obtain ⟨opened, now, later, rank, answers, rfl⟩ := hrestarts
    obtain ⟨hopened, hnow, hlater, hanswers⟩ := htimely
    obtain ⟨-, read, -, hreplay, -⟩ := h.replayed
    obtain ⟨⟨m', hsound⟩, hrestarted⟩ := @Sound.restarted _ _ _ _ _ _ _ _ h _ _ _ rank answers
      hopened hnow hlater (fun id => (hanswers id).1) _ hreplay
    refine ⟨m', ?_⟩
    show Sound c limits _ (p.restart c limits opened now later rank answers).compacting _ m'
    rw [hrestarted.idle]
    exact hsound
  simp only [not_exists] at hrestarts
  have hstep : p.step c limits i = if p.up then p.serve limits i else p := by
    cases i with
    | restart opened now later rank answers => exact absurd rfl (hrestarts _ _ _ _ _)
    | _ => rfl
  rw [told, hstep]
  split
  next =>
    cases i with
    | start clk id method path clientID taskID fate =>
      exact h.start method path clientID taskID fate htimely.1 htimely.2.1 htimely.2.2
    | add clk id event fate => exact h.add id event fate htimely
    | finish clk later id outcome fate =>
      exact h.finish id outcome fate htimely.1 htimely.2.1 htimely.2.2
    | history now => exact ⟨m, h.listed htimely⟩
    | activeIDs now cutoff => exact ⟨m, h.activeIDs htimely.1 htimely.2⟩
    | compact fate => exact ⟨m, h.compact fate⟩
    | restart opened now later rank answers => exact absurd rfl (hrestarts _ _ _ _ _)
  next => exact ⟨m, h.down i htimely hrestarts⟩

theorem sound_start {c : Codec D E} {limits : Limits} :
    Sound c limits ({} : Store D E) none {} {} where
  replays := rfl
  mirrors := ⟨.nil, fun _ _ => by simp [Memory.pruned], ⟨.nil, fun _ hin => (nomatch hin)⟩,
    ⟨.nil, fun _ hin => (nomatch hin)⟩⟩
  named _ hin := nomatch hin
  logged _ hin := nomatch hin
  kept := ⟨fun _ => false, rfl, fun _ _ => rfl, fun _ hgone => nomatch hgone⟩
  stray _ hline := nomatch hline
  compacting _ _ hat := nomatch hat

/-- A run with what is told of it. -/
def runTold (c : Codec D E) (limits : Limits) (inputs : List (Input D E)) :
    Process D E × Told D E :=
  inputs.foldl (told c limits) ({}, {})

theorem runTold_fst (c : Codec D E) (limits : Limits) (inputs : List (Input D E)) :
    (runTold c limits inputs).1 = Process.run c limits {} inputs := by
  have hfold (t : Process D E × Told D E) :
      (inputs.foldl (told c limits) t).1 = inputs.foldl (Process.step c limits) t.1 := by
    induction inputs generalizing t with
    | nil => rfl
    | cons i inputs ih => exact ih _
  exact hfold _

/-- **A restart rebuilds the timeline.** After any run it finds the active
records of the store, as they read back, and its history, as the store would
prune it then, with the change of an append that failed after its line was
written. Where compactions have been committed it misses no record but one all
of whose lines are older than a cutoff. Then every active record is orphaned
once, and a further restart changes nothing but that it prunes the history
again. -/
theorem restart_rebuilds (c : Codec D E) (limits : Limits) {inputs : List (Input D E)}
    (htimely : Along (told c limits) (fun t i => t.2.Timely i) ({}, {}) inputs) {opened : Int}
    (hopened : (runTold c limits inputs).2.clock ≤ opened) :
    let p := Process.run c limits {} inputs
    let g := (runTold c limits inputs).2
    ∃ live m, p.store.recovered = .ok live ∧
      Memory.replay c limits opened p.store.journal.reopen.entries = .ok m ∧
      m.active.items = live.active.items.map c.record ∧
      (g.cutoffs = [] → m.history = (live.prune limits opened).history.map c.record) ∧
      (∀ record ∈ (live.prune limits opened).history,
        c.record record ∈ m.history ∨ g.Expired record.id) ∧
      ∀ now later rank answers, opened ≤ now → now ≤ later → (∀ id, now ≤ (answers id).1) →
        let started := p.restart c limits opened now later rank answers
        started.up = true →
          started.store.active = ∅ ∧
          (∃ orphans : List (Record D E),
            orphans.Perm (m.active.items.map fun record => record.finished ⟨"orphaned", now⟩) ∧
              started.store.history = Memory.pruned limits later (orphans ++ m.history)) ∧
          ∀ opened' now' later' rank' answers', later ≤ opened' → opened' ≤ now' → now' ≤ later' →
            let again := started.restart c limits opened' now' later' rank' answers'
            again.up = true ∧ again.store.active = ∅ ∧
              again.store.journal.entries = started.store.journal.entries ∧
              again.store.history = Memory.pruned limits later' started.store.history := by
  intro p g
  obtain ⟨m₀, hsound⟩ : ∃ m, Sound c limits p.store p.compacting g m := by
    have hrun := Along.invariant
      (P := fun t => ∃ m, Sound c limits t.1.store t.1.compacting t.2 m)
      (fun t i ⟨_, h⟩ htimely => sound_told h i htimely) ⟨{}, sound_start⟩ htimely
    rwa [← runTold, runTold_fst] at hrun
  obtain ⟨live, read, hrecovered, hreplay, -, hreplayed⟩ := hsound.replayed
  refine ⟨live, read.prune limits opened, hrecovered, ?_, hreplayed.active,
    fun hwhole => hreplayed.whole hwhole opened hopened, hreplayed.expired opened hopened,
    fun now later rank answers hnow hlater hanswers => ?_⟩
  · rw [Memory.replay, show Memory.replayLines c {} p.store.journal.reopen.entries = .ok read from
      hreplay]
    rfl
  intro started hup
  obtain ⟨⟨m', hstarted⟩, hrestarted⟩ :=
    hsound.restarted hopened hnow hlater hanswers hreplay
  exact ⟨hrestarted.active hup, hrestarted.history hup,
    fun opened' now' later' rank' answers' hopened' hnow' hlater' =>
      hstarted.again rfl hrestarted.read (hrestarted.stray hup) (hrestarted.active hup) hopened'
        now' (hnow'.trans hlater') rank' answers'⟩

/-- Details that are text. -/
def text : Codec String String := ⟨some, id, fun _ => rfl, fun _ => rfl⟩

/-- A history of two records for one minute. -/
def minuteOfTwo : Limits := ⟨2, minute⟩

/-- A request that is quiet and one that is over, and a compaction later. -/
def quiet : List (Input String String) :=
  [.start ⟨minute, minute, Int.le_refl minute⟩ "quiet" "POST" "/v1/chat" "" "" .written,
    .start ⟨minute, minute, Int.le_refl minute⟩ "over" "POST" "/v1/chat" "" "" .written,
    .finish ⟨minute, minute, Int.le_refl minute⟩ minute "over" "successful" .written,
    .activeIDs (3 * minute) (2 * minute), .compact .written]

/-- The quiet request is found, and orphaned once. -/
theorem restart_rebuilds_quiet :
    let p := Process.run text minuteOfTwo {} quiet
    ∃ m, Memory.replay text minuteOfTwo (3 * minute) p.store.journal.reopen.entries = .ok m ∧
      m.active.items.map Record.id = ["quiet"] := by
  have htimely : Along (told text minuteOfTwo) (fun t i => t.2.Timely i) ({}, {}) quiet :=
    ⟨⟨by decide, by decide, by decide⟩, ⟨by decide, by decide, by decide⟩,
      ⟨by decide, by decide, by decide⟩, ⟨by decide, by decide⟩, trivial, trivial⟩
  obtain ⟨live, m, hrecovered, hreplay, hactive, -⟩ := @restart_rebuilds _ _ text minuteOfTwo quiet
    htimely (3 * minute) (by decide +kernel)
  refine ⟨m, hreplay, ?_⟩
  obtain rfl := Except.ok.inj hrecovered
  rw [hactive]
  decide +kernel

/-- A start that is refused with its line in the file. -/
def refused : List (Input String String) :=
  [.start ⟨minute, minute, Int.le_refl minute⟩ "refused" "POST" "/v1/chat" "" "" .unacknowledged]

/-- What was refused is found active, and a record that is too old by the time
of the restart is not found. -/
theorem not_rebuilt_as_it_was :
    ((Process.run text minuteOfTwo {} refused).store.active.items.length = 0 ∧
      (Memory.replay text minuteOfTwo minute
        (Process.run text minuteOfTwo {} refused).store.journal.reopen.entries).toOption.map
          (fun m => m.active.items.map Record.id) = some ["refused"]) ∧
    ((Process.run text minuteOfTwo {} (quiet.take 3)).store.history.map Record.id = ["over"] ∧
      (Memory.replay text minuteOfTwo (3 * minute)
        (Process.run text minuteOfTwo {} (quiet.take 3)).store.journal.reopen.entries).toOption.map
          (fun m => m.history.map Record.id) = some []) := by
  decide +kernel

end RelayLifeline.TimelineStore
