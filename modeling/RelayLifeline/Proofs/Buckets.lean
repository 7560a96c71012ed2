import RelayLifeline.Lib.Trace
import RelayLifeline.Monitoring.Store

/-!
# What the buckets hold

While the clock does not go back, the bucket at each place of the ring is that
of the newest minute in which something was written there, and it holds what
was written in that minute and nothing else. A write either continues the
bucket of its minute, or finds an older one in its place and opens its own.
-/

namespace RelayLifeline.Monitoring

open Lib

/-! ## What was written -/

namespace Call

def isFailure : Call → Bool
  | attemptFailure _ => true
  | _ => false

def isRecovery : Call → Bool
  | recovery _ _ => true
  | _ => false

/-- A failure in the category of the index. -/
def failsAs (index : Fin 7) : Call → Bool
  | attemptFailure category => errorIndex category = index
  | _ => false

/-- A recovery with the index for its time. -/
def tookAs (index : Fin 9) : Call → Bool
  | recovery elapsed _ => durationBucketIndex (Store.milliseconds elapsed) = index
  | _ => false

/-- A recovery with the index for its attempts. -/
def triedAs (index : Fin 7) : Call → Bool
  | recovery _ attempts => attemptBucketIndex attempts = index
  | _ => false

/-- The milliseconds of a recovery. -/
def recoveryTime : Call → Nat
  | recovery elapsed _ => (Store.milliseconds elapsed).toNat
  | _ => 0

/-- The load after the call. -/
def load (before : Load) : Call → Load
  | setLoad load => load
  | _ => before

/-- The highest load after the call. -/
def peak (before : Load) : Call → Load
  | setLoad load => maximizeLoad before load
  | _ => before

end Call

/-- How many of the writes were a call of the kind. -/
def counted (writes : List Write) (kind : Call → Bool) : Nat := writes.countP fun w => kind w.call

/-- The writes by the kinds that the counters tell apart. -/
def counts (writes : List Write) : Counters where
  requests := counted writes (· = .received)
  successful :=
    counted writes fun call => call = .final "successful" || call = .final "confirmed_success"
  failed := counted writes fun call => call = .final "failed" || call = .final "abandoned"
  canceled := counted writes (· = .final "canceled")
  rejected := counted writes (· = .final "rejected")
  expired := counted writes (· = .final "expired")
  attempts := counted writes (· = .attempt)
  failedAttempts := counted writes Call.isFailure
  recovered := counted writes Call.isRecovery
  failovers := counted writes (· = .failover)
  uncertain := counted writes (· = .uncertain)
  uncertainConfirmed := counted writes (· = .uncertainResolution "confirm_success")
  uncertainAbandoned := counted writes (· = .uncertainResolution "abandon")
  uncertainCompensated := counted writes (· = .uncertainResolution "request_compensation")
  persistenceFailures := counted writes (· = .persistenceFailure)
  captureFailures := counted writes (· = .captureFailure)

/-- The load set last. -/
def loadAfter (writes : List Write) : Load := writes.foldl (fun load w => w.call.load load) {}

/-- The highest load from a first one on, component by component. -/
def raise (first : Load) (writes : List Write) : Load :=
  writes.foldl (fun load w => w.call.peak load) first

/-- The load that the first of the writes finds: it has replaced it where it
sets one. -/
def opened (before : Load) : List Write → Load
  | [] => before
  | w :: _ => w.call.load before

/-! ## What a bucket should hold -/

def minuteWrites (writes : List Write) (minute : Int) : List Write :=
  writes.filter fun w => unixMinute w.time = minute

def writesBefore (writes : List Write) (minute : Int) : List Write :=
  writes.filter fun w => unixMinute w.time < minute

/-- The bucket of what was written in the minute, by then. -/
def bucketOf (writes : List Write) (minute : Int) : MinuteBucket :=
  let inside := minuteWrites writes minute
  { valid := true
    minute := minute
    counters := counts inside
    load := loadAfter (writesBefore writes minute ++ inside)
    peak := raise (opened (loadAfter (writesBefore writes minute)) inside) inside
    recoveryMilliseconds := (inside.map fun w => w.call.recoveryTime).sum
    durationBuckets := fun index => counted inside (Call.tookAs index)
    attemptBuckets := fun index => counted inside (Call.triedAs index)
    errors := fun index => counted inside (Call.failsAs index) }

/-! ## One write -/

/-- What a call does to the bucket. -/
def Call.update : Call → MinuteBucket → MinuteBucket
  | received, b => { b with counters.requests := b.counters.requests + 1 }
  | attempt, b => { b with counters.attempts := b.counters.attempts + 1 }
  | attemptFailure category, b =>
      { b with
        counters.failedAttempts := b.counters.failedAttempts + 1
        errors := increment b.errors (errorIndex category) }
  | recovery elapsed attempts, b =>
      { b with
        counters.recovered := b.counters.recovered + 1
        recoveryMilliseconds := b.recoveryMilliseconds + (Store.milliseconds elapsed).toNat
        durationBuckets :=
          increment b.durationBuckets (durationBucketIndex (Store.milliseconds elapsed))
        attemptBuckets := increment b.attemptBuckets (attemptBucketIndex attempts) }
  | failover, b => { b with counters.failovers := b.counters.failovers + 1 }
  | uncertain, b => { b with counters.uncertain := b.counters.uncertain + 1 }
  | uncertainResolution action, b =>
      { b with
        counters :=
          if action = "confirm_success" then
            { b.counters with uncertainConfirmed := b.counters.uncertainConfirmed + 1 }
          else if action = "abandon" then
            { b.counters with uncertainAbandoned := b.counters.uncertainAbandoned + 1 }
          else if action = "request_compensation" then
            { b.counters with uncertainCompensated := b.counters.uncertainCompensated + 1 }
          else b.counters }
  | persistenceFailure, b =>
      { b with counters.persistenceFailures := b.counters.persistenceFailures + 1 }
  | captureFailure, b => { b with counters.captureFailures := b.counters.captureFailures + 1 }
  | final outcome, b =>
      { b with
        counters :=
          if outcome = "successful" ∨ outcome = "confirmed_success" then
            { b.counters with successful := b.counters.successful + 1 }
          else if outcome = "failed" ∨ outcome = "abandoned" then
            { b.counters with failed := b.counters.failed + 1 }
          else if outcome = "canceled" then
            { b.counters with canceled := b.counters.canceled + 1 }
          else if outcome = "rejected" then
            { b.counters with rejected := b.counters.rejected + 1 }
          else if outcome = "expired" then
            { b.counters with expired := b.counters.expired + 1 }
          else b.counters }
  | setLoad load, b => { b with load := load, peak := maximizeLoad b.peak load }

/-- Every call writes one bucket, after it has set the load. -/
theorem step_eq (s : Store) (w : Write) :
    s.step w = Store.updateCurrent { s with load := w.call.load s.load } w.time w.call.update := by
  obtain ⟨time, call⟩ := w
  cases call <;> rfl

@[simp] theorem update_valid (call : Call) (b : MinuteBucket) :
    (call.update b).valid = b.valid := by
  cases call <;> rfl

@[simp] theorem update_minute (call : Call) (b : MinuteBucket) :
    (call.update b).minute = b.minute := by
  cases call <;> rfl

@[simp] theorem update_load (call : Call) (b : MinuteBucket) :
    (call.update b).load = call.load b.load := by
  cases call <;> rfl

@[simp] theorem update_peak (call : Call) (b : MinuteBucket) :
    (call.update b).peak = call.peak b.peak := by
  cases call <;> rfl

theorem counted_push (writes : List Write) (w : Write) (kind : Call → Bool) :
    counted (writes ++ [w]) kind = counted writes kind + if kind w.call then 1 else 0 := by
  rw [counted, counted, List.countP_append, List.countP_singleton]

/-- The counters go up by the kind of the call. -/
theorem counts_push (writes : List Write) (w : Write) {b : MinuteBucket}
    (h : b.counters = counts writes) : (w.call.update b).counters = counts (writes ++ [w]) := by
  obtain ⟨time, call⟩ := w
  cases call with
  | uncertainResolution action =>
      simp only [Call.update, h, counts, counted_push, Call.isFailure, Call.isRecovery,
        Call.uncertainResolution.injEq, reduceCtorEq, decide_false, Bool.or_false,
        Bool.false_eq_true, if_false, Nat.add_zero, decide_eq_true_eq]
      split
      · next heq => subst heq; rfl
      · split
        · next heq => subst heq; rfl
        · split
          · next heq => subst heq; rfl
          · rfl
  | final outcome =>
      simp only [Call.update, h, counts, counted_push, Call.isFailure, Call.isRecovery,
        Call.final.injEq, reduceCtorEq, decide_false, Bool.false_eq_true, if_false, Nat.add_zero,
        decide_eq_true_eq, Bool.or_eq_true]
      split
      · next heq => rcases heq with rfl | rfl <;> rfl
      · split
        · next heq => rcases heq with rfl | rfl <;> rfl
        · split
          · next heq => subst heq; rfl
          · split
            · next heq => subst heq; rfl
            · split
              · next heq => subst heq; rfl
              · rfl
  | _ => simp [Call.update, h, counts, counted_push, Call.isFailure, Call.isRecovery]

/-- The bucket's counts are those of the writes. -/
structure Tallies (b : MinuteBucket) (writes : List Write) : Prop where
  counters : b.counters = counts writes
  recoveryMilliseconds : b.recoveryMilliseconds = (writes.map fun w => w.call.recoveryTime).sum
  durationBuckets : ∀ index, b.durationBuckets index = counted writes (Call.tookAs index)
  attemptBuckets : ∀ index, b.attemptBuckets index = counted writes (Call.triedAs index)
  errors : ∀ index, b.errors index = counted writes (Call.failsAs index)

theorem increment_apply {n : Nat} (counts : Fin n → Nat) (index other : Fin n) :
    increment counts index other = counts other + if index = other then 1 else 0 := by
  rw [increment, Function.update_apply]
  by_cases h : other = index
  · rw [if_pos h, if_pos h.symm, h]
  · rw [if_neg h, if_neg (Ne.symm h), Nat.add_zero]

theorem Tallies.push {b : MinuteBucket} {writes : List Write} (h : Tallies b writes) (w : Write) :
    Tallies (w.call.update b) (writes ++ [w]) := by
  refine ⟨counts_push writes w h.counters, ?_, fun index => ?_, fun index => ?_, fun index => ?_⟩
  · rw [List.map_append, List.sum_append, ← h.recoveryMilliseconds]
    obtain ⟨time, call⟩ := w
    cases call <;> rfl
  · rw [counted_push, ← h.durationBuckets]
    obtain ⟨time, call⟩ := w
    cases call with
    | recovery elapsed attempts =>
        simp only [Call.update, increment_apply, Call.tookAs, decide_eq_true_eq]
    | _ => rfl
  · rw [counted_push, ← h.attemptBuckets]
    obtain ⟨time, call⟩ := w
    cases call with
    | recovery elapsed attempts =>
        simp only [Call.update, increment_apply, Call.triedAs, decide_eq_true_eq]
    | _ => rfl
  · rw [counted_push, ← h.errors]
    obtain ⟨time, call⟩ := w
    cases call with
    | attemptFailure category =>
        simp only [Call.update, increment_apply, Call.failsAs, decide_eq_true_eq]
    | _ => rfl

theorem tallies_bucketOf (writes : List Write) (minute : Int) :
    Tallies (bucketOf writes minute) (minuteWrites writes minute) :=
  ⟨rfl, rfl, fun _ => rfl, fun _ => rfl, fun _ => rfl⟩

theorem tallies_nil {b : MinuteBucket} (hcounters : b.counters = {})
    (hmilliseconds : b.recoveryMilliseconds = 0) (hdurations : b.durationBuckets = fun _ => 0)
    (hattempts : b.attemptBuckets = fun _ => 0) (herrors : b.errors = fun _ => 0) : Tallies b [] :=
  ⟨hcounters, hmilliseconds, fun _ => by rw [hdurations]; rfl, fun _ => by rw [hattempts]; rfl,
    fun _ => by rw [herrors]; rfl⟩

/-! ## Time -/

namespace Write

/-- The minute the store takes the write to be in. -/
def minute (w : Write) : Int := unixMinute w.time

/-- The place of its bucket. -/
def slot (w : Write) : Nat := bucketIndex w.minute

end Write

theorem unixMinute_mono {t u : Int} (h : t ≤ u) : unixMinute t ≤ unixMinute u := by
  rw [unixMinute, unixMinute]
  refine Int.tdiv_le_tdiv (by decide) ?_
  unfold unix
  omega

/-- The clock does not go back. -/
def Monotone (writes : List Write) : Prop := writes.Pairwise (·.time ≤ ·.time)

instance (writes : List Write) : Decidable (Monotone writes) :=
  inferInstanceAs (Decidable (writes.Pairwise _))

theorem Monotone.minutes {writes : List Write} (h : Monotone writes) :
    writes.Pairwise (·.minute ≤ ·.minute) :=
  h.imp unixMinute_mono

theorem Monotone.of_append {writes rest : List Write} (h : Monotone (writes ++ rest)) :
    Monotone writes :=
  (List.pairwise_append.1 h).1

/-- No write is later than the one after them. -/
theorem Monotone.le_last {writes : List Write} {w : Write} (h : Monotone (writes ++ [w]))
    {v : Write}
    (hv : v ∈ writes ++ [w]) : v.minute ≤ w.minute := by
  rcases List.mem_append.1 hv with hv | hv
  · exact unixMinute_mono ((List.pairwise_append.1 h).2.2 v hv w (List.mem_singleton.2 rfl))
  · rw [List.mem_singleton.1 hv]

/-- Up to a minute, what was written before it comes first. -/
theorem writesBefore_append {writes : List Write} (h : Monotone writes) {minute : Int}
    (hle : ∀ w ∈ writes, w.minute ≤ minute) :
    writesBefore writes minute ++ minuteWrites writes minute = writes := by
  induction writes with
  | nil => rfl
  | cons w writes ih =>
      obtain ⟨hfirst, hrest⟩ := List.pairwise_cons.1 h.minutes
      have hih := ih (List.pairwise_cons.1 h).2 fun v hv => hle v (List.mem_cons_of_mem _ hv)
      have hw : unixMinute w.time ≤ minute := hle w List.mem_cons_self
      by_cases hlt : unixMinute w.time < minute
      · have hbefore : writesBefore (w :: writes) minute = w :: writesBefore writes minute :=
          List.filter_cons_of_pos (decide_eq_true hlt)
        have hinside : minuteWrites (w :: writes) minute = minuteWrites writes minute :=
          List.filter_cons_of_neg (by rw [decide_eq_true_eq]; omega)
        rw [hbefore, hinside, List.cons_append, hih]
      · have hsame : ∀ v ∈ w :: writes, unixMinute v.time = minute := by
          intro v hv
          have hbound : unixMinute v.time ≤ minute := hle v hv
          rcases List.mem_cons.1 hv with rfl | hv
          · omega
          · have hafter : unixMinute w.time ≤ unixMinute v.time := hfirst v hv
            omega
        have hbefore : writesBefore (w :: writes) minute = [] :=
          List.filter_eq_nil_iff.2 fun v hv => by
            rw [decide_eq_true_eq, hsame v hv]
            omega
        have hinside : minuteWrites (w :: writes) minute = w :: writes :=
          List.filter_eq_self.2 fun v hv => decide_eq_true (hsame v hv)
        rw [hbefore, hinside, List.nil_append]

theorem minuteWrites_push (writes : List Write) (w : Write) (minute : Int) :
    minuteWrites (writes ++ [w]) minute =
      minuteWrites writes minute ++ if w.minute = minute then [w] else [] := by
  rw [minuteWrites, minuteWrites, List.filter_append]
  congr 1
  by_cases h : w.minute = minute
  · rw [if_pos h]
    exact List.filter_cons_of_pos (decide_eq_true h)
  · rw [if_neg h]
    exact List.filter_cons_of_neg (by rw [decide_eq_true_eq]; exact h)

theorem writesBefore_push (writes : List Write) {w : Write} {minute : Int}
    (h : minute ≤ w.minute) : writesBefore (writes ++ [w]) minute = writesBefore writes minute := by
  rw [writesBefore, writesBefore, List.filter_append,
    List.filter_cons_of_neg (by rw [decide_eq_true_eq]; exact Int.not_lt.2 h), List.filter_nil,
    List.append_nil]

/-- A write leaves the earlier minutes as they were. -/
theorem bucketOf_push_of_lt (writes : List Write) {w : Write} {minute : Int}
    (h : minute < w.minute) : bucketOf (writes ++ [w]) minute = bucketOf writes minute := by
  rw [bucketOf, bucketOf, minuteWrites_push, if_neg (by omega), List.append_nil,
    writesBefore_push writes (Int.le_of_lt h)]

theorem loadAfter_push (writes : List Write) (w : Write) :
    loadAfter (writes ++ [w]) = w.call.load (loadAfter writes) := by
  rw [loadAfter, loadAfter, List.foldl_append]
  rfl

theorem raise_push (first : Load) (writes : List Write) (w : Write) :
    raise first (writes ++ [w]) = w.call.peak (raise first writes) := by
  rw [raise, raise, List.foldl_append]
  rfl

theorem opened_push {before : Load} {writes : List Write} (h : writes ≠ []) (w : Write) :
    opened before (writes ++ [w]) = opened before writes := by
  cases writes with
  | nil => exact absurd rfl h
  | cons v writes => rfl

/-- A bucket is what it should be where its parts are. -/
theorem eq_bucketOf {b : MinuteBucket} {writes : List Write} {minute : Int}
    (hvalid : b.valid = true) (hminute : b.minute = minute)
    (hload : b.load = loadAfter (writesBefore writes minute ++ minuteWrites writes minute))
    (hpeak : b.peak = raise (opened (loadAfter (writesBefore writes minute))
      (minuteWrites writes minute)) (minuteWrites writes minute))
    (htallies : Tallies b (minuteWrites writes minute)) : b = bucketOf writes minute := by
  obtain ⟨hcounters, hmilliseconds, hdurations, hattempts, herrors⟩ := htallies
  cases b
  dsimp only at *
  rw [bucketOf, hvalid, hminute, hload, hpeak, hcounters, hmilliseconds, funext hdurations,
    funext hattempts, funext herrors]

variable {writes : List Write} {w : Write} {s : Store}

/-- A write that continues the bucket of its minute. -/
theorem update_bucketOf (hopen : minuteWrites writes w.minute ≠ []) :
    w.call.update (bucketOf writes w.minute) = bucketOf (writes ++ [w]) w.minute := by
  have hinside : minuteWrites (writes ++ [w]) w.minute = minuteWrites writes w.minute ++ [w] := by
    rw [minuteWrites_push, if_pos rfl]
  have hbefore : writesBefore (writes ++ [w]) w.minute = writesBefore writes w.minute :=
    writesBefore_push writes (Int.le_refl _)
  refine eq_bucketOf (update_valid _ _) (update_minute _ _) ?_ ?_ ?_
  · rw [update_load, hinside, hbefore, ← List.append_assoc, loadAfter_push]
    rfl
  · rw [update_peak, hinside, hbefore, opened_push hopen, raise_push]
    rfl
  · rw [hinside]
    exact (tallies_bucketOf writes w.minute).push w

/-- The load a bucket is opened with has been set by the write already. -/
def opening (writes : List Write) (w : Write) : MinuteBucket :=
  { valid := true, minute := w.minute, load := w.call.load (loadAfter writes),
    peak := w.call.load (loadAfter writes) }

theorem Call.load_load (call : Call) (load : Load) :
    call.load (call.load load) = call.load load := by
  cases call <;> rfl

/-- A write that opens the bucket of its minute. -/
theorem update_opening (h : Monotone (writes ++ [w])) (hnew : minuteWrites writes w.minute = []) :
    w.call.update (opening writes w) = bucketOf (writes ++ [w]) w.minute := by
  have hinside : minuteWrites (writes ++ [w]) w.minute = [w] := by
    rw [minuteWrites_push, if_pos rfl, hnew, List.nil_append]
  have hbefore : writesBefore (writes ++ [w]) w.minute = writes := by
    have hsplit := writesBefore_append h.of_append fun v hv =>
      h.le_last (List.mem_append_left _ hv)
    rw [hnew, List.append_nil] at hsplit
    rw [writesBefore_push writes (Int.le_refl _), hsplit]
  refine eq_bucketOf (update_valid _ _) (update_minute _ _) ?_ ?_ ?_
  · rw [update_load, hinside, hbefore, loadAfter_push]
    exact Call.load_load _ _
  · rw [update_peak, hinside, hbefore]
    rfl
  · rw [hinside]
    exact (tallies_nil rfl rfl rfl rfl rfl).push w

/-! ## The ring -/

/-- Every place of the ring has the bucket of its newest minute. -/
structure Mirrors (s : Store) (writes : List Write) : Prop where
  load_eq : s.load = loadAfter writes
  empty : ∀ i, (∀ w ∈ writes, w.slot ≠ i) → (s.buckets i).valid = false
  full : ∀ w ∈ writes, (∀ v ∈ writes, v.slot = w.slot → v.minute ≤ w.minute) →
    s.buckets w.slot = bucketOf writes w.minute

theorem mirrors_new (startedAt : Int) : Mirrors (.new startedAt) [] :=
  ⟨rfl, fun _ _ => rfl, fun _ hw => absurd hw List.not_mem_nil⟩

/-- A place where something was written has a newest minute. -/
theorem exists_newest (h : Monotone writes) {i : Nat} (hused : ∃ w ∈ writes, w.slot = i) :
    ∃ w ∈ writes, w.slot = i ∧ ∀ v ∈ writes, v.slot = i → v.minute ≤ w.minute := by
  obtain ⟨w, hw, hslot⟩ := hused
  have hin : w ∈ writes.filter (·.slot = i) := List.mem_filter.2 ⟨hw, decide_eq_true hslot⟩
  rcases List.eq_nil_or_concat' (writes.filter (·.slot = i)) with hnil | ⟨front, last, hlast⟩
  · rw [hnil] at hin
    exact absurd hin List.not_mem_nil
  · have hmono : Monotone (front ++ [last]) := by
      rw [← hlast]
      exact h.sublist List.filter_sublist
    have hmem : last ∈ writes.filter (·.slot = i) := by
      rw [hlast]
      simp
    obtain ⟨hmem, heq⟩ := List.mem_filter.1 hmem
    refine ⟨last, hmem, of_decide_eq_true heq, fun v hv hvslot => ?_⟩
    have hvin : v ∈ writes.filter (·.slot = i) := List.mem_filter.2 ⟨hv, decide_eq_true hvslot⟩
    rw [hlast] at hvin
    exact hmono.le_last hvin

theorem minuteWrites_ne_nil {minute : Int} :
    minuteWrites writes minute ≠ [] ↔ ∃ w ∈ writes, w.minute = minute := by
  constructor
  · intro hne
    obtain ⟨w, hw⟩ := List.exists_mem_of_ne_nil _ hne
    obtain ⟨hw, hminute⟩ := List.mem_filter.1 hw
    exact ⟨w, hw, of_decide_eq_true hminute⟩
  · rintro ⟨w, hw, hminute⟩
    exact List.ne_nil_of_mem (List.mem_filter.2 ⟨hw, decide_eq_true hminute⟩)

/-- The write leaves its minute's bucket as it should be. -/
theorem Mirrors.update (h : Mirrors s writes) (hmono : Monotone (writes ++ [w])) :
    w.call.update (({ s with load := w.call.load s.load } : Store).currentBucket w.time) =
      bucketOf (writes ++ [w]) w.minute := by
  have hle : ∀ v ∈ writes, v.minute ≤ w.minute := fun v hv =>
    hmono.le_last (List.mem_append_left _ hv)
  have hcurrent : ({ s with load := w.call.load s.load } : Store).currentBucket w.time =
      if (!(s.buckets w.slot).valid || decide ((s.buckets w.slot).minute ≠ w.minute)) = true then
        { valid := true, minute := w.minute, load := w.call.load s.load,
          peak := w.call.load s.load }
      else s.buckets w.slot := rfl
  rw [hcurrent]
  by_cases hopen : minuteWrites writes w.minute = []
  · -- what is in its place is of another minute, or nothing is
    have hother : (!(s.buckets w.slot).valid || decide ((s.buckets w.slot).minute ≠ w.minute)) =
        true := by
      by_cases hused : ∃ v ∈ writes, v.slot = w.slot
      · obtain ⟨v, hv, hslot, hnewest⟩ := exists_newest hmono.of_append hused
        have hbucket := h.full v hv fun u hu heq => hnewest u hu (heq.trans hslot)
        rw [hslot] at hbucket
        rw [hbucket, Bool.or_eq_true, decide_eq_true_eq]
        refine .inr fun heq => ?_
        exact minuteWrites_ne_nil.2 ⟨v, hv, heq⟩ hopen
      · rw [h.empty w.slot fun v hv heq => hused ⟨v, hv, heq⟩]
        rfl
    rw [← update_opening hmono hopen, if_pos hother, opening, h.load_eq]
  · obtain ⟨v, hv, hminute⟩ := minuteWrites_ne_nil.1 hopen
    have hslot : v.slot = w.slot := congrArg bucketIndex hminute
    have hbucket := h.full v hv fun u hu _ => hminute ▸ hle u hu
    rw [hslot, hminute] at hbucket
    rw [← update_bucketOf hopen, hbucket, if_neg]
    simp [bucketOf]

theorem Mirrors.step (h : Mirrors s writes) (hmono : Monotone (writes ++ [w])) :
    Mirrors (s.step w) (writes ++ [w]) := by
  have hput := h.update hmono
  rw [step_eq, Store.updateCurrent, hput, Store.putBucket]
  refine ⟨?_, ?_, ?_⟩
  · rw [loadAfter_push, ← h.load_eq]
  · intro i hunused
    have hne : i ≠ w.slot := fun heq => hunused w (by simp) heq.symm
    show (Function.update s.buckets w.slot _ i).valid = false
    rw [Function.update_of_ne hne]
    exact h.empty i fun v hv => hunused v (List.mem_append_left _ hv)
  · intro u hu hnewest
    show Function.update s.buckets w.slot _ u.slot = _
    by_cases hslot : u.slot = w.slot
    · -- the newest minute of the place is that of the write
      have hminute : u.minute = w.minute :=
        Int.le_antisymm (hmono.le_last hu) (hnewest w (by simp) hslot.symm)
      rw [hslot, Function.update_self, hminute]
    · have hold : u ∈ writes := by
        rcases List.mem_append.1 hu with hu | hu
        · exact hu
        · exact absurd (congrArg Write.slot (List.mem_singleton.1 hu)) hslot
      have hlt : u.minute < w.minute := by
        have hne : u.minute ≠ w.minute := fun heq => hslot (congrArg bucketIndex heq)
        have hle := hmono.le_last hu
        omega
      rw [Function.update_of_ne hslot, bucketOf_push_of_lt writes hlt]
      exact h.full u hold fun v hv => hnewest v (List.mem_append_left _ hv)

/-- The ring after any writes by a clock that does not go back. -/
theorem mirrors_run (startedAt : Int) {writes : List Write} (h : Monotone writes) :
    Mirrors (Store.run startedAt writes) writes := by
  rcases List.eq_nil_or_concat' writes with rfl | ⟨front, w, rfl⟩
  · exact mirrors_new startedAt
  · have hfront := mirrors_run startedAt h.of_append
    rw [Store.run, List.foldl_append]
    exact hfront.step h
termination_by writes.length

end RelayLifeline.Monitoring
