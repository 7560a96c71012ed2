import RelayLifeline.Proofs.Circuit
import RelayLifeline.Repeat.Turns

/-!
# When an execution of a continuous task begins

`finishExecution` puts the next run an interval after the end of an execution,
and `next` waits until then, or for a signal. `beginExecution` does not look at
the schedule again. A signal sent by `Resume` or `RunNow` comes with a new
schedule, but a signal that is in the wake channel when an execution ends is
older than the schedule the end makes, and the goroutine takes it at once.

So executions keep to the schedule where no execution ends with a signal left
in the channel of a task that is running: then a running task that holds a
signal is due, and so is one whose timer has fired.
-/

namespace RelayLifeline.Repeat

open Lib Journal

/-! ## What a turn makes of the schedule -/

namespace Task

variable {t : Task} {now : Int} {result : Execution}

@[simp] theorem count_interval :
    (t.count now result).intervalMilliseconds = t.intervalMilliseconds := by
  simp only [count]
  split <;> rfl

theorem limit_interval (success : Bool) :
    (t.limit now success).1.intervalMilliseconds = t.intervalMilliseconds := by
  simp only [limit]
  split_ifs <;> rfl

@[simp] theorem settle_interval :
    (t.settle now result).1.intervalMilliseconds = t.intervalMilliseconds := by
  simp only [settle]
  split
  · split
    · exact count_interval
    · split
      · exact count_interval
      · exact (limit_interval _).trans count_interval
  · exact (limit_interval _).trans count_interval

theorem limit_nextRunAt {success : Bool} (h : (t.limit now success).1.state = .running) :
    (t.limit now success).1.nextRunAt = now + t.intervalMilliseconds * 1000000 := by
  simp only [limit] at h ⊢
  split_ifs at h ⊢ <;> first | rfl | contradiction

/-- A task that runs on after an execution runs next an interval after its end. -/
theorem settle_nextRunAt (h : (t.settle now result).1.state = .running) :
    (t.settle now result).1.nextRunAt = now + t.intervalMilliseconds * 1000000 := by
  simp only [settle] at h ⊢
  split at h
  · next hmax =>
      rw [if_pos hmax]
      split at h
      · cases h
      · next havailable =>
          rw [if_neg havailable]
          split at h
          · cases h
          · next hless =>
              rw [if_neg hless, limit_nextRunAt h]
              exact congrArg (now + · * 1000000) count_interval
  · next hmax =>
      rw [if_neg hmax, limit_nextRunAt h, count_interval]

theorem settle_running (h : (t.settle now result).1.state = .running) : t.state = .running := by
  rcases (t.settle_limited now result).state with hsame | hpaused | hexpired
  · rw [← hsame, h]
  · rw [h] at hpaused
    cases hpaused
  · rw [h] at hexpired
    cases hexpired

end Task

namespace Service

/-- What an input reads off the clock. What `Close` reads schedules nothing. -/
def Input.reading : Input → Option Int
  | .create clk .. | .pause clk .. | .resume clk .. | .runNow clk .. | .stop clk .. | .next clk ..
  | .begin clk .. | .finish clk .. => some clk.now
  | .fires now _ => some now
  | .registerSource _ | .unregisterSource _ | .close .. | .leave _ | .woken _ => none

/-- An execution that the input begins is due. -/
def onTime (s : Service) : Input → Bool
  | .begin clk id fate =>
      !(s.manager.beginExecution clk id fate).2 ||
        (s.manager.tasks.get? id).any fun r => r.task.nextRunAt ≠ 0 ∧ r.task.nextRunAt ≤ clk.now
  | _ => true

/-- An execution ends, and a signal is left in the channel of its task, which is
running. -/
def leavesSignal (s : Service) : Input → Bool
  | .finish _ id _ _ =>
      (s.manager.tasks.get? id).any fun r =>
        r.routine = .executing ∧ r.task.state = .running ∧ r.wake
  | _ => false

/-- The task takes `Resume` or `RunNow`. -/
def restarts (id : String) (s : Service) : Input → Bool
  | .runNow clk id' fate => id' = id ∧ (s.manager.runNow clk id' fate).2.isOk
  | i => resumes id s i

end Service

/-- The schedule of a task at a time no reading is later than: a task that runs
and is not in the executor has a next run, which is not in the future where a
signal is waiting for its goroutine or has reached it, and not after the timer
its goroutine waits for. -/
structure RuntimeTask.Scheduled (now : Int) (r : RuntimeTask) : Prop where
  interval : r.task.state.terminal = false → 0 ≤ r.task.intervalMilliseconds
  isSet : r.task.state = .running → r.routine ≠ .executing → r.task.nextRunAt ≠ 0
  due : r.task.state = .running → r.routine ≠ .executing → r.wake = true ∨ r.routine = .beginning →
    r.task.nextRunAt ≤ now
  timer : r.task.state = .running → ∀ deadline, r.routine = .waiting deadline →
    r.task.nextRunAt ≤ max deadline now

theorem RuntimeTask.Scheduled.mono {now later : Int} {r : RuntimeTask} (h : r.Scheduled now)
    (hle : now ≤ later) : r.Scheduled later where
  interval := h.interval
  isSet := h.isSet
  due hrunning hout hwake := (h.due hrunning hout hwake).trans hle
  timer hrunning deadline hwaiting :=
    (h.timer hrunning deadline hwaiting).trans (max_le_max_left deadline hle)

/-- A task that is not running has no schedule to keep. -/
theorem RuntimeTask.Scheduled.of_not_running {now : Int} {r : RuntimeTask}
    (hinterval : r.task.state.terminal = false → 0 ≤ r.task.intervalMilliseconds)
    (h : r.task.state ≠ .running) : r.Scheduled now :=
  ⟨hinterval, fun hrunning => absurd hrunning h, fun hrunning => absurd hrunning h,
    fun hrunning => absurd hrunning h⟩

/-- A task that is due whatever its goroutine does. -/
theorem RuntimeTask.Scheduled.of_due {now : Int} {r : RuntimeTask}
    (hinterval : 0 ≤ r.task.intervalMilliseconds) (hset : r.task.nextRunAt ≠ 0)
    (hdue : r.task.nextRunAt ≤ now) : r.Scheduled now :=
  ⟨fun _ => hinterval, fun _ _ => hset, fun _ _ _ => hdue,
    fun _ _ _ => hdue.trans (le_max_right _ _)⟩

theorem Clock.now_pos (clk : Clock) : 0 < clk.now := by
  have := clk.started
  unfold minute at this
  omega

theorem Turn.scheduled {s : Service} {i : Service.Input} {r r' : RuntimeTask} (h : Turn s i r r')
    {now later : Int} (hr : s.manager.tasks.get? r.task.id = some r) (hs : r.Scheduled now)
    (hle : now ≤ later) (hreading : ∀ t ∈ i.reading, t = later)
    (hdrained : s.leavesSignal i = false) : r'.Scheduled later := by
  have hlater := hs.mono hle
  cases h with
  | pauses => exact .of_not_running (fun _ => hs.interval ‹_›) (by simp [Manager.signal, Task.changeState])
  | resumes hactive =>
      rename_i clk id fate _ _
      have hnow : clk.now = later := hreading _ rfl
      exact .of_due (hs.interval hactive) (Clock.now_pos clk).ne' hnow.le
  | runsNow hactive =>
      rename_i clk id fate _ _
      have hnow : clk.now = later := hreading _ rfl
      exact .of_due (hs.interval hactive) (Clock.now_pos clk).ne' hnow.le
  | cancels => exact ⟨hlater.interval, hlater.isSet, hlater.due, hlater.timer⟩
  | waits hdeciding hdeadline =>
      refine ⟨hlater.interval, fun hrunning _ => ?_, fun hrunning _ hwake => ?_, ?_⟩
      · exact hlater.isSet hrunning (by simp [hdeciding])
      · exact hlater.due hrunning (by simp [hdeciding]) (.inl (by simpa using hwake))
      · rintro hrunning _ ⟨rfl⟩
        exact (hdeadline hrunning).trans (le_max_left _ _)
  | leaves hout =>
      refine ⟨hlater.interval, fun hrunning _ => hlater.isSet hrunning hout, fun hrunning _ hwake => ?_, ?_⟩
      · exact hlater.due hrunning hout (.inl (by simpa using hwake))
      · rintro _ _ ⟨⟩
  | wakes hwaiting hwake =>
      refine ⟨hlater.interval, fun hrunning _ => ?_, fun hrunning _ _ => ?_, ?_⟩
      · exact hlater.isSet hrunning (by simp [hwaiting])
      · exact hlater.due hrunning (by simp [hwaiting]) (.inl hwake)
      · rintro _ _ ⟨⟩
  | fires hwaiting hdue =>
      have hnow := hreading _ rfl
      refine ⟨hlater.interval, fun hrunning _ => ?_, fun hrunning _ _ => ?_, ?_⟩
      · exact hlater.isSet hrunning (by simp [hwaiting])
      · have := hlater.timer hrunning _ hwaiting
        dsimp only
        omega
      · rintro _ _ ⟨⟩
  | declines hbeginning =>
      refine ⟨hlater.interval, fun hrunning _ => ?_, fun hrunning _ _ => ?_, ?_⟩
      · exact hlater.isSet hrunning (by simp [hbeginning])
      · exact hlater.due hrunning (by simp [hbeginning]) (.inr hbeginning)
      · rintro _ _ ⟨⟩
  | begins =>
      refine ⟨hlater.interval, fun _ hout => absurd rfl hout, fun _ hout => absurd rfl hout, ?_⟩
      rintro _ _ ⟨⟩
  | settles hactive hid hexecuting =>
      rename_i clk id result fate canceled
      have hinterval := hs.interval hactive
      refine ⟨fun _ => by simpa using hinterval, fun hrunning _ => ?_, fun hrunning _ hwake => ?_, ?_⟩
      · have := Clock.now_pos clk
        rw [Task.settle_nextRunAt hrunning]
        omega
      · -- no signal is left by the end of an execution
        have hempty : r.wake = false := by
          simpa [Service.leavesSignal, ← hid, hr, hexecuting, Task.settle_running hrunning]
            using hdrained
        simp [hempty] at hwake
      · rintro _ _ ⟨⟩
  | degrades hactive => exact .of_not_running (fun _ => hs.interval hactive) (by simp [Task.degraded])
  | ends hid hover =>
      refine .of_not_running (fun hactive => ?_) (State.ne_running_of_terminal hover)
      rw [hover] at hactive
      cases hactive

/-! ## Every task -/

namespace Service

variable {s : Service} {i : Input} {now : Int}

/-- Every task is scheduled. -/
def Scheduled (now : Int) (s : Service) : Prop := ∀ r ∈ s.manager.tasks.items, r.Scheduled now

theorem Scheduled.step (h : s.Scheduled now) (hclock : ∀ t ∈ i.reading, now ≤ t)
    (hdrained : s.leavesSignal i = false) : (s.step i).Scheduled (i.reading.getD now) := by
  have hle : now ≤ i.reading.getD now := by
    cases hread : i.reading with
    | none => exact Int.le_refl now
    | some t => exact hclock t hread
  have hreading : ∀ t ∈ i.reading, t = i.reading.getD now := by
    intro t ht
    rw [show i.reading = some t from ht]
    rfl
  intro r' hr'
  have hget := Table.get?_of_mem hr'
  have hturned := turns s i (Keyed.key r')
  rw [hget] at hturned
  rcases hturned.of_some with hsame | ⟨r, hr, hturn⟩ | ⟨-, clk, sourceID, input, fate, rfl, hvalid, hnew⟩
  · exact (h r' (Table.mem_of_get? hsame)).mono hle
  · exact hturn.scheduled (Manager.get?_task hr) (h r (Table.mem_of_get? hr)) hle hreading hdrained
  · rw [hnew]
    refine .of_due ?_ (Clock.now_pos clk).ne' (Int.le_refl _)
    simp only [validInput, decide_eq_true_eq, Bool.not_eq_true', decide_eq_false_iff_not] at hvalid
    show 0 ≤ input.interval / 1000000
    omega

/-- An execution that begins when every task is scheduled is due. -/
theorem Scheduled.onTime (h : s.Scheduled now) (hclock : ∀ t ∈ i.reading, now ≤ t) :
    s.onTime i = true := by
  cases i with
  | begin clk id fate =>
      rcases s.manager.beginExecution_cases clk id fate with
        ⟨hbegins, r, hr, hrunning, hbeginning, -⟩ | ⟨hrefuses, -⟩
      · have hscheduled := h r (Table.mem_of_get? hr)
        have hout : r.routine ≠ .executing := by simp [hbeginning]
        have hdue := (hscheduled.due hrunning hout (.inr hbeginning)).trans (hclock _ rfl)
        simp [Service.onTime, hr, hscheduled.isSet hrunning hout, hdue]
      · simp [Service.onTime, hrefuses]
  | _ => rfl

/-- The readings of a run that begins with an input, at `now` or later. -/
theorem readings_cons {is : List Input}
    (h : (now :: (i :: is).filterMap Input.reading).Pairwise (· ≤ ·)) :
    (∀ t ∈ i.reading, now ≤ t) ∧
      (i.reading.getD now :: is.filterMap Input.reading).Pairwise (· ≤ ·) := by
  cases hread : i.reading with
  | none =>
      rw [List.filterMap_cons_none hread] at h
      exact ⟨by simp, h⟩
  | some t =>
      rw [List.filterMap_cons_some hread] at h
      obtain ⟨hnow, htail⟩ := List.pairwise_cons.1 h
      exact ⟨by simpa using hnow t, htail⟩

theorem Scheduled.run {is : List Input} (h : s.Scheduled now)
    (hclock : (now :: is.filterMap Input.reading).Pairwise (· ≤ ·))
    (hdrained : Along Service.step (fun s i => s.leavesSignal i = false) s is) :
    Along Service.step (fun s i => s.onTime i = true) s is := by
  induction is generalizing s now with
  | nil => trivial
  | cons i is ih =>
      obtain ⟨hreading, hrest⟩ := readings_cons hclock
      exact ⟨h.onTime hreading, ih (h.step hreading hdrained.1) hrest hdrained.2⟩

/-- No task of a service that starts is running. -/
theorem Started.scheduled (h : s.Started) (now : Int) : s.Scheduled now := by
  cases h with
  | volatile => simp [Scheduled]
  | restored hjournal hnew =>
      rename_i journal rank answers m
      obtain ⟨-, hover⟩ := Manager.new_spec rank answers hjournal
      rw [hnew] at hover
      intro r hr
      refine .of_not_running (fun hactive => ?_) (State.ne_running_of_terminal (hover rfl r hr))
      rw [hover rfl r hr] at hactive
      cases hactive

end Service

/-! ## Between two executions -/

/-- An execution of the task has ended at a time, and nothing has started the
task since. -/
structure RuntimeTask.Rests (interval ended : Int) (r : RuntimeTask) : Prop where
  kept : r.task.state.terminal = false → r.task.intervalMilliseconds = interval
  later : r.task.state = .running → r.routine ≠ .executing →
    ended + interval * 1000000 ≤ r.task.nextRunAt

theorem RuntimeTask.Rests.of_not_running {interval ended : Int} {r : RuntimeTask}
    (hinterval : r.task.state.terminal = false → r.task.intervalMilliseconds = interval)
    (h : r.task.state ≠ .running) : r.Rests interval ended :=
  ⟨hinterval, fun hrunning => absurd hrunning h⟩

theorem Turn.rests {s : Service} {i : Service.Input} {r r' : RuntimeTask} (h : Turn s i r r')
    {interval ended : Int} (hrests : r.Rests interval ended)
    (hreading : ∀ t ∈ i.reading, ended ≤ t)
    (hrestarts : Service.restarts r.task.id s i = false) : r'.Rests interval ended := by
  cases h with
  | pauses => exact .of_not_running (fun _ => hrests.kept ‹_›) (by simp [Manager.signal, Task.changeState])
  | resumes hactive hid hok => simp [Service.restarts, Service.resumes, hid, hok] at hrestarts
  | runsNow hactive hid hok => simp [Service.restarts, hid, hok] at hrestarts
  | cancels => exact ⟨hrests.kept, hrests.later⟩
  | waits hdeciding =>
      exact ⟨hrests.kept, fun hrunning _ => hrests.later hrunning (by simp [hdeciding])⟩
  | leaves hout => exact ⟨hrests.kept, fun hrunning _ => hrests.later hrunning hout⟩
  | wakes hwaiting =>
      exact ⟨hrests.kept, fun hrunning _ => hrests.later hrunning (by simp [hwaiting])⟩
  | fires hwaiting =>
      exact ⟨hrests.kept, fun hrunning _ => hrests.later hrunning (by simp [hwaiting])⟩
  | declines hbeginning =>
      exact ⟨hrests.kept, fun hrunning _ => hrests.later hrunning (by simp [hbeginning])⟩
  | begins => exact ⟨hrests.kept, fun _ hout => absurd rfl hout⟩
  | settles hactive hid hexecuting =>
      rename_i clk id result fate canceled
      have hinterval := hrests.kept hactive
      refine ⟨fun _ => by simpa using hinterval, fun hrunning _ => ?_⟩
      have : ended ≤ clk.now := hreading _ rfl
      rw [Task.settle_nextRunAt hrunning, hinterval]
      omega
  | degrades hactive =>
      exact .of_not_running (fun _ => hrests.kept hactive) (by simp [Task.degraded])
  | ends hid hover =>
      refine .of_not_running (fun hactive => ?_) (State.ne_running_of_terminal hover)
      rw [hover] at hactive
      cases hactive

namespace Service

variable {s : Service}

/-- The task of an identifier rests. -/
def Rests (id : String) (interval ended : Int) (s : Service) : Prop :=
  ∃ r, s.manager.tasks.get? id = some r ∧ r.Rests interval ended

theorem Rests.step {i : Input} {id : String} {interval ended : Int} (h : Rests id interval ended s)
    (hreading : ∀ t ∈ i.reading, ended ≤ t) (hrestarts : restarts id s i = false) :
    Rests id interval ended (s.step i) := by
  obtain ⟨r, hr, hrests⟩ := h
  have hturned := turns s i id
  rw [hr] at hturned
  rcases hturned.exists_of_some with hsame | ⟨r', hr', hturn⟩
  · exact ⟨r, hsame, hrests⟩
  · refine ⟨r', hr', hturn.rests hrests hreading ?_⟩
    rw [show r.task.id = id from Table.key_of_get? hr]
    exact hrestarts

/-- In a run whose readings do not go back and in which no execution ends with a
signal left for its running task, every execution begins when the task is due,
and not less than the interval after the end of another, where the task has
taken neither `Resume` nor `RunNow` in between. -/
theorem run_onTime (h : s.Started) {is : List Input}
    (hclock : (is.filterMap Input.reading).Pairwise (· ≤ ·))
    (hdrained : Along step (fun s i => s.leavesSignal i = false) s is) :
    Along step (fun s i => s.onTime i = true) s is ∧
    ∀ front clk id result fate middle clk' fate' rest,
      is = front ++ .finish clk id result fate :: (middle ++ .begin clk' id fate' :: rest) →
      ∀ r, (s.run front).manager.tasks.get? id = some r → r.routine = .executing →
        Along step (fun s i => restarts id s i = false)
          (s.run (front ++ [.finish clk id result fate])) middle →
        ((s.run (front ++ .finish clk id result fate :: middle)).manager.beginExecution
          clk' id fate').2 = true →
        clk.now + r.task.intervalMilliseconds * 1000000 ≤ clk'.now := by
  have honTime : Along step (fun s i => s.onTime i = true) s is := by
    refine Scheduled.run (h.scheduled ((is.filterMap Input.reading).headD 0)) ?_ hdrained
    cases hreadings : is.filterMap Input.reading with
    | nil => simp
    | cons t ts =>
        rw [hreadings] at hclock
        refine List.pairwise_cons.2 ⟨?_, hclock⟩
        intro t' ht'
        rcases List.mem_cons.1 ht' with rfl | ht'
        · exact Int.le_refl _
        · exact (List.pairwise_cons.1 hclock).1 t' ht'
  refine ⟨honTime, ?_⟩
  rintro front clk id result fate middle clk' fate' rest rfl r hr hexecuting hquiet hbegins
  rw [List.filterMap_append, List.filterMap_cons_some (show Input.reading _ = some clk.now from rfl),
    List.pairwise_append] at hclock
  have hlater := (List.pairwise_cons.1 hclock.2.1).1
  rw [List.filterMap_append] at hlater
  -- from the end of the execution on, the task rests
  have hrests : Rests id r.task.intervalMilliseconds clk.now
      (s.run (front ++ .finish clk id result fate :: middle)) := by
    rw [show s.run (front ++ .finish clk id result fate :: middle) =
      (.finish clk id result fate :: middle).foldl step (s.run front) from List.foldl_append ..]
    refine Along.invariant (fun _ _ h hi => Rests.step h hi.1 hi.2)
      ⟨r, hr, fun _ => rfl, fun _ hout => absurd hexecuting hout⟩
      ((Along.of_forall (P := fun i => ∀ t ∈ i.reading, clk.now ≤ t) ?_).and ⟨rfl, ?_⟩)
    · intro i hi t ht
      rcases List.mem_cons.1 hi with rfl | hi
      · obtain rfl := Option.some.inj ht
        exact Int.le_refl _
      · exact hlater t (List.mem_append_left _ (List.mem_filterMap.2 ⟨i, hi, ht⟩))
    · rw [run, List.foldl_append] at hquiet
      exact hquiet
  obtain ⟨r', hr', hrests⟩ := hrests
  rcases Manager.beginExecution_cases _ clk' id fate' with
    ⟨-, r'', hr'', hrunning, hbeginning, -⟩ | ⟨hrefuses, -⟩
  · rw [hr'] at hr''
    cases hr''
    rw [show front ++ .finish clk id result fate :: (middle ++ .begin clk' id fate' :: rest) =
      (front ++ .finish clk id result fate :: middle) ++ .begin clk' id fate' :: rest by simp]
      at honTime
    have hdue := (Along.append.1 honTime).2.1
    simp only [onTime, show List.foldl step s _ = s.run _ from rfl, hbegins, hr'] at hdue
    have hdue : r'.task.nextRunAt ≤ clk'.now := by simp at hdue; exact hdue.2
    exact (hrests.later hrunning (by simp [hbeginning])).trans hdue
  · rw [hrefuses] at hbegins
    cases hbegins

/-- The first execution of a task that runs every ten seconds begins. -/
def firstBegins : List Input :=
  let clk : Clock := ⟨100 * minute, 0, started_hundred⟩
  [.registerSource "source",
    .create clk "task" "source" ⟨10 * 1000000000, 0, "preserve", true, 0, 0, 0, 0⟩ .written,
    .next clk "task" .written, .fires clk.now "task", .begin clk "task" .written]

def firstEnds : Input :=
  .finish ⟨101 * minute, 0, started_later⟩ "task" ⟨"execution", true, 200, "", 0, 0, 0, false⟩ .written

/-- The timer of the next run fires. -/
def timerFires : List Input :=
  [.next ⟨101 * minute, 0, started_later⟩ "task" .written, .fires (102 * minute) "task"]

def secondBegins : Input := .begin ⟨102 * minute, 0, by decide⟩ "task" .written

theorem run_onTime_timerFires :
    Along step (fun s i => s.onTime i = true) { manager := {} }
        (firstBegins ++ firstEnds :: (timerFires ++ [secondBegins])) ∧
      101 * minute + 10 * 1000000000 ≤ 102 * minute := by
  have hclock : ((firstBegins ++ firstEnds :: (timerFires ++ [secondBegins])).filterMap
      Input.reading).Pairwise (· ≤ ·) := by decide +kernel
  obtain ⟨honTime, hapart⟩ := run_onTime .volatile hclock (by decide +kernel)
  refine ⟨honTime, ?_⟩
  have hexecuting : ((run { manager := {} } firstBegins).manager.tasks.get? "task").any (fun r =>
      r.routine = .executing ∧ r.task.intervalMilliseconds = 10000) = true := by decide +kernel
  obtain ⟨r, hr, hr'⟩ := (Option.any_eq_true _ _).1 hexecuting
  rw [decide_eq_true_eq] at hr'
  have := hapart firstBegins _ "task" _ _ timerFires _ _ [] rfl r hr hr'.1 (by decide +kernel)
    (by decide +kernel)
  rw [hr'.2] at this
  exact this

/-- `RunNow` is called while the first execution is under way: its signal is
taken when the execution has ended, and the second begins at once, ten seconds
before it is due. -/
theorem begins_early :
    let early : List Input :=
      firstBegins ++ [.runNow ⟨101 * minute, 0, started_later⟩ "task" .written, firstEnds,
        .next ⟨101 * minute, 0, started_later⟩ "task" .written, .woken "task"]
    let begins : Input := .begin ⟨101 * minute, 0, started_later⟩ "task" .written
    ((early ++ [begins]).filterMap Input.reading).Pairwise (· ≤ ·) ∧
      ((run { manager := {} } early).manager.tasks.get? "task").any
        (fun r => r.task.nextRunAt = 101 * minute + 10 * 1000000000) = true ∧
      (run { manager := {} } (early ++ [begins])).begun = ["task", "task"] ∧
      ¬Along step (fun s i => s.onTime i = true) { manager := {} } (early ++ [begins]) := by
  decide +kernel

end Service

end RelayLifeline.Repeat
