import Mathlib.Data.List.Induction
import RelayLifeline.Lib.Trace
import RelayLifeline.Repeat.Effects

/-!
# Continuous tasks: what holds of every one of them

The invariants of a task are kept by everything an input can make of it: its
executions are its successes and failures, it never has more of them than it
may, a task that is over stays as it is, and a source has one task at most that
is not. The goroutine of a task is in the executor exactly as often as the
service counts it there, which is at most once.

The tasks a new manager restores are over and have no goroutine, and their
counts are what the journal says, so the journals a manager leaves behind are
part of what is kept.
-/

namespace RelayLifeline.Repeat

open Lib Journal

/-! ## One task -/

/-- The counts of a task. -/
structure Task.Sound (t : Task) : Prop where
  outcomes : t.executions = t.successes + t.failures
  within : 0 < t.maxExecutions → t.executions ≤ t.maxExecutions

/-- The counts of a task and, while its goroutine is in the executor, that there
is room for one execution more. -/
structure RuntimeTask.Sound (r : RuntimeTask) : Prop where
  task : r.task.Sound
  room : r.routine = .executing → r.task.state.terminal = false → 0 < r.task.maxExecutions →
    r.task.executions < r.task.maxExecutions

theorem Task.new_sound (now : Int) (id sourceID : String) (input : CreateInput) :
    (Task.new now id sourceID input).Sound :=
  ⟨rfl, fun h => Int.le_of_lt h⟩

theorem Task.room_of_left {t : Task} (h : t.usedUp = false) (hmax : 0 < t.maxExecutions) :
    t.executions < t.maxExecutions := by
  simp only [Task.usedUp, decide_eq_false_iff_not, not_and] at h
  have := h hmax
  omega

namespace Moves

variable {i : Service.Input} {r : RuntimeTask} {t : Task} {routine : Routine}

theorem source_eq (h : Moves i r t routine) : t.sourceRequestID = r.task.sourceRequestID := by
  cases h with
  | settle => exact (Task.settle_counted _ _ _).source
  | _ => rfl

/-- A task that is over stays as it is. -/
theorem state_of_terminal (h : Moves i r t routine) (hover : r.task.state.terminal = true) :
    t.state = r.task.state := by
  cases h with
  | pause hactive => simp [hactive] at hover
  | resume hactive => simp [hactive] at hover
  | runNow hactive => simp [hactive] at hover
  | stop hactive => simp [hactive] at hover
  | interrupt hactive => simp [hactive] at hover
  | expire hrunning => simp [hrunning, State.terminal] at hover
  | degrade hactive => simp [hactive] at hover
  | settle hactive => simp [hactive] at hover
  | unsettle hactive => simp [hactive] at hover
  | _ => rfl

theorem active_of_active (h : Moves i r t routine) (hactive : t.state.terminal = false) :
    r.task.state.terminal = false := by
  cases hover : r.task.state.terminal with
  | false => rfl
  | true => rw [h.state_of_terminal hover, hover] at hactive; exact hactive

theorem sound (h : Moves i r t routine) (hsound : r.Sound) :
    ∀ canceled wake, RuntimeTask.Sound ⟨t, canceled, wake, routine⟩ := by
  obtain ⟨⟨houtcomes, hwithin⟩, hroom⟩ := hsound
  intro canceled wake
  cases h with
  | pause hactive => exact ⟨⟨houtcomes, hwithin⟩, fun hex _ => hroom hex hactive⟩
  | resume hactive => exact ⟨⟨houtcomes, hwithin⟩, fun hex _ => hroom hex hactive⟩
  | runNow hactive => exact ⟨⟨houtcomes, hwithin⟩, fun hex _ => hroom hex hactive⟩
  | stop hactive => exact ⟨⟨houtcomes, hwithin⟩, fun hex _ => hroom hex hactive⟩
  | interrupt hactive => exact ⟨⟨houtcomes, hwithin⟩, fun hex _ => hroom hex hactive⟩
  | cancel => exact ⟨⟨houtcomes, hwithin⟩, hroom⟩
  | goes _ henters => exact ⟨⟨houtcomes, hwithin⟩, fun hex => absurd hex henters⟩
  | expire _ _ henters => exact ⟨⟨houtcomes, hwithin⟩, fun hex => absurd hex henters⟩
  | degrade _ _ henters => exact ⟨⟨houtcomes, hwithin⟩, fun hex => absurd hex henters⟩
  | begin _ _ hleft => exact ⟨⟨houtcomes, hwithin⟩, fun _ _ => Task.room_of_left hleft⟩
  | settle hactive hexecuting =>
      rename_i clk id result fate
      obtain ⟨-, -, hmax, hexecutions, hcounted⟩ := r.task.settle_counted clk.now result
      have hroom := hroom hexecuting hactive
      refine ⟨⟨by dsimp only; omega, fun h => ?_⟩, fun hex => by cases hex⟩
      dsimp only at h ⊢
      rw [hmax] at h ⊢
      have := hroom h
      omega
  | unsettle => exact ⟨⟨houtcomes, hwithin⟩, fun hex => by cases hex⟩
  | past => exact ⟨⟨houtcomes, hwithin⟩, fun hex => by cases hex⟩

end Moves

/-! ## All tasks -/

/-- A source has one task at most that is not over. -/
def Single (tasks : Table RuntimeTask) : Prop :=
  ∀ r ∈ tasks.items, ∀ r' ∈ tasks.items, r.task.sourceRequestID = r'.task.sourceRequestID →
    r.task.state.terminal = false → r'.task.state.terminal = false → r = r'

theorem Single.move {tasks : Table RuntimeTask} {i : Service.Input} {r r' : RuntimeTask}
    (h : Single tasks) (hr : tasks.get? r.task.id = some r)
    (hmoves : Moves i r r'.task r'.routine) : Single (tasks.set r') := by
  have hmem := Table.mem_of_get? hr
  have hother : ∀ a ∈ tasks.items, key a ≠ key r' → a.task.sourceRequestID = r'.task.sourceRequestID →
      a.task.state.terminal = false → r'.task.state.terminal = false → False := by
    intro a ha hne hsource hactive hactive'
    refine hne ?_
    rw [h a ha r hmem (hsource.trans hmoves.source_eq) hactive (hmoves.active_of_active hactive')]
    exact hmoves.id_eq.symm
  intro a ha b hb hsource hactive hactive'
  rcases Table.mem_set.1 ha with rfl | ⟨hold, hne⟩
  · rcases Table.mem_set.1 hb with rfl | ⟨hold, hne⟩
    · rfl
    · exact (hother b hold hne hsource.symm hactive' hactive).elim
  · rcases Table.mem_set.1 hb with rfl | ⟨hold', -⟩
    · exact (hother a hold hne hsource hactive hactive').elim
    · exact h a hold b hold' hsource hactive hactive'

theorem Single.create {m : Manager} {sourceID : String} {r : RuntimeTask} (h : Single m.tasks)
    (hsource : r.task.sourceRequestID = sourceID) (hbusy : m.hasActiveTask sourceID = false) :
    Single (m.tasks.set r) := by
  have hother : ∀ a ∈ m.tasks.items, a.task.sourceRequestID = r.task.sourceRequestID →
      a.task.state.terminal = false → False := by
    intro a ha heq hactive
    simp only [Manager.hasActiveTask, List.any_eq_false, decide_eq_true_eq] at hbusy
    exact hbusy a ha ⟨heq.trans hsource, by simp [hactive]⟩
  intro a ha b hb heq hactive hactive'
  rcases Table.mem_set.1 ha with rfl | ⟨hold, -⟩
  · rcases Table.mem_set.1 hb with rfl | ⟨hold, -⟩
    · rfl
    · exact (hother b hold heq.symm hactive').elim
  · rcases Table.mem_set.1 hb with rfl | ⟨hold', -⟩
    · exact (hother a hold heq hactive).elim
    · exact h a hold b hold' heq hactive hactive'

/-- The counts of every task and of every snapshot of one. -/
def Sound (tasks : Table RuntimeTask) (journal : Option (Log Task)) : Prop :=
  (∀ r ∈ tasks.items, r.Sound) ∧ ∀ log ∈ journal, ∀ line ∈ log.lines, line.payload.Sound

theorem Sound.append {tasks : Table RuntimeTask} {journal : Option (Log Task)} {line : Line Task}
    (h : Sound tasks journal) (hline : line.payload.Sound) (fate : Fate) :
    Sound tasks (journal.map fun log => (log.append line fate).1) := by
  refine ⟨h.1, ?_⟩
  intro log hlog l hl
  obtain ⟨before, hbefore, rfl⟩ := Option.map_eq_some_iff.1 hlog
  rcases Log.mem_append hl with hl | rfl
  · exact h.2 before hbefore l hl
  · exact hline

theorem Sound.set {tasks : Table RuntimeTask} {journal : Option (Log Task)} {r : RuntimeTask}
    (h : Sound tasks journal) (hr : r.Sound) : Sound (tasks.set r) journal := by
  refine ⟨?_, h.2⟩
  intro a ha
  rcases Table.mem_set.1 ha with rfl | ⟨ha, -⟩
  · exact hr
  · exact h.1 a ha

namespace Service

theorem sound_step {s : Service} {i : Input} (h : Sound s.manager.tasks s.manager.journal) :
    Sound (s.step i).manager.tasks (s.step i).manager.journal := by
  refine tasks_step (P := Sound) ?_ ?_ ?_ h
  · intro tasks journal r r' h hr hmoves
    exact h.set (hmoves.sound (h.1 r (Table.mem_of_get? hr)) r'.canceled r'.wake)
  · intro tasks journal r t routine stamp fate h hr hmoves
    exact h.append (hmoves.sound (h.1 r (Table.mem_of_get? hr)) false false).task fate
  · intro clk id sourceID input fate _ _ _
    have hnew := Task.new_sound clk.now id sourceID input
    refine ⟨h.append hnew fate, fun journal h => h.set ⟨hnew, fun hex => ?_⟩⟩
    cases hex

theorem single_step {s : Service} {i : Input} (h : Single s.manager.tasks) :
    Single (s.step i).manager.tasks := by
  refine tasks_step_of ?_ ?_ h
  · intro tasks r r' h hr hmoves
    exact h.move hr hmoves
  · intro clk id sourceID input fate _ _ hbusy
    exact h.create rfl hbusy

/-! ## The executor -/

theorem inExecutor_set (tasks : Table RuntimeTask) (r : RuntimeTask) (id : String) :
    inExecutor (tasks.set r) id =
      if id = r.task.id then decide (r.routine = .executing) else inExecutor tasks id := by
  simp only [inExecutor]
  split
  · next heq =>
      rw [heq, show r.task.id = key r from rfl, Table.get?_set_self]
      rfl
  · next hne => rw [Table.get?_set_of_ne hne]

/-- Putting a task back with its goroutine where it was changes nothing here. -/
theorem inExecutor_set_of_iff {tasks : Table RuntimeTask} {r r' : RuntimeTask}
    (hr : tasks.get? r.task.id = some r) (hid : r'.task.id = r.task.id)
    (hroutine : r'.routine = .executing ↔ r.routine = .executing) :
    inExecutor (tasks.set r') = inExecutor tasks := by
  funext id
  rw [inExecutor_set]
  split
  · next heq => simp [inExecutor, heq, hid, hr, hroutine]
  · rfl

theorem step_begin {s : Service} {clk : Clock} {id : String} {fate : Fate}
    (h : (s.manager.beginExecution clk id fate).2 = true) :
    s.step (.begin clk id fate) =
      { manager := (s.manager.beginExecution clk id fate).1
        executing := id :: s.executing, begun := id :: s.begun } := by
  simp only [step]
  rw [if_pos h]

theorem step_begin_of_not {s : Service} {clk : Clock} {id : String} {fate : Fate}
    (h : (s.manager.beginExecution clk id fate).2 = false) :
    s.step (.begin clk id fate) =
      { s with manager := (s.manager.beginExecution clk id fate).1 } := by
  simp only [step]
  rw [if_neg (by simp [h])]

/-- The service counts the goroutines in the executor. -/
def Counts (s : Service) : Prop :=
  ∀ id, s.executing.count id = (inExecutor s.manager.tasks id).toNat

theorem begin_counts {s : Service} (clk : Clock) (id : String) (fate : Fate) (h : s.Counts) :
    (s.step (.begin clk id fate)).Counts := by
  rcases Manager.beginExecution_cases s.manager clk id fate with
    ⟨hbegins, r, hr, -, hbeginning, htasks⟩ |
      ⟨hbegins, hsame | ⟨r, r', hr, hbeginning, hid, hdeciding, htasks⟩⟩
  · have hrid : r.task.id = id := Table.key_of_get? hr
    rw [step_begin hbegins]
    intro id'
    dsimp only
    rw [htasks, inExecutor_set, show (r.task.begin clk.now).id = id from hrid, List.count_cons,
      h id']
    by_cases heq : id' = id
    · simp [heq, inExecutor, hr, hbeginning]
    · simp [heq, Ne.symm heq]
  · rw [step_begin_of_not hbegins]
    intro id'
    dsimp only
    rw [hsame]
    exact h id'
  · rw [step_begin_of_not hbegins]
    intro id'
    dsimp only
    rw [htasks, inExecutor_set_of_iff (Manager.get?_task hr)
      (hid.trans (Table.key_of_get? hr).symm) (by simp [hdeciding, hbeginning])]
    exact h id'

theorem finish_counts {s : Service} (clk : Clock) (id : String) (result : Execution) (fate : Fate)
    (h : s.Counts) : (s.step (.finish clk id result fate)).Counts := by
  intro id'
  dsimp only [step]
  rcases Manager.finishExecution_cases s.manager clk id result fate with
    ⟨hsame, hidle⟩ | ⟨r, r', hr, hexecuting, hid, hdeciding, htasks⟩
  · have hout : inExecutor s.manager.tasks id = false := by
      simp only [inExecutor]
      cases hget : s.manager.tasks.get? id with
      | none => rfl
      | some r => simpa using hidle r hget
    rw [hsame, if_neg (by simp [hout])]
    exact h id'
  · have hin : inExecutor s.manager.tasks id = true := by simp [inExecutor, hr, hexecuting]
    rw [htasks, if_pos hin, inExecutor_set, hid]
    by_cases heq : id' = id
    · have := h id
      rw [hin] at this
      simp [heq, hdeciding, List.count_erase_self, this]
    · rw [List.count_erase_of_ne heq, h id', if_neg heq]

theorem counts_step {s : Service} (i : Input) (h : s.Counts) : (s.step i).Counts := by
  -- an input other than `begin` and `finish` leaves every goroutine in the executor or out of it
  have hquiet : (∀ r t routine, Moves i r t routine → (routine = .executing ↔ r.routine = .executing)) →
      inExecutor (s.step i).manager.tasks = inExecutor s.manager.tasks := by
    intro hmoves
    refine tasks_step_of (P := fun tasks => inExecutor tasks = inExecutor s.manager.tasks) ?_ ?_ rfl
    · intro tasks r r' h hr hm
      rw [inExecutor_set_of_iff hr hm.id_eq (hmoves _ _ _ hm)]
      exact h
    · intro clk id sourceID input fate _ hnone _
      funext id'
      rw [inExecutor_set]
      split
      · next heq => rw [heq]; simp [inExecutor, Task.new, hnone]
      · rfl
  cases i with
  | begin clk id fate => exact begin_counts clk id fate h
  | finish clk id result fate => exact finish_counts clk id result fate h
  | create clk id sourceID input fate =>
      intro id'
      rw [hquiet (by intro r t routine hm; cases hm <;> simp_all)]
      simp only [step]
      split <;> exact h id'
  | _ =>
      intro id'
      rw [hquiet (by intro r t routine hm; cases hm <;> simp_all)]
      exact h id'

end Service

/-! ## Restored tasks -/

namespace Manager

theorem mem_load (lines : List (Line Task)) :
    ∀ r ∈ (load lines).items, ∃ line ∈ lines, r = { task := line.payload } := by
  unfold load
  induction lines using List.reverseRecOn with
  | nil => simp
  | append_singleton lines line ih =>
      rw [List.foldl_append]
      intro r hr
      rcases Table.mem_set.1 hr with rfl | ⟨hr, -⟩
      · exact ⟨line, by simp, rfl⟩
      · obtain ⟨l, hl, heq⟩ := ih r hr
        exact ⟨l, by simp [hl], heq⟩

/-- What one task that is restored becomes. -/
theorem interruptTask_cases (state : Manager × Bool) (r : RuntimeTask) (answer : Clock × Fate) :
    (interruptTask state r answer = state ∧ (state.2 = true → r.task.state.terminal = true)) ∨
    (state.2 = true ∧ ∃ now stamp fate,
      (interruptTask state r answer).1.tasks =
        state.1.tasks.set { r with task := r.task.interrupt now } ∧
      (interruptTask state r answer).1.journal = state.1.journal.map fun log =>
        (log.append ⟨stamp, r.task.id, r.task.interrupt now⟩ fate).1) := by
  simp only [interruptTask]
  split
  · next hstop =>
      refine .inl ⟨rfl, fun hgoes => ?_⟩
      simpa [hgoes] using hstop
  · next hgo =>
      refine .inr ⟨?_, answer.1.now, answer.1.stamp, answer.2, rfl, ?_⟩
      · by_contra hnot
        exact hgo (.inl (by simpa using hnot))
      · exact append_journal ..

/-- What holds while the tasks are restored. -/
structure Restoring (state : Manager × Bool) : Prop where
  sound : Sound state.1.tasks state.1.journal
  gone : ∀ r ∈ state.1.tasks.items, r.routine = .gone

/-- The task is over, unless the manager has given up before it. -/
def Over (state : Manager × Bool) (r : RuntimeTask) : Prop :=
  state.2 = true → ∃ r', state.1.tasks.get? (key r) = some r' ∧ r'.task.state.terminal = true

theorem Restoring.load {journal : Log Task}
    (h : ∀ line ∈ journal.lines, line.payload.Sound) :
    Restoring ({ tasks := load journal.lines, journal := some journal }, true) where
  sound := by
    refine ⟨?_, ?_⟩
    · intro r hr
      obtain ⟨line, hline, rfl⟩ := mem_load _ r hr
      exact ⟨h line hline, fun hex => by cases hex⟩
    · rintro log ⟨rfl⟩
      exact h
  gone := by
    intro r hr
    obtain ⟨line, -, rfl⟩ := mem_load _ r hr
    rfl

theorem Restoring.turn {state : Manager × Bool} {r : RuntimeTask} (answer : Clock × Fate)
    (h : Restoring state) (hr : state.1.tasks.get? (key r) = some r) :
    Restoring (interruptTask state r answer) ∧ Over (interruptTask state r answer) r ∧
      (∀ k, k ≠ key r → (interruptTask state r answer).1.tasks.get? k = state.1.tasks.get? k) ∧
      ∀ b, key b ≠ key r → Over state b → Over (interruptTask state r answer) b := by
  rcases interruptTask_cases state r answer with
    ⟨heq, hover⟩ | ⟨hgoes, now, stamp, fate, htasks, hwritten⟩
  · rw [heq]
    exact ⟨h, fun hgoes => ⟨r, hr, hover hgoes⟩, fun _ _ => rfl, fun _ _ h => h⟩
  · have hold := h.sound.1 r (Table.mem_of_get? hr)
    have hgone := h.gone r (Table.mem_of_get? hr)
    have hnew : ({ r with task := r.task.interrupt now } : RuntimeTask).Sound := by
      refine ⟨⟨hold.task.outcomes, hold.task.within⟩, fun hex => ?_⟩
      rw [hgone] at hex
      cases hex
    have hother : ∀ k, k ≠ key r →
        (interruptTask state r answer).1.tasks.get? k = state.1.tasks.get? k := by
      intro k hk
      rw [htasks]
      exact Table.get?_set_of_ne hk
    refine ⟨⟨?_, ?_⟩, fun _ => ?_, hother, fun b hb hQ _ => ?_⟩
    · rw [htasks, hwritten]
      exact (h.sound.append hnew.task fate).set hnew
    · rw [htasks]
      intro a ha
      rcases Table.mem_set.1 ha with rfl | ⟨ha, -⟩
      · exact hgone
      · exact h.gone a ha
    · rw [htasks]
      exact ⟨_, Table.get?_set_self, rfl⟩
    · obtain ⟨r', hr', hover⟩ := hQ hgoes
      exact ⟨r', (hother _ hb).trans hr', hover⟩

/-- The tasks of a new manager have no goroutine, and are over where the manager
could interrupt them all. -/
theorem new_spec {journal : Log Task} (rank : String → Nat) (answers : String → Clock × Fate)
    (hjournal : ∀ line ∈ journal.lines, line.payload.Sound) :
    Restoring (new journal rank answers) ∧
      ((new journal rank answers).2 = true →
        ∀ r ∈ (new journal rank answers).1.tasks.items, r.task.state.terminal = true) := by
  obtain ⟨hend, hover, hothers, -⟩ := Table.foldl_each (T := fun state => state.1.tasks)
    (I := Restoring) (Q := Over)
    (f := fun state r => interruptTask state r (answers r.task.id))
    (fun state r h hr => h.turn (answers r.task.id) hr)
    (({ tasks := load journal.lines, journal := some journal } : Manager).ranged rank)
    (ranged_nodup _ _) (Restoring.load hjournal) (fun r hr => get?_of_ranged hr)
  refine ⟨hend, fun hgoes r hr => ?_⟩
  have hget := Table.get?_of_mem hr
  by_cases hkey : key r ∈
      (({ tasks := load journal.lines, journal := some journal } : Manager).ranged rank).map key
  · obtain ⟨a, ha, heq⟩ := List.mem_map.1 hkey
    obtain ⟨r', hr', hterminal⟩ := hover a ha hgoes
    rw [heq] at hr'
    rw [show r = r' from Option.some.inj (hget.symm.trans hr')]
    exact hterminal
  · refine absurd (List.mem_map_of_mem ((ranged_perm _ _).mem_iff.2 ?_)) hkey
    exact Table.mem_of_get? ((hothers _ hkey).symm.trans hget)

end Manager

namespace Service

/-- A service starts with a manager that keeps no journal, or with one that
restores the tasks of a journal whose snapshots count rightly. -/
inductive Started : Service → Prop
  | volatile : Started { manager := {} }
  | restored {journal : Log Task} {rank : String → Nat} {answers : String → Clock × Fate} {m : Manager}
      (hjournal : ∀ line ∈ journal.lines, line.payload.Sound)
      (hnew : Manager.new journal rank answers = (m, true)) : Started { manager := m }

/-- What holds of a service wherever a run has been. -/
structure Consistent (s : Service) : Prop where
  sound : Repeat.Sound s.manager.tasks s.manager.journal
  single : Single s.manager.tasks
  counts : s.Counts

theorem Started.consistent {s : Service} (h : s.Started) : s.Consistent := by
  cases h with
  | volatile => exact ⟨⟨by simp, by simp⟩, by simp [Single], fun id => rfl⟩
  | restored hjournal hnew =>
      rename_i journal rank answers m
      obtain ⟨⟨hsound, hgone⟩, hover⟩ := Manager.new_spec rank answers hjournal
      rw [hnew] at hsound hgone hover
      refine ⟨hsound, ?_, ?_⟩
      · intro r hr r' _ _ hactive
        rw [hover rfl r hr] at hactive
        cases hactive
      · intro id
        simp only [inExecutor]
        cases hget : m.tasks.get? id with
        | none => rfl
        | some r => simp [hgone r (Table.mem_of_get? hget)]

theorem Consistent.step {s : Service} (i : Input) (h : s.Consistent) : (s.step i).Consistent :=
  ⟨sound_step h.sound, single_step h.single, counts_step i h.counts⟩

theorem Started.consistent_run {s : Service} (h : s.Started) (is : List Input) :
    (s.run is).Consistent :=
  foldl_invariant (fun _ i => Consistent.step i) h.consistent is

/-! ## Tasks that are over -/

/-- The task is over, and has had `n` executions begun. -/
structure Ended (id : String) (state : State) (n : Nat) (s : Service) : Prop where
  task : ∃ r, s.manager.tasks.get? id = some r ∧ r.task.state = state
  begun : s.begun.count id = n

theorem begun_step {s : Service} {i : Input} {id : String} {r : RuntimeTask}
    (hr : s.manager.tasks.get? id = some r) (hstopped : r.task.state ≠ .running) :
    (s.step i).begun.count id = s.begun.count id := by
  cases i with
  | begin clk id' fate =>
      rcases Manager.beginExecution_cases s.manager clk id' fate with
        ⟨hbegins, r', hr', hrunning, -⟩ | ⟨hbegins, -⟩
      · rw [step_begin hbegins]
        refine List.count_cons_of_ne fun heq => hstopped ?_
        rw [heq, hr] at hr'
        rw [Option.some.inj hr', hrunning]
      · rw [step_begin_of_not hbegins]
  | create clk id' sourceID input fate =>
      simp only [step]
      split <;> rfl
  | _ => rfl

theorem Ended.step {id : String} {state : State} {n : Nat} {s : Service} (i : Input)
    (h : Ended id state n s) (hterminal : state.terminal = true) : Ended id state n (s.step i) := by
  obtain ⟨⟨r, hr, hstate⟩, hbegun⟩ := h
  refine ⟨?_, ?_⟩
  · refine tasks_step_of
      (P := fun tasks => ∃ r, tasks.get? id = some r ∧ r.task.state = state) ?_ ?_ ⟨r, hr, hstate⟩
    · rintro tasks a a' ⟨r, hr, hstate⟩ ha hmoves
      by_cases heq : id = a'.task.id
      · refine ⟨a', by rw [heq]; exact Table.get?_set_self, ?_⟩
        rw [heq, hmoves.id_eq, ha] at hr
        cases hr
        rw [hmoves.state_of_terminal (by rw [hstate]; exact hterminal), hstate]
      · exact ⟨r, by rw [Table.get?_set_of_ne heq]; exact hr, hstate⟩
    · intro clk id' sourceID input fate _ hnone _
      refine ⟨r, ?_, hstate⟩
      rw [Table.get?_set_of_ne]
      · exact hr
      · rintro rfl
        rw [show s.manager.tasks.get? _ = none from hnone] at hr
        cases hr
  · rw [begun_step hr ?_, hbegun]
    rintro hrunning
    rw [← hstate, hrunning] at hterminal
    cases hterminal

/-- The invariants of continuous tasks, wherever a run has been: the executor
runs once at most for a task; the executions of a task are its successes and
failures and no more than it may have; a source has one task at most that is not
over; and a task that is over keeps its state and has no execution begun. -/
theorem run_tasks {s : Service} (h : s.Started) (is : List Input) :
    (∀ id, (s.run is).executing.count id ≤ 1) ∧
    (∀ r ∈ (s.run is).manager.tasks.items,
      r.task.executions = r.task.successes + r.task.failures ∧
      (0 < r.task.maxExecutions → r.task.executions ≤ r.task.maxExecutions)) ∧
    (∀ r ∈ (s.run is).manager.tasks.items, ∀ r' ∈ (s.run is).manager.tasks.items,
      r.task.sourceRequestID = r'.task.sourceRequestID →
      r.task.state.terminal = false → r'.task.state.terminal = false → r = r') ∧
    ∀ front rest, is = front ++ rest → ∀ id r, (s.run front).manager.tasks.get? id = some r →
      r.task.state.terminal = true →
        (∃ r', (s.run is).manager.tasks.get? id = some r' ∧ r'.task.state = r.task.state) ∧
        (s.run is).begun.count id = (s.run front).begun.count id := by
  have hend := h.consistent_run is
  refine ⟨?_, ?_, hend.single, ?_⟩
  · intro id
    rw [hend.counts id]
    exact Bool.toNat_le _
  · intro r hr
    exact ⟨(hend.sound.1 r hr).task.outcomes, (hend.sound.1 r hr).task.within⟩
  · rintro front rest rfl id r hr hterminal
    have hended : Ended id r.task.state ((s.run front).begun.count id) (s.run (front ++ rest)) := by
      rw [show s.run (front ++ rest) = rest.foldl Service.step (s.run front) from
        List.foldl_append ..]
      exact foldl_invariant (fun _ i h => Ended.step i h hterminal) ⟨⟨r, hr, rfl⟩, rfl⟩ rest
    exact ⟨hended.task, hended.begun⟩

theorem started_hundred : minute ≤ 100 * minute := by decide

theorem started_later : minute ≤ 101 * minute := by decide

/-- A task that is stopped while its second execution is under way: the executor
returns to a task that stays stopped. -/
def stoppedInFlight : List Input :=
  let clk : Clock := ⟨100 * minute, 0, started_hundred⟩
  let later : Clock := ⟨101 * minute, 0, started_later⟩
  let result : Execution := ⟨"execution", true, 200, "", 0, 0, 0, false⟩
  [.registerSource "source",
    .create clk "task" "source" ⟨10 * 1000000000, 0, "preserve", true, 2, 0, 0, 0⟩ .written,
    .next clk "task" .written, .fires clk.now "task", .begin clk "task" .written,
    .finish clk "task" result .written, .next clk "task" .written, .fires later.now "task",
    .begin later "task" .written, .stop later "task" .written, .finish later "task" result .written]

theorem run_tasks_stoppedInFlight :
    (run { manager := {} } stoppedInFlight).executing.count "task" ≤ 1 ∧
      (run { manager := {} } stoppedInFlight).begun = ["task", "task"] ∧
      ((run { manager := {} } stoppedInFlight).manager.tasks.items.map fun r =>
        (r.task.state, r.task.executions)) = [(.stopped, 1)] :=
  ⟨(run_tasks .volatile stoppedInFlight).1 "task", by decide +kernel, by decide +kernel⟩

end Service

end RelayLifeline.Repeat
