import RelayLifeline.Proofs.Tasks

/-!
# The failure circuit of a continuous task

A circuit that opens pauses the task, and `beginExecution` goes by the pause
alone. So the circuit holds back executions as long as no call sets a task
running whose circuit it leaves open: `Resume` closes it, and `RunNow` does not.
Where no `RunNow` is taken by a task whose circuit is open, a task with an open
circuit is not running and its goroutine is not in the executor, and the
circuit stays open until a `Resume` is taken.
-/

namespace RelayLifeline.Repeat

open Lib Journal

/-- The task is not running while its circuit is open, and neither is an
execution of it. -/
def RuntimeTask.Guarded (r : RuntimeTask) : Prop :=
  r.task.circuitOpen = true → r.task.state ≠ .running ∧ r.routine ≠ .executing

theorem State.ne_running_of_terminal {state : State} (h : state.terminal = true) :
    state ≠ .running := by
  rintro rfl
  cases h

namespace Moves

variable {i : Service.Input} {r : RuntimeTask} {t : Task} {routine : Routine}

theorem guarded (h : Moves i r t routine) (hguarded : r.Guarded)
    (hrunNow : ∀ clk id fate, i = .runNow clk id fate → r.task.circuitOpen = false) :
    ∀ canceled wake, RuntimeTask.Guarded ⟨t, canceled, wake, routine⟩ := by
  intro canceled wake hopen
  cases h with
  | pause => exact ⟨by simp [Task.changeState], (hguarded hopen).2⟩
  | resume => cases hopen
  | runNow =>
      have hclosed : r.task.circuitOpen = false := hrunNow _ _ _ rfl
      rw [show r.task.circuitOpen = true from hopen] at hclosed
      cases hclosed
  | stop => exact ⟨by simp [Task.stop], (hguarded hopen).2⟩
  | interrupt => exact ⟨by simp [Task.interrupt], (hguarded hopen).2⟩
  | cancel => exact hguarded hopen
  | goes _ henters => exact ⟨(hguarded hopen).1, henters⟩
  | expire _ _ henters => exact ⟨by simp [Task.finish], henters⟩
  | degrade _ _ henters => exact ⟨by simp [Task.degraded], henters⟩
  | begin hrunning => exact absurd hrunning (hguarded hopen).1
  | settle hactive hexecuting =>
      rename_i clk id result fate
      refine ⟨?_, by simp⟩
      rcases (r.task.settle_limited clk.now result).circuit hopen with hwas | hpaused
      · exact absurd hexecuting (hguarded hwas).2
      · dsimp only
        rw [hpaused]
        simp
  | unsettle => exact ⟨by simp [Task.degraded], by simp⟩
  | past hover => exact ⟨State.ne_running_of_terminal hover, by simp⟩

/-- An open circuit stays open, but for a `Resume`. -/
theorem stays_open (h : Moves i r t routine) (hguarded : r.Guarded)
    (hopen : r.task.circuitOpen = true)
    (hresume : ∀ clk id fate, i ≠ .resume clk id fate) : t.circuitOpen = true := by
  cases h with
  | resume => exact absurd rfl (hresume _ _ _)
  | settle _ hexecuting => exact absurd hexecuting (hguarded hopen).2
  | _ => exact hopen

end Moves

namespace Manager

/-- The journal takes and acknowledges an append that goes so. -/
def acknowledges (m : Manager) (fate : Fate) : Bool :=
  m.journal.all fun log => !log.degraded ∧ fate = .written

theorem append_acknowledged {m : Manager} {clk : Clock} {task : Task} {fate : Fate}
    (h : (m.append clk task fate).2 = true) : m.acknowledges fate = true := by
  simp only [append] at h
  simp only [acknowledges]
  split at h
  · next hnone => rw [hnone]; rfl
  · next log hlog =>
      rw [hlog]
      rcases log.append_cases ⟨clk.stamp, task.id, task⟩ fate with
        ⟨hhealthy, hfate, -⟩ | ⟨hfailed, -⟩
      · simp [hhealthy, hfate]
      · rw [hfailed] at h
        cases h

/-- A method that changes a task changes the one it is called for, and only where
it answers with it. -/
theorem amend_cases (m : Manager) (clk : Clock) (id : String) (fate : Fate) (change : Task → Task)
    (after : RuntimeTask → RuntimeTask) :
    ((m.amend clk id fate change after).2.isOk = false ∧
      (m.amend clk id fate change after).1.tasks = m.tasks) ∨
    ((m.amend clk id fate change after).2.isOk = true ∧ m.acknowledges fate = true ∧
      ∃ r, m.tasks.get? id = some r ∧ r.task.state.terminal = false ∧
        (m.amend clk id fate change after).1.tasks =
          m.tasks.set (after { r with task := change r.task })) := by
  simp only [amend]
  split
  · exact .inl ⟨rfl, rfl⟩
  · next r hr =>
      split
      · exact .inl ⟨rfl, rfl⟩
      · next hactive =>
          split
          · next hacknowledged =>
              exact .inr ⟨rfl, append_acknowledged hacknowledged, r, hr, by simpa using hactive, rfl⟩
          · exact .inl ⟨rfl, append_tasks ..⟩

/-- A task that does not take the change is left as it is. -/
theorem amend_get? {m : Manager} {clk : Clock} {id id' : String} {fate : Fate}
    {change : Task → Task} {after : RuntimeTask → RuntimeTask}
    (hid : ∀ r : RuntimeTask, (after { r with task := change r.task }).task.id = r.task.id)
    (h : id' = id → (m.amend clk id' fate change after).2.isOk = false) :
    (m.amend clk id' fate change after).1.tasks.get? id = m.tasks.get? id := by
  rcases m.amend_cases clk id' fate change after with ⟨-, hsame⟩ | ⟨hok, -, r, hr, -, htasks⟩
  · rw [hsame]
  · rw [htasks]
    refine Table.get?_set_of_ne ?_
    rintro rfl
    rw [h ((Table.key_of_get? hr).symm.trans (hid r).symm)] at hok
    cases hok

end Manager

namespace Service

/-- `RunNow` is called, and its append acknowledged, for a task that is not over
and has its circuit open. -/
def runsOpen (s : Service) : Input → Bool
  | .runNow _ id fate =>
      s.manager.acknowledges fate ∧
        (s.manager.tasks.get? id).any fun r => !r.task.state.terminal && r.task.circuitOpen
  | _ => false

/-- The task takes `Resume`. -/
def resumes (id : String) (s : Service) : Input → Bool
  | .resume clk id' fate => id' = id ∧ (s.manager.resume clk id' fate).2.isOk
  | _ => false

/-- Every task is guarded. -/
def Guarded (s : Service) : Prop := ∀ r ∈ s.manager.tasks.items, r.Guarded

theorem Guarded.step {s : Service} {i : Input} (h : s.Guarded) (hi : s.runsOpen i = false) :
    (s.step i).Guarded := by
  have hset : ∀ (tasks : Table RuntimeTask) (r' : RuntimeTask), (∀ r ∈ tasks.items, r.Guarded) →
      r'.Guarded → ∀ r ∈ (tasks.set r').items, r.Guarded := by
    intro tasks r' h hr' a ha
    rcases Table.mem_set.1 ha with rfl | ⟨ha, -⟩
    · exact hr'
    · exact h a ha
  by_cases hrunNow : ∃ clk id fate, i = .runNow clk id fate
  · obtain ⟨clk, id, fate, rfl⟩ := hrunNow
    rcases s.manager.amend_cases clk id fate (fun t => t.runNow clk.now) Manager.signal with
      ⟨-, hsame⟩ | ⟨-, hacknowledged, r, hr, hactive, htasks⟩
    · intro r hr
      exact h r (by rw [← hsame]; exact hr)
    · have hclosed : r.task.circuitOpen = false := by
        simpa [runsOpen, hacknowledged, hr, hactive] using hi
      intro a ha
      refine hset s.manager.tasks _ h ?_ a (by rw [← htasks]; exact ha)
      intro hopen
      rw [show r.task.circuitOpen = true from hopen] at hclosed
      cases hclosed
  · refine tasks_step_of (P := fun tasks => ∀ r ∈ tasks.items, r.Guarded) ?_ ?_ h
    · intro tasks r r' h hr hmoves
      refine hset tasks r' h (hmoves.guarded (h r (Table.mem_of_get? hr)) ?_ r'.canceled r'.wake)
      intro clk id fate hi
      exact absurd ⟨clk, id, fate, hi⟩ hrunNow
    · intro clk id sourceID input fate _ _ _
      exact hset _ _ h fun hopen => by cases hopen

/-- The circuit of the task is open, and `n` executions of it have begun. -/
structure Open (id : String) (n : Nat) (s : Service) : Prop where
  guarded : s.Guarded
  task : ∃ r, s.manager.tasks.get? id = some r ∧ r.task.circuitOpen = true
  begun : s.begun.count id = n

theorem Open.step {id : String} {n : Nat} {s : Service} {i : Input} (h : Open id n s)
    (hrunNow : s.runsOpen i = false) (hresume : resumes id s i = false) : Open id n (s.step i) := by
  obtain ⟨hguarded, ⟨r, hr, hopen⟩, hbegun⟩ := h
  refine ⟨hguarded.step hrunNow, ?_, ?_⟩
  · by_cases hquiet : ∀ clk id fate, i ≠ .resume clk id fate ∧ i ≠ .runNow clk id fate
    · refine (tasks_step_of
        (P := fun tasks => (∀ r ∈ tasks.items, r.Guarded) ∧
          ∃ r, tasks.get? id = some r ∧ r.task.circuitOpen = true) ?_ ?_ ⟨hguarded, r, hr, hopen⟩).2
      · rintro tasks a a' ⟨hguarded, r, hr, hopen⟩ ha hmoves
        have hagrees := hguarded a (Table.mem_of_get? ha)
        refine ⟨?_, ?_⟩
        · intro b hb
          rcases Table.mem_set.1 hb with rfl | ⟨hb, -⟩
          · exact hmoves.guarded hagrees (fun clk id fate hi => absurd hi (hquiet clk id fate).2) _ _
          · exact hguarded b hb
        · by_cases heq : id = a'.task.id
          · refine ⟨a', by rw [heq]; exact Table.get?_set_self, ?_⟩
            rw [heq, hmoves.id_eq, ha] at hr
            cases hr
            exact hmoves.stays_open hagrees hopen fun clk id fate => (hquiet clk id fate).1
          · exact ⟨r, by rw [Table.get?_set_of_ne heq]; exact hr, hopen⟩
      · intro clk id' sourceID input fate _ hnone _
        refine ⟨?_, r, ?_, hopen⟩
        · intro b hb
          rcases Table.mem_set.1 hb with rfl | ⟨hb, -⟩
          · intro hopen
            cases hopen
          · exact hguarded b hb
        · rw [Table.get?_set_of_ne]
          · exact hr
          · rintro rfl
            rw [show s.manager.tasks.get? _ = none from hnone] at hr
            cases hr
    · -- a task with an open circuit takes neither call
      refine ⟨r, ?_, hopen⟩
      push Not at hquiet
      obtain ⟨clk, id', fate, hi⟩ := hquiet
      by_cases hresumed : i = .resume clk id' fate
      · subst hresumed
        refine (Manager.amend_get? (fun _ => rfl) fun heq => ?_).trans hr
        by_contra hok
        rw [Bool.not_eq_false] at hok
        simp only [resumes, decide_eq_false_iff_not, not_and] at hresume
        exact hresume heq hok
      · obtain rfl := hi hresumed
        refine (Manager.amend_get? (fun _ => rfl) fun heq => ?_).trans hr
        subst heq
        rcases s.manager.amend_cases clk id' fate (fun t => t.runNow clk.now) Manager.signal with
          ⟨hrefused, -⟩ | ⟨-, hacknowledged, r', hr', hactive, -⟩
        · exact hrefused
        · rw [hr] at hr'
          cases hr'
          simp [runsOpen, hacknowledged, hr, hactive, hopen] at hrunNow
  · by_cases hrunning : r.task.state = .running
    · exact absurd hrunning (hguarded r (Table.mem_of_get? hr) hopen).1
    · rw [begun_step hr hrunning, hbegun]

theorem Started.guarded {s : Service} (h : s.Started) : s.Guarded := by
  cases h with
  | volatile => simp [Guarded]
  | restored hjournal hnew =>
      rename_i journal rank answers m
      obtain ⟨⟨-, hgone⟩, hover⟩ := Manager.new_spec rank answers hjournal
      rw [hnew] at hgone hover
      intro r hr _
      exact ⟨State.ne_running_of_terminal (hover rfl r hr), by simp [hgone r hr]⟩

/-- In a run in which no task takes `RunNow` while its circuit is open, no
execution of a task begins from where its circuit is open until it takes
`Resume`. -/
theorem begun_of_open {s : Service} (h : s.Started) (front rest : List Input)
    (hrunNow : Along step (fun s i => s.runsOpen i = false) s (front ++ rest)) (id : String)
    (hopen : ((s.run front).manager.tasks.get? id).any (fun r => r.task.circuitOpen) = true)
    (hresume : Along step (fun s i => resumes id s i = false) (s.run front) rest) :
    (s.run (front ++ rest)).begun.count id = (s.run front).begun.count id := by
  obtain ⟨hfront, hrest⟩ := Along.append.1 hrunNow
  obtain ⟨r, hr, hcircuit⟩ := (Option.any_eq_true _ _).1 hopen
  have hguarded : (s.run front).Guarded :=
    Along.invariant (fun _ _ h hi => Guarded.step h hi) h.guarded hfront
  have hend : Open id ((s.run front).begun.count id) (rest.foldl step (s.run front)) :=
    Along.invariant (fun _ _ h hi => Open.step h hi.1 hi.2) ⟨hguarded, ⟨r, hr, hcircuit⟩, rfl⟩
      (hrest.and hresume)
  rw [show s.run (front ++ rest) = rest.foldl step (s.run front) from List.foldl_append ..]
  exact hend.begun

/-- A task whose first execution fails, and with it opens the circuit. -/
def opensCircuit : List Input :=
  let clk : Clock := ⟨100 * minute, 0, started_hundred⟩
  [.registerSource "source",
    .create clk "task" "source" ⟨10 * 1000000000, 0, "preserve", true, 0, 0, 1, 0⟩ .written,
    .next clk "task" .written, .fires clk.now "task", .begin clk "task" .written,
    .finish clk "task" ⟨"execution", false, 502, "", 0, 0, 0, false⟩ .written]

/-- The operator asks for a run at once, and the goroutine takes the signal. -/
def runsAtOnce : List Input :=
  let later : Clock := ⟨101 * minute, 0, started_later⟩
  [.next later "task" .written, .runNow later "task" .written, .woken "task",
    .begin later "task" .written]

theorem begun_of_open_paused :
    (run { manager := {} } (opensCircuit ++ runsAtOnce.take 1)).begun.count "task" =
      (run { manager := {} } opensCircuit).begun.count "task" :=
  begun_of_open .volatile opensCircuit (runsAtOnce.take 1) (by decide +kernel) "task"
    (by decide +kernel) (by decide +kernel)

/-- An execution begins while the circuit is open and no `Resume` has been
taken. -/
theorem begins_while_open :
    ((run { manager := {} } opensCircuit).manager.tasks.get? "task").any
        (fun r => r.task.circuitOpen) = true ∧
      Along step (fun s i => resumes "task" s i = false) (run { manager := {} } opensCircuit)
        runsAtOnce ∧
      (run { manager := {} } opensCircuit).begun.count "task" = 1 ∧
      (run { manager := {} } (opensCircuit ++ runsAtOnce)).begun.count "task" = 2 ∧
      ((run { manager := {} } (opensCircuit ++ runsAtOnce)).manager.tasks.get? "task").any
        (fun r => r.task.circuitOpen) = true := by
  decide +kernel

end Service

end RelayLifeline.Repeat
