import RelayLifeline.Proofs.Tasks

/-!
# What the journal says of continuous tasks

A journal mirrors the tasks where the last snapshot it has of each is the task
itself. Where every append is written, each method that changes a task appends
what it makes of it and keeps the mirror, all but one: `beginExecution` expires
a task that has had all its executions and appends nothing. A task comes there
when its circuit opens with the last execution it may have and it is resumed.
The method breaks the mirror every time, so a run keeps it exactly as long as no
`beginExecution` meets such a task.

A replay of a journal that mirrors the tasks gives the tasks back, those that
were not over interrupted.
-/

namespace RelayLifeline.Repeat

open Lib Journal

/-- The last snapshot of a task. -/
def lastSnapshot (lines : List (Line Task)) (id : String) : Option Task :=
  (lines.reverse.find? fun line => line.payload.id = id).map fun line => line.payload

theorem lastSnapshot_append (lines : List (Line Task)) (line : Line Task) (id : String) :
    lastSnapshot (lines ++ [line]) id =
      if id = line.payload.id then some line.payload else lastSnapshot lines id := by
  simp only [lastSnapshot, List.reverse_append, List.reverse_singleton, List.singleton_append,
    List.find?_cons]
  by_cases h : line.payload.id = id
  · simp [h]
  · simp [h, Ne.symm h]

namespace Manager

theorem load_get? (lines : List (Line Task)) (id : String) :
    (load lines).get? id = (lastSnapshot lines id).map fun t => { task := t } := by
  unfold load
  induction lines using List.reverseRecOn with
  | nil => rfl
  | append_singleton lines line ih =>
      rw [List.foldl_append, lastSnapshot_append]
      split
      · next heq =>
          rw [heq]
          exact Table.get?_set_self
      · next hne => exact (Table.get?_set_of_ne hne).trans ih

end Manager

/-- The journal takes appends, and its last snapshot of each task is the task. -/
structure Mirrors (tasks : Table RuntimeTask) (log : Log Task) : Prop where
  healthy : log.degraded = false
  snapshot : ∀ id, lastSnapshot log.lines id = (tasks.get? id).map fun r => r.task

theorem Mirrors.append {tasks : Table RuntimeTask} {log : Log Task} {r : RuntimeTask} {t : Task}
    (h : Mirrors tasks log) (ht : r.task = t) (stamp : Int) :
    Mirrors (tasks.set r) { log with lines := log.lines ++ [⟨stamp, t.id, t⟩] } := by
  subst ht
  refine ⟨h.healthy, fun id => ?_⟩
  rw [lastSnapshot_append]
  split
  · next heq =>
      rw [heq, show r.task.id = key r from rfl, Table.get?_set_self]
      rfl
  · next hne => rw [Table.get?_set_of_ne hne, h.snapshot id]

theorem Mirrors.set {tasks : Table RuntimeTask} {log : Log Task} {id : String}
    {r r' : RuntimeTask} (h : Mirrors tasks log) (hr : tasks.get? id = some r)
    (htask : r'.task = r.task) : Mirrors (tasks.set r') log := by
  refine ⟨h.healthy, fun id' => ?_⟩
  rw [h.snapshot id']
  by_cases heq : id' = r'.task.id
  · rw [heq, show r'.task.id = key r' from rfl, Table.get?_set_self, show key r' = r'.task.id from rfl,
      htask, Manager.get?_task hr]
    simp [htask]
  · rw [Table.get?_set_of_ne heq]

namespace Manager

variable {m : Manager} {log : Log Task} {clk : Clock} {id : String}

/-- The manager keeps a journal, which mirrors its tasks. -/
def Mirrored (m : Manager) : Prop := ∃ log, m.journal = some log ∧ Mirrors m.tasks log

theorem append_written (hjournal : m.journal = some log) (hhealthy : log.degraded = false)
    (clk : Clock) (task : Task) :
    m.append clk task .written =
      ({ m with
        journal := some { log with lines := log.lines ++ [⟨clk.stamp, task.id, task⟩] } }, true) := by
  simp [append, hjournal, Log.append, hhealthy]

/-- The appended version of a task is put in place. -/
theorem Mirrored.append (h : m.Mirrored) (clk : Clock) (task : Task) :
    (m.append clk task .written).2 = true ∧
      ∀ r : RuntimeTask, r.task = task →
        Mirrored { (m.append clk task .written).1 with tasks := m.tasks.set r } := by
  obtain ⟨log, hjournal, hmirrors⟩ := h
  rw [append_written hjournal hmirrors.healthy]
  exact ⟨rfl, fun r hr => ⟨_, rfl, hmirrors.append hr clk.stamp⟩⟩

theorem Mirrored.goto {r r' : RuntimeTask} {routine : Routine} (h : m.Mirrored)
    (hr : m.tasks.get? id = some r) (htask : r'.task = r.task) : (m.goto r' routine).Mirrored := by
  obtain ⟨log, hjournal, hmirrors⟩ := h
  exact ⟨log, hjournal, hmirrors.set hr htask⟩

theorem Mirrored.amend (h : m.Mirrored) {change : Task → Task} {after : RuntimeTask → RuntimeTask}
    (hafter : ∀ r, (after r).task = r.task) :
    (m.amend clk id .written change after).1.Mirrored := by
  simp only [Manager.amend]
  split
  · exact h
  · next r hr =>
      split
      · exact h
      · obtain ⟨hok, hset⟩ := h.append clk (change r.task)
        rw [if_pos hok]
        exact hset _ (hafter _)

theorem Mirrored.commit (h : m.Mirrored) (r : RuntimeTask) (previous : Task) :
    (m.commit clk r previous .written).Mirrored := by
  obtain ⟨hok, hset⟩ := h.append clk r.task
  simp only [Manager.commit]
  rw [if_pos hok]
  exact hset r rfl

theorem Mirrored.next (h : m.Mirrored) : (m.next clk id .written).Mirrored := by
  simp only [Manager.next]
  split
  · exact h
  · next r hr =>
      split_ifs
      · exact h
      · exact h.goto hr rfl
      · exact h.goto hr rfl
      · exact h.commit _ _
      · exact h.goto hr rfl

theorem Mirrored.leave (h : m.Mirrored) : (m.leave id).Mirrored := by
  simp only [Manager.leave]
  split
  · exact h
  · next r hr =>
      split
      · split
        · exact h.goto hr rfl
        · exact h
      · exact h

theorem Mirrored.woken (h : m.Mirrored) : (m.woken id).Mirrored := by
  simp only [Manager.woken]
  split
  · exact h
  · next r hr =>
      split
      · split
        · exact h.goto hr rfl
        · exact h
      · exact h

theorem Mirrored.fires (h : m.Mirrored) (now : Int) : (m.fires now id).Mirrored := by
  simp only [Manager.fires]
  split
  · exact h
  · next r hr =>
      split
      · split
        · exact h.goto hr rfl
        · exact h
      · exact h

/-- `beginExecution` meets a task that has had all its executions. -/
def MeetsUsedUp (m : Manager) (id : String) : Bool :=
  (m.tasks.get? id).any fun r =>
    r.routine = .beginning ∧ r.task.state = .running ∧ !r.task.inFlight ∧ r.task.usedUp

theorem Mirrored.beginExecution (h : m.Mirrored) (clk : Clock) (hmeets : m.MeetsUsedUp id = false) :
    (m.beginExecution clk id .written).1.Mirrored := by
  simp only [Manager.beginExecution]
  split
  · exact h
  · next r hr =>
      split
      · exact h
      · next hbeginning =>
          split
          · exact h.goto hr rfl
          · next hready =>
              split
              · next husedUp =>
                  simp only [ne_eq, not_not] at hbeginning
                  simp only [ne_eq, not_or, not_not, Bool.not_eq_true] at hready
                  simp [MeetsUsedUp, hr, hbeginning, hready, husedUp] at hmeets
              · split
                · exact h.commit _ _
                · obtain ⟨hok, hset⟩ := h.append clk (r.task.begin clk.now)
                  rw [if_pos hok]
                  exact hset _ rfl

/-- The task is expired in memory, and the journal has it running. -/
theorem Mirrored.not_beginExecution (h : m.Mirrored) (clk : Clock) (fate : Fate)
    (hmeets : m.MeetsUsedUp id = true) : ∀ log,
      (m.beginExecution clk id fate).1.journal = some log →
        lastSnapshot log.lines id ≠
          ((m.beginExecution clk id fate).1.tasks.get? id).map fun r => r.task := by
  obtain ⟨before, hjournal, hmirrors⟩ := h
  obtain ⟨r, hr, hmeets⟩ := (Option.any_eq_true _ _).1 hmeets
  obtain ⟨hbeginning, hrunning, hidle, husedUp⟩ := of_decide_eq_true hmeets
  have hid : r.task.id = id := Table.key_of_get? hr
  have hidle : r.task.inFlight = false := by simpa using hidle
  have hstep : (m.beginExecution clk id fate).1 =
      { m with
        tasks := m.tasks.set
          (cancel { r with
            task := r.task.finish clk.now .expired "max_executions", routine := .deciding }) } := by
    simp [Manager.beginExecution, hr, hbeginning, hrunning, hidle, husedUp]
  intro log hlog heq
  rw [hstep] at hlog heq
  rw [show log = before from Option.some.inj (hlog.symm.trans hjournal), hmirrors.snapshot id, hr,
    ← hid] at heq
  rw [show r.task.id = key (cancel { r with
      task := r.task.finish clk.now .expired "max_executions", routine := .deciding }) from rfl,
    Table.get?_set_self] at heq
  have hstate : r.task.state = .expired := congrArg Task.state (Option.some.inj heq)
  rw [hrunning] at hstate
  cases hstate

theorem Mirrored.finishExecution (h : m.Mirrored) (result : Execution) :
    (m.finishExecution clk id result .written).Mirrored := by
  simp only [Manager.finishExecution]
  split
  · exact h
  · next r hr =>
      split_ifs
      · exact h
      · exact h.goto hr rfl
      · exact h.commit _ _

theorem Mirrored.create (h : m.Mirrored) (sourceID : String) (input : CreateInput) :
    (m.create clk id sourceID input .written).1.Mirrored := by
  obtain ⟨hok, hset⟩ := h.append clk (Task.new clk.now id sourceID input)
  simp only [Manager.create]
  split_ifs
  all_goals first
    | exact h
    | exact hset _ rfl

theorem Mirrored.close {rank : String → Nat} {answers : String → Clock × Fate} (h : m.Mirrored)
    (hanswers : ∀ id, (answers id).2 = .written) : (m.close rank answers).Mirrored := by
  refine (Table.foldl_each (s := { m with closed := true }) (T := Manager.tasks) (I := Mirrored)
    (Q := fun _ _ => True) ?_ _ (m.ranged_nodup rank) h fun r hr => get?_of_ranged hr).1
  intro m r h hr
  simp only [closeTask, hanswers]
  split
  · exact ⟨h, trivial, fun _ _ => rfl, fun _ _ _ => trivial⟩
  · obtain ⟨hok, hset⟩ := h.append (answers r.task.id).1 (r.task.interrupt (answers r.task.id).1.now)
    simp only [hok, if_true]
    exact ⟨hset _ rfl, trivial, fun k hk => Table.get?_set_of_ne hk, fun _ _ _ => trivial⟩

/-! ## Restored tasks -/

/-- What a restored task is, where the clock shows `now`. -/
def restored (t : Task) (now : Int) : RuntimeTask :=
  { task := if t.state.terminal then t else t.interrupt now }

theorem Mirrored.interruptTask {state : Manager × Bool} {r : RuntimeTask} {answer : Clock × Fate}
    (hgoes : state.2 = true) (h : state.1.Mirrored)
    (hr : state.1.tasks.get? (key r) = some r) (hwritten : answer.2 = .written) :
    (interruptTask state r answer).2 = true ∧ (interruptTask state r answer).1.Mirrored ∧
      (interruptTask state r answer).1.tasks.get? (key r) =
        some { r with task := (restored r.task answer.1.now).task } ∧
      ∀ k, k ≠ key r → (interruptTask state r answer).1.tasks.get? k = state.1.tasks.get? k := by
  simp only [Manager.interruptTask, restored, hgoes, Bool.not_true, Bool.false_eq_true, false_or]
  split
  · exact ⟨hgoes, h, hr, fun _ _ => rfl⟩
  · rw [hwritten]
    obtain ⟨hok, hset⟩ := h.append answer.1 (r.task.interrupt answer.1.now)
    exact ⟨hok, hset _ rfl, Table.get?_set_self, fun k hk => Table.get?_set_of_ne hk⟩

/-- A new manager has the last snapshot of every task, interrupted where it was
not over. -/
theorem new_get? (journal : Log Task) (hhealthy : journal.degraded = false) (rank : String → Nat)
    {answers : String → Clock × Fate} (hanswers : ∀ id, (answers id).2 = .written) :
    (new journal rank answers).2 = true ∧ (new journal rank answers).1.Mirrored ∧
      ∀ id, (new journal rank answers).1.tasks.get? id =
        (lastSnapshot journal.lines id).map fun t => restored t (answers id).1.now := by
  let start : Manager := { tasks := load journal.lines, journal := some journal }
  have hmirrors : Mirrors start.tasks journal := by
    refine ⟨hhealthy, fun id => ?_⟩
    rw [show start.tasks.get? id = _ from load_get? journal.lines id, Option.map_map]
    exact (congrFun Option.map_id (lastSnapshot journal.lines id)).symm
  obtain ⟨⟨hgoes, hend⟩, hrestored, hothers, -⟩ := Table.foldl_each (s := (start, true))
    (T := fun state => state.1.tasks)
    (I := fun state => state.2 = true ∧ state.1.Mirrored)
    (Q := fun state r => state.1.tasks.get? (key r) =
      some { r with task := (restored r.task (answers r.task.id).1.now).task })
    (f := fun state r => Manager.interruptTask state r (answers r.task.id))
    (by
      rintro state r ⟨hgoes, h⟩ hr
      obtain ⟨hgoes, h, hself, hother⟩ := h.interruptTask hgoes hr (hanswers r.task.id)
      exact ⟨⟨hgoes, h⟩, hself, hother, fun b hb hQ => (hother _ hb).trans hQ⟩)
    (start.ranged rank) (ranged_nodup _ _) ⟨rfl, journal, rfl, hmirrors⟩
    (fun r hr => get?_of_ranged hr)
  refine ⟨hgoes, hend, fun id => ?_⟩
  have hloaded : start.tasks.get? id = _ := load_get? journal.lines id
  cases hlast : lastSnapshot journal.lines id with
  | none =>
      rw [hlast] at hloaded
      refine (hothers id ?_).trans hloaded
      intro hmem
      obtain ⟨r, hr, rfl⟩ := List.mem_map.1 hmem
      rw [show start.tasks.get? (key r) = some r from get?_of_ranged hr] at hloaded
      cases hloaded
  | some t =>
      rw [hlast] at hloaded
      have hkey : t.id = id := Table.key_of_get? hloaded
      have := hrestored _ ((start.ranged_perm rank).mem_iff.2 (Table.mem_of_get? hloaded))
      rw [show key ({ task := t } : RuntimeTask) = id from hkey] at this
      exact this.trans (by rw [hkey]; rfl)

end Manager

/-! ## Runs with a journal whose appends all succeed -/

namespace Service

/-- Every append of the input is written. -/
def Input.Written : Input → Prop
  | .registerSource _ | .unregisterSource _ | .leave _ | .woken _ | .fires _ _ => True
  | .create _ _ _ _ fate | .pause _ _ fate | .resume _ _ fate | .runNow _ _ fate
  | .stop _ _ fate | .next _ _ fate | .begin _ _ fate | .finish _ _ _ fate => fate = .written
  | .close _ answers => ∀ id, (answers id).2 = .written

/-- The last snapshot in the journal of each task is the task in memory, and a
replay gives the tasks in memory, interrupted where they are not over. -/
def Faithful (s : Service) : Prop :=
  ∃ log, s.manager.journal = some log ∧
    (∀ id, lastSnapshot log.lines id = (s.manager.tasks.get? id).map fun r => r.task) ∧
    ∀ (rank : String → Nat) (answers : String → Clock × Fate), (∀ id, (answers id).2 = .written) →
      (Manager.new { lines := log.lines } rank answers).2 = true ∧
        ∀ id, (Manager.new { lines := log.lines } rank answers).1.tasks.get? id =
          (s.manager.tasks.get? id).map fun r => Manager.restored r.task (answers id).1.now

/-- `beginExecution` is called for a task that is running and has had all the
executions it may have. -/
def beginsUsedUp (s : Service) : Input → Bool
  | .begin _ id _ => s.manager.MeetsUsedUp id
  | _ => false

theorem faithful_of_mirrored {s : Service} (h : s.manager.Mirrored) : s.Faithful := by
  obtain ⟨log, hjournal, hmirrors⟩ := h
  refine ⟨log, hjournal, hmirrors.snapshot, fun rank answers hanswers => ?_⟩
  obtain ⟨hgoes, -, hget⟩ :=
    Manager.new_get? { lines := log.lines } rfl rank hanswers
  refine ⟨hgoes, fun id => ?_⟩
  rw [hget, hmirrors.snapshot, Option.map_map]
  rfl

theorem mirrored_step {s : Service} {i : Input} (hwritten : i.Written) (h : s.manager.Mirrored)
    (hi : s.beginsUsedUp i = false) : (s.step i).manager.Mirrored := by
  cases i with
  | registerSource id => exact h
  | unregisterSource id => exact h
  | create clk id sourceID input fate =>
      cases hwritten
      simp only [step]
      split
      · exact h
      · exact h.create sourceID input
  | pause clk id fate => cases hwritten; exact h.amend fun _ => rfl
  | resume clk id fate => cases hwritten; exact h.amend fun _ => rfl
  | runNow clk id fate => cases hwritten; exact h.amend fun _ => rfl
  | stop clk id fate => cases hwritten; exact h.amend fun _ => rfl
  | close rank answers => exact h.close hwritten
  | next clk id fate => cases hwritten; exact h.next
  | leave id => exact h.leave
  | woken id => exact h.woken
  | fires now id => exact h.fires now
  | begin clk id fate =>
      cases hwritten
      have hbegin := h.beginExecution clk hi
      simp only [step]
      split <;> exact hbegin
  | finish clk id result fate => cases hwritten; exact h.finishExecution result

theorem not_faithful_step {s : Service} {i : Input} (h : s.manager.Mirrored)
    (hi : s.beginsUsedUp i = true) : ¬(s.step i).Faithful := by
  cases i with
  | begin clk id fate =>
      have hbreaks := h.not_beginExecution clk fate hi
      rintro ⟨log, hjournal, hsnapshot, -⟩
      refine hbreaks log ?_ ?_
      · rw [← hjournal]
        simp only [step]
        split <;> rfl
      · rw [hsnapshot id]
        simp only [step]
        split <;> rfl
  | _ => cases hi

/-- Where every append succeeds, the journal and the tasks agree wherever a run
has been if and only if no `beginExecution` of the run is called for a running
task that has had all the executions it may have. -/
theorem run_faithful_iff (journal : Log Task) (rank : String → Nat)
    (answers : String → Clock × Fate) (m : Manager) (hhealthy : journal.degraded = false)
    (hanswers : ∀ id, (answers id).2 = .written)
    (hnew : Manager.new journal rank answers = (m, true)) {is : List Input}
    (hwritten : ∀ i ∈ is, i.Written) :
    (∀ front, front <+: is → (run { manager := m } front).Faithful) ↔
      Along step (fun s i => s.beginsUsedUp i = false) { manager := m } is := by
  refine Along.iff_prefixes_of (I := fun s => s.manager.Mirrored) (A := Input.Written)
    (fun s i hi h hc => mirrored_step hi h hc)
    (fun s i _ h hc => not_faithful_step h (by simpa using hc))
    (fun s => faithful_of_mirrored) hwritten ?_
  have := (Manager.new_get? journal hhealthy rank hanswers).2.1
  rw [hnew] at this
  exact this

/-- A manager over an empty journal. -/
def emptyJournal : Manager := { journal := some {} }

theorem new_emptyJournal (rank : String → Nat) (answers : String → Clock × Fate) :
    Manager.new {} rank answers = (emptyJournal, true) := by
  simp [Manager.new, Manager.ranged, Manager.load, emptyJournal]

/-- The circuit of a task opens with the one execution it may have, and it is
resumed. -/
def resumesUsedUp : List Input :=
  let clk : Clock := ⟨100 * minute, 0, started_hundred⟩
  [.registerSource "source",
    .create clk "task" "source" ⟨10 * 1000000000, 0, "preserve", true, 1, 0, 1, 0⟩ .written,
    .next clk "task" .written, .fires clk.now "task", .begin clk "task" .written,
    .finish clk "task" ⟨"execution", false, 502, "", 0, 0, 0, false⟩ .written,
    .next clk "task" .written, .resume clk "task" .written, .woken "task",
    .begin clk "task" .written]

theorem run_faithful_iff_resumed :
    (run { manager := emptyJournal } (resumesUsedUp.take 5)).Faithful ∧
      (run { manager := emptyJournal } (resumesUsedUp.take 9)).Faithful :=
  have h : ∀ front, front <+: resumesUsedUp.take 9 →
      (run { manager := emptyJournal } front).Faithful :=
    (run_faithful_iff {} (fun _ => 0) (fun _ => (⟨100 * minute, 0, started_hundred⟩, .written))
      emptyJournal rfl (fun _ => rfl) (new_emptyJournal _ _)
      (by simp [resumesUsedUp, Input.Written])).2 (by decide +kernel)
  ⟨h _ ⟨(resumesUsedUp.take 9).drop 5, rfl⟩, h _ (List.prefix_refl _)⟩

/-- The task has expired, and the journal and what is restored from it do not say
so. -/
theorem expired_unwritten :
    ((run { manager := emptyJournal } resumesUsedUp).manager.tasks.get? "task").map
        (fun r => r.task.state) = some .expired ∧
      (run { manager := emptyJournal } resumesUsedUp).manager.journal.map
        (fun log => (lastSnapshot log.lines "task").map fun t => t.state) =
          some (some .running) ∧
      (run { manager := emptyJournal } resumesUsedUp).manager.journal.map
        (fun log => (Manager.load log.lines).items.map fun r =>
          (Manager.restored r.task (100 * minute)).task.state) = some [.interrupted] := by
  decide +kernel

end Service

end RelayLifeline.Repeat
