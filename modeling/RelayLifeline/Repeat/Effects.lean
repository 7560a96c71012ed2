import RelayLifeline.Repeat.Manager

/-!
# What an input does to a task

Every method that changes a task puts another version of it in its place, and
no input does anything else to the tasks but start one. `Moves` says which
version, for each input, and where the goroutine of the task is then, with what
the method has checked. A method that writes to the journal writes a version
it might put in place, whether it then does or not. `tasks_step` is the one
place where the methods are opened for both.
-/

namespace RelayLifeline.Repeat

open Lib Journal

/-- What an input makes of one task, and where its goroutine is then. -/
inductive Moves : Service.Input → RuntimeTask → Task → Routine → Prop
  | pause {clk id fate r} (h : r.task.state.terminal = false) :
      Moves (.pause clk id fate) r (r.task.changeState clk.now .paused) r.routine
  | resume {clk id fate r} (h : r.task.state.terminal = false) :
      Moves (.resume clk id fate) r (r.task.resume clk.now) r.routine
  | runNow {clk id fate r} (h : r.task.state.terminal = false) :
      Moves (.runNow clk id fate) r (r.task.runNow clk.now) r.routine
  | stop {clk id fate r} (h : r.task.state.terminal = false) :
      Moves (.stop clk id fate) r (r.task.stop clk.now) r.routine
  | interrupt {rank answers r now} (h : r.task.state.terminal = false) :
      Moves (.close rank answers) r (r.task.interrupt now) r.routine
  | cancel {rank answers r} : Moves (.close rank answers) r r.task r.routine
  | goes {i r routine} (hleaves : r.routine ≠ .executing) (henters : routine ≠ .executing) :
      Moves i r r.task routine
  | expire {i r now reason routine} (h : r.task.state = .running)
      (hleaves : r.routine ≠ .executing) (henters : routine ≠ .executing) :
      Moves i r (r.task.finish now .expired reason) routine
  | degrade {i r routine} (h : r.task.state.terminal = false)
      (hleaves : r.routine ≠ .executing) (henters : routine ≠ .executing) :
      Moves i r { r.task.degraded with inFlight := false } routine
  | begin {clk id fate r} (h : r.task.state = .running) (hbeginning : r.routine = .beginning)
      (hleft : r.task.usedUp = false) :
      Moves (.begin clk id fate) r (r.task.begin clk.now) .executing
  | settle {clk id result fate r} (h : r.task.state.terminal = false)
      (hexecuting : r.routine = .executing) :
      Moves (.finish clk id result fate) r (r.task.settle clk.now result).1 .deciding
  | unsettle {clk id result fate r} (h : r.task.state.terminal = false)
      (hexecuting : r.routine = .executing) :
      Moves (.finish clk id result fate) r { r.task.degraded with inFlight := false } .deciding
  | past {clk id result fate r} (h : r.task.state.terminal = true) :
      Moves (.finish clk id result fate) r r.task .deciding

/-! ## Counting an execution -/

namespace Task

variable (t : Task) (now : Int) (result : Execution)

/-- What an execution counts for. -/
structure Counted (t t' : Task) : Prop where
  id : t'.id = t.id
  source : t'.sourceRequestID = t.sourceRequestID
  maxExecutions : t'.maxExecutions = t.maxExecutions
  executions : t'.executions = t.executions + 1
  outcomes : t'.successes + t'.failures = t.successes + t.failures + 1

/-- Where the limits of a task send it. -/
structure Limited (t t' : Task) : Prop where
  state : t'.state = t.state ∨ t'.state = .paused ∨ t'.state = .expired
  circuit : t'.circuitOpen = true → t.circuitOpen = true ∨ t'.state = .paused

theorem count_counted : Counted t (t.count now result) := by
  simp only [count]
  split
  · exact ⟨rfl, rfl, rfl, rfl, by dsimp only; omega⟩
  · exact ⟨rfl, rfl, rfl, rfl, by dsimp only; omega⟩

@[simp] theorem count_state : (t.count now result).state = t.state := by
  simp only [count]
  split <;> rfl

theorem count_circuit (h : (t.count now result).circuitOpen = true) : t.circuitOpen = true := by
  simp only [count] at h
  split at h
  · cases h
  · exact h

theorem limit_counted {t t' : Task} (h : Counted t t') (success : Bool) :
    Counted t (t'.limit now success).1 := by
  simp only [limit]
  split_ifs <;> exact ⟨h.id, h.source, h.maxExecutions, h.executions, h.outcomes⟩

theorem limit_limited (success : Bool) : Limited t (t.limit now success).1 := by
  simp only [limit]
  split_ifs
  all_goals first
    | exact ⟨.inr (.inr rfl), fun h => .inl h⟩
    | exact ⟨.inr (.inl rfl), fun _ => .inr rfl⟩
    | exact ⟨.inl rfl, fun h => .inl h⟩

theorem settle_counted : Counted t (t.settle now result).1 := by
  have hcount := t.count_counted now result
  simp only [settle]
  split
  · split
    · exact ⟨hcount.id, hcount.source, hcount.maxExecutions, hcount.executions, hcount.outcomes⟩
    · split
      · exact ⟨hcount.id, hcount.source, hcount.maxExecutions, hcount.executions, hcount.outcomes⟩
      · refine limit_counted now ?_ _
        exact ⟨hcount.id, hcount.source, hcount.maxExecutions, hcount.executions, hcount.outcomes⟩
  · exact limit_counted now hcount _

theorem settle_limited : Limited t (t.settle now result).1 := by
  simp only [settle]
  split
  · split
    · exact ⟨.inr (.inl rfl), fun _ => .inr rfl⟩
    · split
      · exact ⟨.inr (.inr rfl), fun h => .inl (t.count_circuit now result h)⟩
      · next hless =>
          obtain ⟨hstate, hcircuit⟩ := limit_limited
            { t.count now result with
              tokenUsageMissing := false
              tokensUsed := (t.count now result).tokensUsed + result.usageTokens }
            now result.success
          refine ⟨?_, fun h => ?_⟩
          · rwa [count_state] at hstate
          · exact (hcircuit h).imp_left (t.count_circuit now result)
  · obtain ⟨hstate, hcircuit⟩ := limit_limited (t.count now result) now result.success
    refine ⟨?_, fun h => ?_⟩
    · rwa [count_state] at hstate
    · exact (hcircuit h).imp_left (t.count_circuit now result)

end Task

/-- No input gives a task another name. -/
theorem Moves.id_eq {i : Service.Input} {r : RuntimeTask} {t : Task} {routine : Routine}
    (h : Moves i r t routine) : t.id = r.task.id := by
  cases h with
  | settle => exact (Task.settle_counted _ _ _).id
  | _ => rfl

/-! ## The methods -/

namespace Manager

variable {m : Manager} {clk : Clock} {id : String} {fate : Fate}

@[simp] theorem append_tasks (m : Manager) (clk : Clock) (task : Task) (fate : Fate) :
    (m.append clk task fate).1.tasks = m.tasks := by
  simp only [append]
  split <;> rfl

theorem append_journal (m : Manager) (clk : Clock) (task : Task) (fate : Fate) :
    (m.append clk task fate).1.journal =
      m.journal.map fun log => (log.append ⟨clk.stamp, task.id, task⟩ fate).1 := by
  simp only [append]
  split
  · next hnone => simp [hnone]
  · next log hlog => simp [hlog]

theorem ranged_perm (m : Manager) (rank : String → Nat) : (m.ranged rank).Perm m.tasks.items :=
  List.mergeSort_perm _ _

theorem ranged_nodup (m : Manager) (rank : String → Nat) :
    ((m.ranged rank).map Keyed.key).Nodup :=
  ((m.ranged_perm rank).map _).nodup_iff.2 m.tasks.nodup

theorem get?_of_ranged {rank : String → Nat} {r : RuntimeTask} (h : r ∈ m.ranged rank) :
    m.tasks.get? (Keyed.key r) = some r :=
  Table.get?_of_mem ((m.ranged_perm rank).mem_iff.1 h)

theorem get?_task {tasks : Table RuntimeTask} {r : RuntimeTask} (h : tasks.get? id = some r) :
    tasks.get? r.task.id = some r := by
  rw [show r.task.id = id from Table.key_of_get? h]
  exact h

/-! ### One turn of a goroutine -/

section Turns

variable {i : Service.Input} {P : Table RuntimeTask → Option (Log Task) → Prop}
  (hmove : ∀ tasks journal r r', P tasks journal → tasks.get? r.task.id = some r →
    Moves i r r'.task r'.routine → P (tasks.set r') journal)
  (hwrite : ∀ tasks journal r t routine stamp fate, P tasks journal →
    tasks.get? r.task.id = some r → Moves i r t routine →
      P tasks (journal.map fun log => (log.append ⟨stamp, t.id, t⟩ fate).1))
  (h : P m.tasks m.journal)

include hmove hwrite h

theorem amend_move (change : Task → Task) (after : RuntimeTask → RuntimeTask)
    (hmoves : ∀ r, r.task.state.terminal = false → Moves i r (change r.task) r.routine)
    (hafter : ∀ r, (after r).task = r.task ∧ (after r).routine = r.routine) :
    P (m.amend clk id fate change after).1.tasks (m.amend clk id fate change after).1.journal := by
  simp only [amend]
  split
  · exact h
  · next r hr =>
      split
      · exact h
      · next hactive =>
          have hr := get?_task hr
          have hmoves := hmoves r (by simpa using hactive)
          have hwritten := hwrite _ _ r _ _ clk.stamp fate h hr hmoves
          rw [← append_journal] at hwritten
          split
          · refine hmove _ _ r _ hwritten hr ?_
            rw [(hafter _).1, (hafter _).2]
            exact hmoves
          · rw [append_tasks]
            exact hwritten

omit hwrite in
theorem goto_move {r r' : RuntimeTask} {routine : Routine} (hr : m.tasks.get? id = some r)
    (htask : r'.task = r.task) (hmoves : Moves i r r.task routine) :
    P (m.goto r' routine).tasks (m.goto r' routine).journal :=
  hmove _ _ r _ h (get?_task hr) (by rw [htask]; exact hmoves)

theorem commit_move {r r' : RuntimeTask} (hr : m.tasks.get? id = some r)
    (hmoves : Moves i r r'.task r'.routine)
    (hdegrades : Moves i r { r.task.degraded with inFlight := false } r'.routine) :
    P (m.commit clk r' r.task fate).tasks (m.commit clk r' r.task fate).journal := by
  have hr := get?_task hr
  have hwritten := hwrite _ _ r _ _ clk.stamp fate h hr hmoves
  rw [← append_journal] at hwritten
  simp only [commit]
  split
  · exact hmove _ _ r _ hwritten hr hmoves
  · exact hmove _ _ r _ hwritten hr hdegrades

theorem next_move : P (m.next clk id fate).tasks (m.next clk id fate).journal := by
  simp only [next]
  split
  · exact h
  · next r hr =>
      split
      · exact h
      · next hdeciding =>
          have hleaves : r.routine ≠ .executing := by
            intro hex
            simp [hex] at hdeciding
          split
          · exact goto_move hmove h hr rfl (.goes hleaves (by simp))
          · split
            · exact goto_move hmove h hr rfl (.goes hleaves (by simp))
            · next hactive hpaused =>
                have hrunning : r.task.state = .running := by
                  cases hstate : r.task.state <;> simp_all [State.terminal]
                split
                · exact commit_move (r := r) hmove hwrite h hr (.expire hrunning hleaves (by simp [cancel]))
                    (.degrade (by simpa using hactive) hleaves (by simp [cancel]))
                · exact goto_move hmove h hr rfl (.goes hleaves (by simp))

omit hwrite in
theorem leave_move : P (m.leave id).tasks (m.leave id).journal := by
  simp only [leave]
  split
  · exact h
  · next r hr =>
      split
      · next hwaiting =>
          split
          · exact goto_move hmove h hr rfl (.goes (by simp [hwaiting]) (by simp))
          · exact h
      · exact h

omit hwrite in
theorem woken_move : P (m.woken id).tasks (m.woken id).journal := by
  simp only [woken]
  split
  · exact h
  · next r hr =>
      split
      · next hwaiting =>
          split
          · exact goto_move hmove h hr rfl (.goes (by simp [hwaiting]) (by simp))
          · exact h
      · exact h

omit hwrite in
theorem fires_move {now : Int} : P (m.fires now id).tasks (m.fires now id).journal := by
  simp only [fires]
  split
  · exact h
  · next r hr =>
      split
      · next hwaiting =>
          split
          · exact goto_move hmove h hr rfl (.goes (by simp [hwaiting]) (by simp))
          · exact h
      · exact h

theorem beginExecution_move (hi : i = .begin clk id fate) :
    P (m.beginExecution clk id fate).1.tasks (m.beginExecution clk id fate).1.journal := by
  simp only [beginExecution]
  split
  · exact h
  · next r hr =>
      split
      · exact h
      · next hbeginning =>
          have hbeginning : r.routine = .beginning := by simpa using hbeginning
          have hleaves : r.routine ≠ .executing := by simp [hbeginning]
          split
          · exact goto_move hmove h hr rfl (.goes hleaves (by simp))
          · next hready =>
              have hrunning : r.task.state = .running := by
                by_contra hnot
                exact hready (.inl hnot)
              have hidle : r.task.inFlight = false := by
                by_contra hnot
                exact hready (.inr (by simpa using hnot))
              have hactive : r.task.state.terminal = false := by rw [hrunning]; rfl
              split
              · exact hmove _ _ r _ h (get?_task hr) (.expire hrunning hleaves (by simp [cancel]))
              · next hleft =>
                  split
                  · exact commit_move (r := r) hmove hwrite h hr
                      (.expire hrunning hleaves (by simp [cancel]))
                      (.degrade hactive hleaves (by simp [cancel]))
                  · have hbegin : Moves i r (r.task.begin clk.now) .executing := by
                      rw [hi]
                      exact .begin hrunning hbeginning (by simpa using hleft)
                    have hr := get?_task hr
                    have hwritten := hwrite _ _ r _ _ clk.stamp fate h hr hbegin
                    rw [← append_journal] at hwritten
                    split
                    · exact hmove _ _ r _ hwritten hr hbegin
                    · have hdegraded : { r.task.degraded with inFlight := false } =
                          r.task.degraded := by
                        simp [Task.degraded, hidle]
                      refine hmove _ _ r _ hwritten hr ?_
                      have := Moves.degrade (i := i) hactive hleaves
                        (show Routine.deciding ≠ .executing by simp)
                      rwa [hdegraded] at this

theorem finishExecution_move {result : Execution} (hi : i = .finish clk id result fate) :
    P (m.finishExecution clk id result fate).tasks
      (m.finishExecution clk id result fate).journal := by
  simp only [finishExecution]
  split
  · exact h
  · next r hr =>
      split
      · exact h
      · next hexecuting =>
          have hexecuting : r.routine = .executing := by simpa using hexecuting
          split
          · next hover =>
              refine goto_move hmove h hr rfl ?_
              rw [hi]
              exact .past hover
          · next hactive =>
              have hactive : r.task.state.terminal = false := by simpa using hactive
              refine commit_move (r := r) hmove hwrite h hr ?_ ?_
              · rw [hi]
                exact .settle hactive hexecuting
              · rw [hi]
                exact .unsettle hactive hexecuting

theorem close_move {rank : String → Nat} {answers : String → Clock × Fate}
    (hi : i = .close rank answers) : P (m.close rank answers).tasks (m.close rank answers).journal := by
  refine (Table.foldl_each (s := { m with closed := true }) (T := Manager.tasks)
    (I := fun m => P m.tasks m.journal) (Q := fun _ _ => True) ?_ _ (m.ranged_nodup rank) h
    fun r hr => get?_of_ranged hr).1
  intro m r hP hr
  simp only [closeTask]
  split
  · exact ⟨hP, trivial, fun _ _ => rfl, fun _ _ _ => trivial⟩
  · next hactive =>
      have hinterrupt (now : Int) : Moves i r (r.task.interrupt now) r.routine := by
        rw [hi]
        exact .interrupt (by simpa using hactive)
      refine ⟨?_, trivial, fun k hk => Table.get?_set_of_ne ?_, fun _ _ _ => trivial⟩
      · have hwritten := hwrite _ _ r _ _ (answers r.task.id).1.stamp (answers r.task.id).2 hP hr
          (hinterrupt (answers r.task.id).1.now)
        rw [← append_journal] at hwritten
        refine hmove _ _ r _ hwritten hr ?_
        split
        · exact hinterrupt _
        · rw [hi]
          exact .cancel
      · split <;> exact hk

end Turns

theorem beginExecution_cases (m : Manager) (clk : Clock) (id : String) (fate : Fate) :
    ((m.beginExecution clk id fate).2 = true ∧
      ∃ r, m.tasks.get? id = some r ∧ r.task.state = .running ∧ r.routine = .beginning ∧
        (m.beginExecution clk id fate).1.tasks =
          m.tasks.set { r with task := r.task.begin clk.now, routine := .executing }) ∨
    ((m.beginExecution clk id fate).2 = false ∧
      ((m.beginExecution clk id fate).1.tasks = m.tasks ∨
        ∃ r r', m.tasks.get? id = some r ∧ r.routine = .beginning ∧ r'.task.id = id ∧
          r'.routine = .deciding ∧ (m.beginExecution clk id fate).1.tasks = m.tasks.set r')) := by
  simp only [beginExecution]
  split
  · exact .inr ⟨rfl, .inl rfl⟩
  · next r hr =>
      have hid : r.task.id = id := Table.key_of_get? hr
      split
      · exact .inr ⟨rfl, .inl rfl⟩
      · next hbeginning =>
          have hbeginning : r.routine = .beginning := by simpa using hbeginning
          split
          · exact .inr ⟨rfl, .inr ⟨r, _, hr, hbeginning, by exact hid, by rfl, rfl⟩⟩
          · next hready =>
              split
              · exact .inr ⟨rfl, .inr ⟨r, _, hr, hbeginning, by exact hid, by rfl, rfl⟩⟩
              · split
                · refine .inr ⟨rfl, .inr ?_⟩
                  simp only [expire, commit]
                  split
                  · exact ⟨r, _, hr, hbeginning, by exact hid, by rfl, rfl⟩
                  · exact ⟨r, _, hr, hbeginning, by exact hid, by rfl, rfl⟩
                · split
                  · refine .inl ⟨rfl, r, hr, ?_, hbeginning, rfl⟩
                    by_contra hnot
                    exact hready (.inl hnot)
                  · exact .inr ⟨rfl, .inr ⟨r, _, hr, hbeginning, by exact hid, by rfl, rfl⟩⟩

/-- The goroutine of a task comes out of the executor. -/
theorem finishExecution_cases (m : Manager) (clk : Clock) (id : String) (result : Execution)
    (fate : Fate) :
    ((m.finishExecution clk id result fate).tasks = m.tasks ∧
      ∀ r, m.tasks.get? id = some r → r.routine ≠ .executing) ∨
    ∃ r r', m.tasks.get? id = some r ∧ r.routine = .executing ∧ r'.task.id = id ∧
      r'.routine = .deciding ∧ (m.finishExecution clk id result fate).tasks = m.tasks.set r' := by
  simp only [finishExecution]
  split
  · next hnone => exact .inl ⟨rfl, by simp [hnone]⟩
  · next r hr =>
      have hid : r.task.id = id := Table.key_of_get? hr
      split
      · next hidle =>
          refine .inl ⟨rfl, ?_⟩
          rw [hr]
          rintro _ ⟨rfl⟩
          exact hidle
      · next hexecuting =>
          have hexecuting : r.routine = .executing := by simpa using hexecuting
          split
          · exact .inr ⟨r, _, hr, hexecuting, by exact hid, by rfl, rfl⟩
          · simp only [commit]
            split
            · refine .inr ⟨r, _, hr, hexecuting, ?_, by rfl, rfl⟩
              rw [← hid]
              exact (Task.settle_counted _ _ _).id
            · exact .inr ⟨r, _, hr, hexecuting, by exact hid, by rfl, rfl⟩

end Manager

/-! ## One input -/

namespace Service

/-- An input starts a task or makes something of tasks there are: what both
keep of the tasks and of the journal, the input keeps. -/
theorem tasks_step {s : Service} {i : Input} {P : Table RuntimeTask → Option (Log Task) → Prop}
    (hmove : ∀ tasks journal r r', P tasks journal → tasks.get? r.task.id = some r →
      Moves i r r'.task r'.routine → P (tasks.set r') journal)
    (hwrite : ∀ tasks journal r t routine stamp fate, P tasks journal →
      tasks.get? r.task.id = some r → Moves i r t routine →
        P tasks (journal.map fun log => (log.append ⟨stamp, t.id, t⟩ fate).1))
    (hcreate : ∀ clk id sourceID input fate, i = .create clk id sourceID input fate →
      s.manager.tasks.get? id = none → s.manager.hasActiveTask sourceID = false →
      P s.manager.tasks (s.manager.journal.map fun log =>
        (log.append ⟨clk.stamp, id, Task.new clk.now id sourceID input⟩ fate).1) ∧
      ∀ journal, P s.manager.tasks journal →
        P (s.manager.tasks.set
          { task := Task.new clk.now id sourceID input, routine := .deciding }) journal)
    (h : P s.manager.tasks s.manager.journal) :
    P (s.step i).manager.tasks (s.step i).manager.journal := by
  cases i with
  | registerSource id => exact h
  | unregisterSource id => exact h
  | create clk id sourceID input fate =>
      simp only [step]
      split
      · exact h
      · next hnew =>
          simp only [Manager.create]
          split_ifs with _ _ _ hbusy
          any_goals exact h
          all_goals
            obtain ⟨hwritten, hset⟩ :=
              hcreate clk id sourceID input fate rfl (by simpa using hnew) (by simpa using hbusy)
            have heq := Manager.append_journal s.manager clk (Task.new clk.now id sourceID input) fate
            rw [show (Task.new clk.now id sourceID input).id = id from rfl] at heq
            rw [← heq] at hwritten
          · exact hset _ hwritten
          · rw [Manager.append_tasks]
            exact hwritten
  | pause clk id fate =>
      exact Manager.amend_move hmove hwrite h _ _ (fun r hr => .pause hr) fun _ => ⟨rfl, rfl⟩
  | resume clk id fate =>
      exact Manager.amend_move hmove hwrite h _ _ (fun r hr => .resume hr) fun _ => ⟨rfl, rfl⟩
  | runNow clk id fate =>
      exact Manager.amend_move hmove hwrite h _ _ (fun r hr => .runNow hr) fun _ => ⟨rfl, rfl⟩
  | stop clk id fate =>
      exact Manager.amend_move hmove hwrite h _ _ (fun r hr => .stop hr) fun _ => ⟨rfl, rfl⟩
  | close rank answers => exact Manager.close_move hmove hwrite h rfl
  | next clk id fate => exact Manager.next_move hmove hwrite h
  | leave id => exact Manager.leave_move hmove h
  | woken id => exact Manager.woken_move hmove h
  | fires now id => exact Manager.fires_move hmove h
  | begin clk id fate =>
      have hbegin :
          P (s.manager.beginExecution clk id fate).1.tasks
            (s.manager.beginExecution clk id fate).1.journal :=
        Manager.beginExecution_move hmove hwrite h rfl
      simp only [step]
      split <;> exact hbegin
  | finish clk id result fate => exact Manager.finishExecution_move hmove hwrite h rfl

/-- What is kept of the tasks alone. -/
theorem tasks_step_of {s : Service} {i : Input} {P : Table RuntimeTask → Prop}
    (hmove : ∀ tasks r r', P tasks → tasks.get? r.task.id = some r →
      Moves i r r'.task r'.routine → P (tasks.set r'))
    (hcreate : ∀ clk id sourceID input fate, i = .create clk id sourceID input fate →
      s.manager.tasks.get? id = none → s.manager.hasActiveTask sourceID = false →
      P (s.manager.tasks.set { task := Task.new clk.now id sourceID input, routine := .deciding }))
    (h : P s.manager.tasks) : P (s.step i).manager.tasks := by
  refine tasks_step (P := fun tasks _ => P tasks) (fun tasks _ r r' => hmove tasks r r')
    (fun _ _ _ _ _ _ _ h _ _ => h) ?_ h
  intro clk id sourceID input fate hi hnone hbusy
  exact ⟨h, fun _ _ => hcreate clk id sourceID input fate hi hnone hbusy⟩

end Service

end RelayLifeline.Repeat
