import RelayLifeline.Repeat.Effects

/-!
# What an input does to one task and its goroutine

`Turn` follows a single task through an input with everything the manager keeps
of it, the signal in its wake channel included: what `Moves` says of the task
and of where its goroutine is, `Turn` says of the whole record, and it says in
which state of the manager. `turns` is the inversion of a step: an input leaves
the record of an identifier as it is, or gives it one turn, or starts it.
-/

namespace RelayLifeline.Repeat

open Lib Journal

namespace Manager

/-- The journal refuses what is appended to it. -/
def refuses (m : Manager) : Bool := m.journal.any fun log => log.degraded

/-- An append that is not acknowledged is the last the journal takes. -/
theorem append_refused {m : Manager} {clk : Clock} {task : Task} {fate : Fate}
    (h : (m.append clk task fate).2 = false) : (m.append clk task fate).1.refuses = true := by
  simp only [append] at h ⊢
  split at h
  · cases h
  · next log hlog =>
      rcases log.append_cases ⟨clk.stamp, task.id, task⟩ fate with
        ⟨-, -, hwritten⟩ | ⟨-, hdegraded, -⟩
      · rw [hwritten] at h
        cases h
      · simpa [refuses] using hdegraded

theorem append_of_refuses {m : Manager} (clk : Clock) (task : Task) (fate : Fate)
    (h : m.refuses = true) :
    (m.append clk task fate).2 = false ∧ (m.append clk task fate).1.refuses = true := by
  have hfails : (m.append clk task fate).2 = false := by
    simp only [refuses, Option.any_eq_true] at h
    obtain ⟨log, hlog, hdegraded⟩ := h
    simp only [append, hlog, Log.append, hdegraded, if_true]
  exact ⟨hfails, append_refused hfails⟩

end Manager

/-- What an input makes of one task. -/
inductive Turn (s : Service) : Service.Input → RuntimeTask → RuntimeTask → Prop
  | pauses {clk id fate r} (hactive : r.task.state.terminal = false) :
      Turn s (.pause clk id fate) r
        (Manager.signal { r with task := r.task.changeState clk.now .paused })
  | resumes {clk id fate r} (hactive : r.task.state.terminal = false) (hid : r.task.id = id)
      (hok : (s.manager.resume clk id fate).2.isOk = true) :
      Turn s (.resume clk id fate) r (Manager.signal { r with task := r.task.resume clk.now })
  | runsNow {clk id fate r} (hactive : r.task.state.terminal = false) (hid : r.task.id = id)
      (hok : (s.manager.runNow clk id fate).2.isOk = true) :
      Turn s (.runNow clk id fate) r (Manager.signal { r with task := r.task.runNow clk.now })
  | cancels {rank answers r} : Turn s (.close rank answers) r (Manager.cancel r)
  | waits {clk id fate r deadline} (hdeciding : r.routine = .deciding)
      (hdeadline : r.task.state = .running → r.task.nextRunAt ≤ deadline) :
      Turn s (.next clk id fate) r { r with routine := .waiting deadline }
  | leaves {i r} (hout : r.routine ≠ .executing) : Turn s i r { r with routine := .gone }
  | wakes {id r deadline} (hwaiting : r.routine = .waiting deadline) (hwake : r.wake = true) :
      Turn s (.woken id) r { r with wake := false, routine := .beginning }
  | fires {now id r deadline} (hwaiting : r.routine = .waiting deadline) (hdue : deadline ≤ now) :
      Turn s (.fires now id) r { r with routine := .beginning }
  | declines {clk id fate r} (hbeginning : r.routine = .beginning) :
      Turn s (.begin clk id fate) r { r with routine := .deciding }
  | begins {clk id fate r} (hrunning : r.task.state = .running)
      (hbeginning : r.routine = .beginning) :
      Turn s (.begin clk id fate) r
        { r with task := r.task.begin clk.now, routine := .executing }
  | settles {clk id result fate r canceled} (hactive : r.task.state.terminal = false)
      (hid : r.task.id = id) (hexecuting : r.routine = .executing) :
      Turn s (.finish clk id result fate) r
        { r with
          task := (r.task.settle clk.now result).1, canceled := canceled, routine := .deciding }
  | degrades {i r canceled routine} (hactive : r.task.state.terminal = false)
      (hrefuses : (s.step i).manager.refuses = true) :
      Turn s i r
        { r with
          task := { r.task.degraded with inFlight := false }, canceled := canceled
          routine := routine }
  | ends {i r r'} (hid : r'.task.id = r.task.id) (hover : r'.task.state.terminal = true) :
      Turn s i r r'

theorem Turn.id_eq {s : Service} {i : Service.Input} {r r' : RuntimeTask} (h : Turn s i r r') :
    r'.task.id = r.task.id := by
  cases h with
  | settles => exact (Task.settle_counted _ _ _).id
  | ends hid => exact hid
  | _ => rfl

/-! ## One record -/

/-- The record of an identifier after an input, from what it was before. -/
inductive Turned (s : Service) (i : Service.Input) (id : String) :
    Option RuntimeTask → Option RuntimeTask → Prop
  | stays {r} : Turned s i id r r
  | turn {r r'} (h : Turn s i r r') : Turned s i id (some r) (some r')
  | starts {clk sourceID input fate} (hi : i = .create clk id sourceID input fate)
      (hvalid : validInput input = true) :
      Turned s i id none
        (some { task := Task.new clk.now id sourceID input, routine := .deciding })

/-- Where the record there is comes from. -/
theorem Turned.of_some {s : Service} {i : Service.Input} {id : String}
    {before : Option RuntimeTask} {r' : RuntimeTask} (h : Turned s i id before (some r')) :
    before = some r' ∨ (∃ r, before = some r ∧ Turn s i r r') ∨
      before = none ∧ ∃ clk sourceID input fate,
        i = .create clk id sourceID input fate ∧ validInput input = true ∧
          r' = { task := Task.new clk.now id sourceID input, routine := .deciding } := by
  generalize hafter : some r' = after at h
  cases h with
  | stays => exact .inl rfl
  | turn hturn =>
      obtain rfl := Option.some.inj hafter
      exact .inr (.inl ⟨_, rfl, hturn⟩)
  | starts hi hvalid => exact .inr (.inr ⟨rfl, _, _, _, _, hi, hvalid, Option.some.inj hafter⟩)

/-- A record that was there stays or is turned. -/
theorem Turned.exists_of_some {s : Service} {i : Service.Input} {id : String} {r : RuntimeTask}
    {after : Option RuntimeTask} (h : Turned s i id (some r) after) :
    after = some r ∨ ∃ r', after = some r' ∧ Turn s i r r' := by
  generalize hbefore : some r = before at h
  cases h with
  | stays => exact .inl rfl
  | turn hturn =>
      obtain rfl := Option.some.inj hbefore
      exact .inr ⟨_, rfl, hturn⟩
  | starts => cases hbefore

/-- An input that puts one version of a task in the place of another. -/
theorem Turned.of_set {s : Service} {i : Service.Input} {tasks : Table RuntimeTask}
    {r r' : RuntimeTask} {k : String} (hr : tasks.get? k = some r) (h : Turn s i r r')
    (id : String) : Turned s i id (tasks.get? id) ((tasks.set r').get? id) := by
  have hkey : k = r'.task.id := by
    rw [h.id_eq]
    exact (Table.key_of_get? hr).symm
  by_cases heq : id = r'.task.id
  · subst hkey
    subst heq
    rw [hr, show (tasks.set r').get? r'.task.id = some r' from Table.get?_set_self]
    exact .turn h
  · rw [Table.get?_set_of_ne heq]
    exact .stays

namespace Manager

variable {s : Service} {clk : Clock} {fate : Fate} {i : Service.Input}

/-- What a commit makes of a task, where its journal is the one the input leaves. -/
theorem commit_turned {r r' : RuntimeTask} {k : String} (hr : s.manager.tasks.get? k = some r)
    (hstep : (s.step i).manager = s.manager.commit clk r' r.task fate) (h : Turn s i r r')
    (hwake : r'.wake = r.wake) (hactive : r.task.state.terminal = false) (id : String) :
    Turned s i id (s.manager.tasks.get? id) ((s.step i).manager.tasks.get? id) := by
  have hrefuses : (s.manager.append clk r'.task fate).2 = false →
      (s.manager.append clk r'.task fate).1.refuses = true := append_refused
  rw [hstep]
  simp only [commit] at hstep ⊢
  split at hstep
  · next happended =>
      rw [if_pos happended]
      exact .of_set hr h id
  · next hlost =>
      rw [if_neg hlost]
      refine .of_set hr ?_ id
      have hrefused : (s.step i).manager.refuses = true := by
        rw [hstep]
        exact hrefuses (by simpa using hlost)
      rw [show cancel { r' with task := { r.task.degraded with inFlight := false } } =
        { r with
          task := { r.task.degraded with inFlight := false }, canceled := true
          routine := r'.routine } by simp only [cancel, hwake]]
      exact .degrades hactive hrefused

/-- A change that is answered with the task turns it, and another leaves the tasks. -/
theorem amend_turned {m' : Manager × Except Error Task} {k : String}
    {change : Task → Task} {after : RuntimeTask → RuntimeTask}
    (hm : m' = s.manager.amend clk k fate change after)
    (hstep : (s.step i).manager = m'.1)
    (h : ∀ r, r.task.id = k → r.task.state.terminal = false → m'.2.isOk = true →
      Turn s i r (after { r with task := change r.task })) (id : String) :
    Turned s i id (s.manager.tasks.get? id) ((s.step i).manager.tasks.get? id) := by
  rw [hstep]
  subst hm
  cases hr : s.manager.tasks.get? k with
  | none =>
      simp only [amend, hr]
      exact .stays
  | some r =>
      have hid : r.task.id = k := Table.key_of_get? hr
      simp only [amend, hr] at h ⊢
      split
      · exact .stays
      · next hactive =>
          rw [if_neg hactive] at h
          split
          · next happended =>
              rw [if_pos happended] at h
              exact .of_set hr (h r hid (by simpa using hactive) rfl) id
          · rw [append_tasks]
            exact .stays

theorem next_turned (clk : Clock) (k : String) (fate : Fate) (id : String) :
    Turned s (.next clk k fate) id (s.manager.tasks.get? id)
      ((s.manager.next clk k fate).tasks.get? id) := by
  cases hr : s.manager.tasks.get? k with
  | none =>
      simp only [next, hr]
      exact .stays
  | some r =>
      have hstep : (s.step (.next clk k fate)).manager = s.manager.next clk k fate := rfl
      simp only [next, hr] at hstep ⊢
      split
      · exact .stays
      · next hdeciding =>
          have hdeciding : r.routine = .deciding := by simpa using hdeciding
          rw [if_neg (by simp [hdeciding])] at hstep
          split
          · exact .of_set hr (.leaves (by simp [hdeciding])) id
          · next hactive =>
              rw [if_neg hactive] at hstep
              split
              · next hpaused =>
                  refine .of_set hr (.waits hdeciding ?_) id
                  intro hrunning
                  rw [hpaused] at hrunning
                  cases hrunning
              · next hpaused =>
                  rw [if_neg hpaused] at hstep
                  split
                  · next hexpired =>
                      rw [if_pos hexpired] at hstep
                      rw [← hstep]
                      exact commit_turned hr hstep (.ends rfl rfl) rfl (by simpa using hactive) id
                  · exact .of_set hr (.waits hdeciding fun _ => Int.le_max_left _ _) id

theorem leave_turned (k id : String) :
    Turned s (.leave k) id (s.manager.tasks.get? id) ((s.manager.leave k).tasks.get? id) := by
  cases hr : s.manager.tasks.get? k with
  | none =>
      simp only [leave, hr]
      exact .stays
  | some r =>
      simp only [leave, hr]
      split
      · next hwaiting =>
          split
          · exact .of_set hr (.leaves (by simp [hwaiting])) id
          · exact .stays
      · exact .stays

theorem woken_turned (k id : String) :
    Turned s (.woken k) id (s.manager.tasks.get? id) ((s.manager.woken k).tasks.get? id) := by
  cases hr : s.manager.tasks.get? k with
  | none =>
      simp only [woken, hr]
      exact .stays
  | some r =>
      simp only [woken, hr]
      split
      · next hwaiting =>
          split
          · next hwake => exact .of_set hr (.wakes hwaiting hwake) id
          · exact .stays
      · exact .stays

theorem fires_turned (now : Int) (k id : String) :
    Turned s (.fires now k) id (s.manager.tasks.get? id) ((s.manager.fires now k).tasks.get? id) := by
  cases hr : s.manager.tasks.get? k with
  | none =>
      simp only [fires, hr]
      exact .stays
  | some r =>
      simp only [fires, hr]
      split
      · next hwaiting =>
          split
          · next hdue => exact .of_set hr (.fires hwaiting hdue) id
          · exact .stays
      · exact .stays

theorem beginExecution_turned (clk : Clock) (k : String) (fate : Fate) (id : String) :
    Turned s (.begin clk k fate) id (s.manager.tasks.get? id)
      ((s.manager.beginExecution clk k fate).1.tasks.get? id) := by
  have hstep : (s.step (.begin clk k fate)).manager = (s.manager.beginExecution clk k fate).1 := by
    simp only [Service.step]
    split <;> rfl
  cases hr : s.manager.tasks.get? k with
  | none =>
      simp only [beginExecution, hr]
      exact .stays
  | some r =>
      simp only [beginExecution, hr] at hstep ⊢
      split
      · exact .stays
      · next hbeginning =>
          rw [if_neg hbeginning] at hstep
          have hbeginning : r.routine = .beginning := by simpa using hbeginning
          split
          · exact .of_set hr (.declines hbeginning) id
          · next hready =>
              rw [if_neg hready] at hstep
              have hrunning : r.task.state = .running := by
                by_contra hnot
                exact hready (.inl hnot)
              have hactive : r.task.state.terminal = false := by rw [hrunning]; rfl
              split
              · exact .of_set hr (.ends (by rfl) (by rfl)) id
              · next hleft =>
                  rw [if_neg hleft] at hstep
                  split
                  · next hexpired =>
                      rw [if_pos hexpired] at hstep
                      rw [← hstep]
                      exact commit_turned hr hstep (.ends rfl rfl) rfl hactive id
                  · next hexpired =>
                      rw [if_neg hexpired] at hstep
                      split
                      · exact .of_set hr (.begins hrunning hbeginning) id
                      · next hlost =>
                          rw [if_neg hlost] at hstep
                          refine .of_set hr ?_ id
                          have hrefuses := append_refused (by simpa using hlost)
                          have hdegraded : { r.task.degraded with inFlight := false } =
                              r.task.degraded := by
                            have hidle : r.task.inFlight = false := by
                              by_contra hnot
                              exact hready (.inr (by simpa using hnot))
                            simp [Task.degraded, hidle]
                          rw [← hdegraded]
                          exact .degrades hactive (by rw [hstep]; exact hrefuses)

theorem finishExecution_turned (clk : Clock) (k : String) (result : Execution) (fate : Fate)
    (id : String) :
    Turned s (.finish clk k result fate) id (s.manager.tasks.get? id)
      ((s.manager.finishExecution clk k result fate).tasks.get? id) := by
  have hstep : (s.step (.finish clk k result fate)).manager =
      s.manager.finishExecution clk k result fate := rfl
  cases hr : s.manager.tasks.get? k with
  | none =>
      simp only [finishExecution, hr]
      exact .stays
  | some r =>
      simp only [finishExecution, hr] at hstep ⊢
      split
      · exact .stays
      · next hexecuting =>
          rw [if_neg hexecuting] at hstep
          have hexecuting : r.routine = .executing := by simpa using hexecuting
          split
          · next hover => exact .of_set hr (.ends (by rfl) (by exact hover)) id
          · next hactive =>
              rw [if_neg hactive] at hstep
              rw [← hstep]
              have hactive : r.task.state.terminal = false := by simpa using hactive
              exact commit_turned hr hstep
                (.settles hactive (Table.key_of_get? hr) hexecuting) rfl hactive id

theorem closeTask_turned (m : Manager) (rank : String → Nat) (answers : String → Clock × Fate)
    (clk : Clock) (r : RuntimeTask) (fate : Fate) :
    (m.closeTask clk r fate).tasks = m.tasks ∨
      ∃ r', (m.closeTask clk r fate).tasks = m.tasks.set r' ∧ Turn s (.close rank answers) r r' := by
  simp only [closeTask]
  split
  · exact .inl rfl
  · refine .inr ⟨_, rfl, ?_⟩
    split
    · exact .ends (by rfl) (by rfl)
    · exact .cancels

theorem close_turned (rank : String → Nat) (answers : String → Clock × Fate) (id : String) :
    Turned s (.close rank answers) id (s.manager.tasks.get? id)
      ((s.manager.close rank answers).tasks.get? id) := by
  obtain ⟨-, hturned, hothers, -⟩ := Table.foldl_each (T := Manager.tasks) (I := fun _ => True)
    (s := { s.manager with closed := true })
    (f := fun m r => m.closeTask (answers r.task.id).1 r (answers r.task.id).2)
    (Q := fun m r => ∃ r', m.tasks.get? (Keyed.key r) = some r' ∧
      (r' = r ∨ Turn s (.close rank answers) r r'))
    (by
      intro m r _ hr
      rcases closeTask_turned (s := s) m rank answers (answers r.task.id).1 r
        (answers r.task.id).2 with hsame | ⟨r', hset, hturn⟩
      · rw [hsame]
        exact ⟨trivial, ⟨r, hr, .inl rfl⟩, fun _ _ => rfl, fun _ _ h => h⟩
      · have hkey : Keyed.key r' = Keyed.key r := hturn.id_eq
        rw [hset]
        refine ⟨trivial, ⟨r', ?_, .inr hturn⟩, ?_, ?_⟩
        · rw [← hkey]
          exact Table.get?_set_self
        · intro k hk
          exact Table.get?_set_of_ne (by rw [hkey]; exact hk)
        · intro b hb hQ
          rw [Table.get?_set_of_ne (by rw [hkey]; exact hb)]
          exact hQ)
    (s.manager.ranged rank) (ranged_nodup _ _) trivial (fun r hr => get?_of_ranged hr)
  by_cases hid : id ∈ (s.manager.ranged rank).map Keyed.key
  · obtain ⟨r, hr, rfl⟩ := List.mem_map.1 hid
    obtain ⟨r', hr', hturn⟩ := hturned r hr
    rw [get?_of_ranged hr, show (s.manager.close rank answers).tasks.get? _ = _ from hr']
    rcases hturn with rfl | hturn
    · exact .stays
    · exact .turn hturn
  · rw [show (s.manager.close rank answers).tasks.get? id = _ from hothers id hid]
    exact .stays

end Manager

/-- What an input does to the record of an identifier. -/
theorem turns (s : Service) (i : Service.Input) (id : String) :
    Turned s i id (s.manager.tasks.get? id) ((s.step i).manager.tasks.get? id) := by
  cases i with
  | registerSource k => exact .stays
  | unregisterSource k => exact .stays
  | create clk k sourceID input fate =>
      simp only [Service.step]
      split
      · exact .stays
      · next hnew =>
          have hnone : s.manager.tasks.get? k = none := by simpa using hnew
          simp only [Manager.create]
          split_ifs with hinvalid
          any_goals exact .stays
          · by_cases heq : id = k
            · subst heq
              let r : RuntimeTask :=
                { task := Task.new clk.now id sourceID input, routine := .deciding }
              rw [hnone, show (s.manager.tasks.set r).get? id = some r from Table.get?_set_self]
              exact .starts rfl (by simpa using hinvalid)
            · rw [Table.get?_set_of_ne heq]
              exact .stays
          · rw [Manager.append_tasks]
            exact .stays
  | pause clk k fate => exact Manager.amend_turned rfl rfl (fun _ _ hactive _ => .pauses hactive) id
  | resume clk k fate =>
      exact Manager.amend_turned rfl rfl (fun _ hid hactive hok => .resumes hactive hid hok) id
  | runNow clk k fate =>
      exact Manager.amend_turned rfl rfl (fun _ hid hactive hok => .runsNow hactive hid hok) id
  | stop clk k fate => exact Manager.amend_turned rfl rfl (fun _ _ _ _ => .ends rfl rfl) id
  | close rank answers => exact Manager.close_turned rank answers id
  | next clk k fate => exact Manager.next_turned clk k fate id
  | leave k => exact Manager.leave_turned k id
  | woken k => exact Manager.woken_turned k id
  | fires now k => exact Manager.fires_turned now k id
  | begin clk k fate =>
      rw [show (s.step (.begin clk k fate)).manager = (s.manager.beginExecution clk k fate).1 by
        simp only [Service.step]; split <;> rfl]
      exact Manager.beginExecution_turned clk k fate id
  | finish clk k result fate => exact Manager.finishExecution_turned clk k result fate id

end RelayLifeline.Repeat
