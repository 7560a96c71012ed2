import RelayLifeline.Maintenance.Journals
import RelayLifeline.Proofs.Incidents
import RelayLifeline.Proofs.Mirror
import RelayLifeline.Proofs.ReleaseCrash

/-!
# What is active is in the journal

Each manager appends what it changes and then makes the change. So what is
active in memory is active in the journal: the last snapshot of a task that is
not over is of one that is not, the last snapshot of an incident that is not
resolved is that incident, and a replay of the release journal has the draft
and the intents. The journal may hold more than that.

A compaction takes all the lines of an entity out or none. So it leaves this as
it is for the entities that it retains, whatever happens to the others.
-/

namespace RelayLifeline

open Journal Lib

/-! ## Tasks -/

namespace Repeat

theorem lastSnapshot_compact {lines : List (Line Task)} {id : String} {cutoff : Int}
    (hnamed : ∀ line ∈ lines, line.entityID = line.payload.id)
    (hretains : Log.retains lines cutoff [] id = true) :
    lastSnapshot (Log.compact lines cutoff []) id = lastSnapshot lines id := by
  rw [Log.compact]
  generalize Log.retains lines cutoff [] = p at hretains
  induction lines using List.reverseRecOn with
  | nil => rfl
  | append_singleton lines line ih =>
      have ih := ih fun l hl => hnamed l (by simp [hl])
      have hline := hnamed line (by simp)
      rw [List.filter_append, lastSnapshot_append]
      cases hp : p line.entityID with
      | true =>
          rw [List.filter_cons_of_pos (by simpa using hp), List.filter_nil, lastSnapshot_append, ih]
      | false =>
          rw [List.filter_cons_of_neg (by simp [hp]), List.filter_nil, List.append_nil, ih]
          split
          · next heq =>
              rw [heq, ← hline, hp] at hretains
              cases hretains
          · rfl

/-- A task that is not over has a snapshot that is not. -/
structure Alive (tasks : Table RuntimeTask) (lines : List (Line Task)) : Prop where
  named : ∀ line ∈ lines, line.entityID = line.payload.id
  survives : ∀ id r, tasks.get? id = some r → r.task.state.terminal = false →
    ∃ t, lastSnapshot lines id = some t ∧ t.state.terminal = false

namespace Alive

variable {tasks : Table RuntimeTask} {lines : List (Line Task)} {r : RuntimeTask}

/-- The appended version of a task is put in place. -/
theorem append (h : Alive tasks lines) (stamp : Int) (r : RuntimeTask) :
    Alive (tasks.set r) (lines ++ [⟨stamp, r.task.id, r.task⟩]) := by
  constructor
  · intro line hline
    rcases List.mem_append.1 hline with hline | hline
    · exact h.named line hline
    · rw [List.mem_singleton.1 hline]
  · intro id a ha hactive
    rw [lastSnapshot_append]
    split
    · next heq =>
        rw [heq, show r.task.id = key r from rfl, Table.get?_set_self] at ha
        obtain rfl := Option.some.inj ha
        exact ⟨_, rfl, hactive⟩
    · next hne =>
        rw [Table.get?_set_of_ne hne] at ha
        exact h.survives id a ha hactive

/-- What is put in place is over, or was not over before. -/
theorem set (h : Alive tasks lines)
    (hr : r.task.state.terminal = false →
      ∃ old, tasks.get? r.task.id = some old ∧ old.task.state.terminal = false) :
    Alive (tasks.set r) lines := by
  refine ⟨h.named, fun id a ha hactive => ?_⟩
  by_cases heq : id = r.task.id
  · rw [heq, show r.task.id = key r from rfl, Table.get?_set_self] at ha
    obtain rfl := Option.some.inj ha
    obtain ⟨old, hold, holdactive⟩ := hr hactive
    rw [heq]
    exact h.survives _ old hold holdactive
  · rw [Table.get?_set_of_ne heq] at ha
    exact h.survives id a ha hactive

theorem compact (h : Alive tasks lines) {cutoff : Int}
    (hretains : ∀ r ∈ tasks.items, r.task.state.terminal = false →
      Log.retains lines cutoff [] r.task.id = true) :
    Alive tasks (Log.compact lines cutoff []) := by
  refine ⟨fun line hline => h.named line (List.mem_of_mem_filter hline), fun id r hr hactive => ?_⟩
  have hid : r.task.id = id := Table.key_of_get? hr
  have hid' := hretains r (Table.mem_of_get? hr) hactive
  rw [lastSnapshot_compact h.named (hid ▸ hid')]
  exact h.survives id r hr hactive

end Alive

namespace Manager

variable {m : Manager} {clk : Clock} {id : String} {fate : Fate}

/-- The manager keeps a journal, and its tasks are alive there. -/
def Alive (m : Manager) : Prop := ∃ log, m.journal = some log ∧ Repeat.Alive m.tasks log.lines

theorem Alive.set {r : RuntimeTask} (h : m.Alive)
    (hr : r.task.state.terminal = false →
      ∃ old, m.tasks.get? r.task.id = some old ∧ old.task.state.terminal = false) :
    Alive { m with tasks := m.tasks.set r } := by
  obtain ⟨log, hjournal, halive⟩ := h
  exact ⟨log, hjournal, halive.set hr⟩

theorem Alive.goto {r r' : RuntimeTask} {routine : Routine} (h : m.Alive)
    (hr : m.tasks.get? id = some r) (htask : r'.task = r.task) : (m.goto r' routine).Alive := by
  refine h.set fun hactive => ⟨r, ?_, ?_⟩
  · rw [htask]
    exact get?_task hr
  · rwa [← htask]

/-- An append is acknowledged, or it leaves the lines as they are. -/
theorem Alive.append (h : m.Alive) (clk : Clock) (t : Task) (hfate : fate ≠ .unacknowledged) :
    ((m.append clk t fate).2 = true →
      ∀ r : RuntimeTask, r.task = t →
        Alive { (m.append clk t fate).1 with tasks := m.tasks.set r }) ∧
    ((m.append clk t fate).2 = false → (m.append clk t fate).1.Alive) := by
  obtain ⟨log, hjournal, halive⟩ := h
  have happend : m.append clk t fate =
      ({ m with
          journal := some (log.append ⟨clk.stamp, t.id, t⟩ fate).1
          persistErr := m.persistErr || !(log.append ⟨clk.stamp, t.id, t⟩ fate).2 },
        (log.append ⟨clk.stamp, t.id, t⟩ fate).2) := by
    simp only [Manager.append, hjournal]
  rw [happend]
  rcases log.append_cases ⟨clk.stamp, t.id, t⟩ fate with
    ⟨-, -, heq⟩ | ⟨hrefused, -, hsame | ⟨-, hwritten, -⟩⟩
  · rw [heq]
    refine ⟨fun _ r hr => ?_, fun hno => by cases hno⟩
    subst hr
    exact ⟨_, rfl, halive.append clk.stamp r⟩
  · refine ⟨fun hyes => ?_, fun _ => ⟨_, rfl, ?_⟩⟩
    · rw [hrefused] at hyes
      cases hyes
    · rw [hsame]
      exact halive
  · exact absurd hwritten hfate

/-- The task is over, or the one it takes the place of is not. -/
theorem Alive.refused {r : RuntimeTask} {t : Task} (h : m.Alive) (old : RuntimeTask)
    (hfate : fate ≠ .unacknowledged) (hno : (m.append clk t fate).2 = false)
    (hold : m.tasks.get? r.task.id = some old) (hactive : old.task.state.terminal = false) :
    Alive { (m.append clk t fate).1 with tasks := m.tasks.set r } := by
  have halive := ((h.append clk t hfate).2 hno).set (r := r)
    (fun _ => ⟨old, by rwa [append_tasks], hactive⟩)
  rwa [append_tasks] at halive

theorem Alive.create (h : m.Alive) (sourceID : String) (input : CreateInput)
    (hfate : fate ≠ .unacknowledged) : (m.create clk id sourceID input fate).1.Alive := by
  obtain ⟨hok, hno⟩ := h.append clk (Task.new clk.now id sourceID input) hfate
  rw [Manager.create]
  split
  · exact h
  · split
    · exact h
    · split
      · exact h
      · split
        · exact h
        · dsimp only
          split
          · next hyes => exact hok hyes _ rfl
          · next hnot => exact hno (by simpa using hnot)

theorem Alive.amend (h : m.Alive) (hfate : fate ≠ .unacknowledged) {change : Task → Task}
    {after : RuntimeTask → RuntimeTask} (hafter : ∀ r, (after r).task = r.task) :
    (m.amend clk id fate change after).1.Alive := by
  rw [Manager.amend]
  split
  · exact h
  · next r hr =>
      split
      · exact h
      · obtain ⟨hok, hno⟩ := h.append clk (change r.task) hfate
        dsimp only
        split
        · next hyes => exact hok hyes _ (hafter _)
        · next hnot => exact hno (by simpa using hnot)

theorem Alive.commit {r : RuntimeTask} (h : m.Alive) (old : RuntimeTask) (hfate : fate ≠ .unacknowledged)
    (hold : m.tasks.get? id = some old) (hactive : old.task.state.terminal = false) :
    (m.commit clk r old.task fate).Alive := by
  rw [Manager.commit]
  dsimp only
  split
  · next hyes => exact (h.append clk r.task hfate).1 hyes r rfl
  · next hnot => exact h.refused old hfate (by simpa using hnot) (get?_task hold) hactive

theorem Alive.next (h : m.Alive) (hfate : fate ≠ .unacknowledged) : (m.next clk id fate).Alive := by
  rw [Manager.next]
  split
  · exact h
  · next r hr =>
      split
      · exact h
      · split
        · exact h.goto hr rfl
        · next hactive =>
            split
            · exact h.goto hr rfl
            · split
              · exact h.commit r hfate hr (by simpa using hactive)
              · exact h.goto hr rfl

theorem Alive.leave (h : m.Alive) : (m.leave id).Alive := by
  rw [Manager.leave]
  split
  · exact h
  · next r hr =>
      split
      · split
        · exact h.goto hr rfl
        · exact h
      · exact h

theorem Alive.woken (h : m.Alive) : (m.woken id).Alive := by
  rw [Manager.woken]
  split
  · exact h
  · next r hr =>
      split
      · split
        · exact h.goto hr rfl
        · exact h
      · exact h

theorem Alive.fires (h : m.Alive) (now : Int) : (m.fires now id).Alive := by
  rw [Manager.fires]
  split
  · exact h
  · next r hr =>
      split
      · split
        · exact h.goto hr rfl
        · exact h
      · exact h

theorem Alive.beginExecution (h : m.Alive) (hfate : fate ≠ .unacknowledged) :
    (m.beginExecution clk id fate).1.Alive := by
  rw [Manager.beginExecution]
  split
  · exact h
  · next r hr =>
      split
      · exact h
      · split
        · exact h.goto hr rfl
        · next hready =>
            have hrunning : r.task.state = .running := by
              by_contra hnot
              exact hready (.inl hnot)
            have hactive : r.task.state.terminal = false := by
              rw [hrunning]
              rfl
            split
            · exact h.set fun hopen => by cases hopen
            · split
              · exact h.commit r hfate hr hactive
              · dsimp only
                split
                · next hyes => exact (h.append clk _ hfate).1 hyes _ rfl
                · next hnot => exact h.refused r hfate (by simpa using hnot) (get?_task hr) hactive

theorem Alive.finishExecution (h : m.Alive) (result : Execution) (hfate : fate ≠ .unacknowledged) :
    (m.finishExecution clk id result fate).Alive := by
  rw [Manager.finishExecution]
  split
  · exact h
  · next r hr =>
      split
      · exact h
      · split
        · exact h.goto hr rfl
        · next hactive => exact h.commit r hfate hr (by simpa using hactive)

theorem Alive.close {rank : String → Nat} {answers : String → Clock × Fate} (h : m.Alive)
    (hanswers : ∀ id, (answers id).2 ≠ .unacknowledged) : (m.close rank answers).Alive := by
  refine (Table.foldl_each (s := { m with closed := true }) (T := Manager.tasks) (I := Alive)
    (Q := fun _ _ => True) ?_ _ (m.ranged_nodup rank) h fun r hr => get?_of_ranged hr).1
  intro m r h hr
  rw [closeTask]
  split
  · exact ⟨h, trivial, fun _ _ => rfl, fun _ _ _ => trivial⟩
  · next hactive =>
      have hfate := hanswers r.task.id
      refine ⟨?_, trivial, fun k hk => Table.get?_set_of_ne ?_, fun _ _ _ => trivial⟩
      · dsimp only
        split
        · next hyes => exact (h.append _ _ hfate).1 hyes _ rfl
        · next hnot => exact h.refused r hfate (by simpa using hnot) hr (by simpa using hactive)
      · dsimp only [cancel]
        split
        · exact hk
        · exact hk

/-- A manager that is started, whether or not it can interrupt all its tasks. -/
theorem alive_new {log : Log Task} (hnamed : ∀ line ∈ log.lines, line.entityID = line.payload.id)
    (rank : String → Nat) {answers : String → Clock × Fate}
    (hanswers : ∀ id, (answers id).2 ≠ .unacknowledged) : (new log rank answers).1.Alive := by
  have hload : Alive { tasks := load log.lines, journal := some log } := by
    refine ⟨log, rfl, hnamed, fun id r hr hactive => ?_⟩
    rw [load_get?] at hr
    obtain ⟨t, ht, rfl⟩ := Option.map_eq_some_iff.1 hr
    exact ⟨t, ht, hactive⟩
  refine foldl_invariant (P := fun state : Manager × Bool => state.1.Alive) ?_ hload _
  intro state runtime h
  rw [interruptTask]
  split
  · exact h
  · obtain ⟨hok, hno⟩ := h.append (answers runtime.task.id).1
      (runtime.task.interrupt (answers runtime.task.id).1.now) (hanswers runtime.task.id)
    dsimp only
    cases hanswer : (state.1.append (answers runtime.task.id).1
        (runtime.task.interrupt (answers runtime.task.id).1.now) (answers runtime.task.id).2).2 with
    | true => exact hok hanswer _ rfl
    | false =>
        have halive := (hno hanswer).set
          (r := { runtime with task := runtime.task.interrupt (answers runtime.task.id).1.now })
          (fun hopen => by cases hopen)
        rwa [append_tasks] at halive

end Manager

namespace Service

/-- No append of the input fails behind the line it wrote. -/
def Input.Clean : Input → Prop
  | .registerSource _ | .unregisterSource _ | .leave _ | .woken _ | .fires _ _ => True
  | .create _ _ _ _ fate | .pause _ _ fate | .resume _ _ fate | .runNow _ _ fate
  | .stop _ _ fate | .next _ _ fate | .begin _ _ fate | .finish _ _ _ fate => fate ≠ .unacknowledged
  | .close _ answers => ∀ id, (answers id).2 ≠ .unacknowledged

theorem alive_step {s : Service} {i : Input} (hclean : i.Clean) (h : s.manager.Alive) :
    (s.step i).manager.Alive := by
  cases i with
  | registerSource id => exact h
  | unregisterSource id => exact h
  | create clk id sourceID input fate =>
      rw [step]
      split
      · exact h
      · exact h.create sourceID input hclean
  | pause clk id fate => exact h.amend hclean fun _ => rfl
  | resume clk id fate => exact h.amend hclean fun _ => rfl
  | runNow clk id fate => exact h.amend hclean fun _ => rfl
  | stop clk id fate => exact h.amend hclean fun _ => rfl
  | close rank answers => exact h.close hclean
  | next clk id fate => exact h.next hclean
  | leave id => exact h.leave
  | woken id => exact h.woken
  | fires now id => exact h.fires now
  | begin clk id fate =>
      have hbegin : (s.manager.beginExecution clk id fate).1.Alive := h.beginExecution hclean
      rw [step]
      split
      · exact hbegin
      · exact hbegin
  | finish clk id result fate => exact h.finishExecution result hclean

end Service

end Repeat

/-! ## Incidents -/

namespace Incidents

/-- An incident that is not resolved is its last snapshot. -/
structure Alive (items : Table Incident) (lines : List (Line Incident)) : Prop where
  named : ∀ line ∈ lines, line.entityID = line.payload.id
  survives : ∀ id x, items.get? id = some x → x.state ≠ .resolved →
    (snapshots lines).get? id = some x

namespace Alive

variable {items : Table Incident} {lines : List (Line Incident)}

theorem append (h : Alive items lines) (stamp : Int) (x : Incident) :
    Alive (items.set x) (lines ++ [⟨stamp, x.id, x⟩]) := by
  constructor
  · intro line hline
    rcases List.mem_append.1 hline with hline | hline
    · exact h.named line hline
    · rw [List.mem_singleton.1 hline]
  · intro id y hy hactive
    rw [snapshots_append]
    by_cases heq : id = key x
    · rw [heq, Table.get?_set_self] at hy
      rw [heq, Table.get?_set_self, hy]
    · rw [Table.get?_set_of_ne heq] at hy
      rw [Table.get?_set_of_ne heq]
      exact h.survives id y hy hactive

theorem compact (h : Alive items lines) {cutoff : Int}
    (hretains : ∀ x ∈ items.items, x.state ≠ .resolved →
      Log.retains lines cutoff [] x.id = true) :
    Alive items (Log.compact lines cutoff []) := by
  refine ⟨fun line hline => h.named line (List.mem_of_mem_filter hline), fun id x hx hactive => ?_⟩
  have hid : x.id = id := Table.key_of_get? hx
  rw [snapshots_compact h.named, if_pos (hid ▸ hretains x (Table.mem_of_get? hx) hactive)]
  exact h.survives id x hx hactive

end Alive

namespace Store

variable {s : Store} {clk : Clock} {fate : Fate} {p : Pruning}

/-- The store keeps a journal, and its incidents are alive there. -/
def Alive (s : Store) : Prop := ∃ log, s.journal = some log ∧ Incidents.Alive s.items log.lines

theorem Alive.prune (h : s.Alive) (p : Pruning) : (s.prune p).Alive := by
  obtain ⟨log, hjournal, halive⟩ := h
  rw [prune_eq]
  refine ⟨log, hjournal, halive.named, fun id x hx hactive => ?_⟩
  rcases pruned_prune s p id with hsame | ⟨hnone, -⟩
  · exact halive.survives id x (hsame.symm.trans hx) hactive
  · exact absurd (hnone.symm.trans hx) (by simp)

theorem Alive.scheduleRecovery (h : s.Alive) (sch : Scheduling) :
    (s.scheduleRecovery sch).Alive := by
  rw [scheduleRecovery_eq]
  exact h

/-- A change is appended and then made, or it is neither. -/
theorem Alive.persist (h : s.Alive) (stamp : Int) (x : Incident) (hfate : fate ≠ .unacknowledged) :
    ((s.persist stamp x fate).2 = true → ∀ current,
      Alive { (s.persist stamp x fate).1 with items := s.items.set x, current := current }) ∧
    ((s.persist stamp x fate).2 = false → (s.persist stamp x fate).1.Alive) := by
  obtain ⟨log, hjournal, halive⟩ := h
  have hpersist : s.persist stamp x fate =
      ({ s with journal := some (log.append ⟨stamp, x.id, x⟩ fate).1 },
        (log.append ⟨stamp, x.id, x⟩ fate).2) := by
    simp only [Store.persist, hjournal]
  rw [hpersist]
  rcases log.append_cases ⟨stamp, x.id, x⟩ fate with
    ⟨-, -, heq⟩ | ⟨hrefused, -, hsame | ⟨-, hwritten, -⟩⟩
  · rw [heq]
    exact ⟨fun _ _ => ⟨_, rfl, halive.append stamp x⟩, fun hno => by cases hno⟩
  · refine ⟨fun hyes => ?_, fun _ => ⟨_, rfl, ?_⟩⟩
    · rw [hrefused] at hyes
      cases hyes
    · rw [hsame]
      exact halive
  · exact absurd hwritten hfate

theorem Alive.recordFailure (h : s.Alive) (cfg : IncidentConfig) (rank : String → Nat)
    (newID requestID category : String) (statusCode : Int) (hfate : fate ≠ .unacknowledged) :
    (s.recordFailure cfg clk rank newID requestID category statusCode fate p).1.Alive := by
  rw [Store.recordFailure]
  split
  · exact h
  · obtain ⟨hok, hno⟩ := h.persist clk.stamp
      ((s.candidate cfg clk.now rank newID).fail clk.now requestID category statusCode) hfate
    dsimp only
    split
    · next hnot => exact hno (by simpa using hnot)
    · next hyes => exact (hok (by simpa using hyes) _).prune p

theorem Alive.recordSuccess (h : s.Alive) (sch : Scheduling) (hfate : fate ≠ .unacknowledged) :
    (s.recordSuccess clk sch fate).1.Alive := by
  rw [Store.recordSuccess]
  split
  · exact h
  · next x hx =>
      obtain ⟨hok, hno⟩ := h.persist clk.stamp
        { x with state := .recovering, recoveryStarted := some clk.now } hfate
      dsimp only
      split
      · next hnot => exact hno (by simpa using hnot)
      · next hyes => exact (hok (by simpa using hyes) _).scheduleRecovery sch

theorem Alive.resolve (h : s.Alive) (timer : Timer) (hfate : fate ≠ .unacknowledged) :
    (s.resolve clk timer fate p).Alive := by
  rw [Store.resolve]
  split
  · exact h
  · next x hx =>
      split
      · exact h
      · obtain ⟨hok, hno⟩ := h.persist clk.stamp
          { x with state := .resolved, resolvedAt := some clk.now } hfate
        dsimp only
        split
        · next hnot => exact hno (by simpa using hnot)
        · next hyes => exact (hok (by simpa using hyes) _).prune p

theorem alive_new {log : Log Incident}
    (hnamed : ∀ line ∈ log.lines, line.entityID = line.payload.id) (rank : String → Nat)
    (p : Pruning) (sch : Scheduling) : (new (some log) rank p sch).Alive := by
  have hrestored : Alive
      { journal := some log, items := snapshots log.lines,
        current := restoreCurrent (snapshots log.lines) rank } :=
    ⟨log, rfl, hnamed, fun _ _ hx _ => hx⟩
  exact (hrestored.prune p).scheduleRecovery sch

/-- What a replay has and is not resolved is there once the store is started. -/
theorem get?_new {log : Log Incident} {id : String} {x : Incident}
    (hx : (snapshots log.lines).get? id = some x) (hactive : x.state ≠ .resolved)
    (rank : String → Nat) (p : Pruning) (sch : Scheduling) :
    (new (some log) rank p sch).items.get? id = some x := by
  rw [show (new (some log) rank p sch).items.get? id = _ by rw [new, scheduleRecovery_eq]]
  rcases pruned_prune
      { journal := some log, items := snapshots log.lines,
        current := restoreCurrent (snapshots log.lines) rank } p id with
    hsame | ⟨-, y, hy, hresolved⟩
  · exact hsame.trans hx
  · obtain rfl := Option.some.inj (hx.symm.trans hy)
    exact absurd hresolved hactive

/-- No append of the input fails behind the line it wrote. -/
def Input.Clean : Input → Prop
  | .recordFailure _ _ _ _ _ _ _ fate _ | .recordSuccess _ _ fate | .fires _ _ _ fate _ =>
      fate ≠ .unacknowledged
  | .list _ | .restart _ _ _ _ => True

theorem alive_step {i : Input} (hclean : i.Clean)
    (hrestart : ∀ cutoff rank p sch, i ≠ .restart cutoff rank p sch) (h : s.Alive) :
    (s.step i).Alive := by
  cases i with
  | recordFailure cfg clk rank newID requestID category statusCode fate p =>
      exact h.recordFailure cfg rank newID requestID category statusCode hclean
  | recordSuccess clk sch fate => exact h.recordSuccess sch hclean
  | fires timer moment clk fate p =>
      rw [Store.step]
      split
      · exact h
      · next fired _ =>
          have hlet : Alive { s with timers := s.timers.eraseIdx timer } := h
          split
          · exact h
          · exact hlet.resolve fired hclean
  | list p => exact h.prune p
  | restart cutoff rank p sch => exact absurd rfl (hrestart cutoff rank p sch)

end Store

end Incidents

/-! ## Releases -/

namespace Policy

variable {F : Type}

namespace ReleaseManager

/-- What an event that reads back as it was makes of the manager. -/
def replayed (m : ReleaseManager F) : Event F → ReleaseManager F
  | .draftSaved policy => { m with draft := some policy }
  | .releasePrepared intent => { m with pending := m.pending.set intent }
  | .releasePublished record | .releaseRolledBack record =>
      m.releasedAs record (releaseOperationID record)
  | .releaseAborted intent => { m with pending := m.pending.erase intent.operationID }

/-- Of the entities that `p` lets through, the draft and the intents of the one
are in the other. -/
structure Within (p : String → Bool) (m m' : ReleaseManager F) : Prop where
  draft : ∀ policy, m.draft = some policy → p policy.revision = true → m'.draft = some policy
  pending : ∀ id intent, m.pending.get? id = some intent → p id = true →
    m'.pending.get? id = some intent

namespace Within

variable {p : String → Bool} {m m' : ReleaseManager F}

theorem erase (h : Within p m m') (id : String) :
    Within p { m with pending := m.pending.erase id }
      { m' with pending := m'.pending.erase id } := by
  refine ⟨h.draft, fun id' intent hi hp => ?_⟩
  dsimp only at hi ⊢
  by_cases heq : id' = id
  · rw [heq, Table.get?_erase_self] at hi
    cases hi
  · rw [Table.get?_erase_of_ne heq] at hi ⊢
    exact h.pending id' intent hi hp

theorem erase_left (h : Within p m m') (id : String) :
    Within p { m with pending := m.pending.erase id } m' := by
  refine ⟨h.draft, fun id' intent hi hp => ?_⟩
  dsimp only at hi
  by_cases heq : id' = id
  · rw [heq, Table.get?_erase_self] at hi
    cases hi
  · rw [Table.get?_erase_of_ne heq] at hi
    exact h.pending id' intent hi hp

theorem set (h : Within p m m') (intent : Intent F) :
    Within p { m with pending := m.pending.set intent }
      { m' with pending := m'.pending.set intent } := by
  refine ⟨h.draft, fun id other hi hp => ?_⟩
  dsimp only at hi ⊢
  by_cases heq : id = key intent
  · rw [heq, Table.get?_set_self] at hi ⊢
    exact hi
  · rw [Table.get?_set_of_ne heq] at hi ⊢
    exact h.pending id other hi hp

theorem set_left (h : Within p m m') {intent : Intent F} (hp : p intent.operationID = false) :
    Within p { m with pending := m.pending.set intent } m' := by
  refine ⟨h.draft, fun id other hi hid => ?_⟩
  dsimp only at hi
  by_cases heq : id = key intent
  · rw [heq, show key intent = intent.operationID from rfl, hp] at hid
    cases hid
  · rw [Table.get?_set_of_ne heq] at hi
    exact h.pending id other hi hid

theorem releasedAs (h : Within p m m') (record : ReleaseRecord F) (id : String) :
    Within p (m.releasedAs record id) (m'.releasedAs record id) := by
  refine ⟨fun policy hd => (by cases hd), fun id' intent hi => ?_⟩
  rw [releasedAs_pending] at hi ⊢
  exact (h.erase id).pending id' intent hi

theorem releasedAs_left (h : Within p m m') (record : ReleaseRecord F) (id : String) :
    Within p (m.releasedAs record id) m' := by
  refine ⟨fun policy hd => (by cases hd), fun id' intent hi => ?_⟩
  rw [releasedAs_pending] at hi
  exact (h.erase_left id).pending id' intent hi

theorem replayed (h : Within p m m') (event : Event F) :
    Within p (m.replayed event) (m'.replayed event) := by
  cases event with
  | draftSaved policy => exact ⟨fun _ hd _ => hd, h.pending⟩
  | releasePrepared intent => exact h.set intent
  | releasePublished record => exact h.releasedAs record _
  | releaseRolledBack record => exact h.releasedAs record _
  | releaseAborted intent => exact h.erase _

end Within

variable [Float64 F]

/-- A line as the manager writes one: its event reads back as it was, and what
it adds to the replay goes by the entity of the line. -/
def Written (line : Line (Event F)) : Prop :=
  match line.payload with
  | .draftSaved policy =>
      policy.sizeKept = true ∧ cloneConfig policy = policy ∧ line.entityID = policy.revision
  | .releasePrepared intent => intent.Sound ∧ line.entityID = intent.operationID
  | .releasePublished record | .releaseRolledBack record => record.policy.sizeKept = true
  | .releaseAborted intent => intent.record.policy.sizeKept = true ∧ intent.operationID ≠ ""

variable {m : ReleaseManager F} {lines : List (Line (Event F))} {line : Line (Event F)}

theorem replayEvent_of_written (h : Written line) (m : ReleaseManager F) :
    m.replayEvent line.payload = some (m.replayed line.payload) := by
  obtain ⟨time, entityID, event⟩ := line
  cases event with
  | draftSaved policy =>
      simp only [replayEvent, Config.readBack_of_kept h.1, Option.bind_eq_bind, Option.bind_some,
        h.2.1, replayed]
  | releasePrepared intent =>
      have hnamed : intent.operationID ≠ "" := h.1.computed ▸ releaseOperationID_ne_empty _
      exact Releases.replayEvent_releasePrepared m h.1.kept hnamed
  | releasePublished record => exact Releases.replayEvent_applied m false h
  | releaseRolledBack record => exact Releases.replayEvent_applied m true h
  | releaseAborted intent =>
      exact Releases.replayEvent_releaseAborted m (Config.nonneg_of_kept h.1) h.2

/-- What the replay of such lines makes. -/
def restored (lines : List (Line (Event F))) : ReleaseManager F :=
  lines.foldl (fun m line => m.replayed line.payload) {}

omit [Float64 F] in
theorem restored_append (lines : List (Line (Event F))) (line : Line (Event F)) :
    restored (lines ++ [line]) = (restored lines).replayed line.payload :=
  List.foldl_append

theorem replay_of_written (h : ∀ line ∈ lines, Written line) :
    replay lines = some (restored lines) := by
  induction lines using List.reverseRecOn with
  | nil => rfl
  | append_singleton lines line ih =>
      rw [replay, replayFrom_append, restored_append,
        show replayFrom {} lines = some (restored lines) from ih fun l hl => h l (by simp [hl])]
      exact replayEvent_of_written (h line (by simp)) _

theorem Kept.replayed (hm : m.Kept) (h : Written line) : (m.replayed line.payload).Kept := by
  obtain ⟨time, entityID, event⟩ := line
  cases event with
  | draftSaved policy =>
      refine ⟨fun p hp => ?_, hm.history, hm.pending⟩
      obtain rfl := Option.some.inj hp
      exact h.1
  | releasePrepared intent => exact hm.set h.1
  | releasePublished record => exact hm.releasedAs h _
  | releaseRolledBack record => exact hm.releasedAs h _
  | releaseAborted intent => exact hm.erase _

theorem kept_restored (h : ∀ line ∈ lines, Written line) : (restored lines).Kept := by
  induction lines using List.reverseRecOn with
  | nil => exact kept_empty
  | append_singleton lines line ih =>
      rw [restored_append]
      exact (ih fun l hl => h l (by simp [hl])).replayed (h line (by simp))

/-- An event of an entity that is not let through. -/
theorem Within.replayed_left {p : String → Bool} {m m' : ReleaseManager F} (h : Within p m m')
    (hline : Written line) (hp : p line.entityID = false) :
    Within p (m.replayed line.payload) m' := by
  obtain ⟨time, entityID, event⟩ := line
  cases event with
  | draftSaved policy =>
      refine ⟨fun other hd hother => ?_, h.pending⟩
      obtain rfl := Option.some.inj hd
      rw [← hline.2.2, hp] at hother
      cases hother
  | releasePrepared intent => exact h.set_left (hline.2 ▸ hp)
  | releasePublished record => exact h.releasedAs_left record _
  | releaseRolledBack record => exact h.releasedAs_left record _
  | releaseAborted intent => exact h.erase_left _

/-- The lines that `p` lets through. -/
theorem restored_filter (p : String → Bool) (h : ∀ line ∈ lines, Written line) :
    Within p (restored lines) (restored (lines.filter fun line => p line.entityID)) := by
  induction lines using List.reverseRecOn with
  | nil => exact ⟨fun _ hd _ => hd, fun _ _ hi _ => hi⟩
  | append_singleton lines line ih =>
      have ih := ih fun l hl => h l (by simp [hl])
      rw [List.filter_append, restored_append]
      cases hp : p line.entityID with
      | true =>
          rw [List.filter_cons_of_pos (by simpa using hp), List.filter_nil, restored_append]
          exact ih.replayed _
      | false =>
          rw [List.filter_cons_of_neg (by simp [hp]), List.filter_nil, List.append_nil]
          exact ih.replayed_left (h line (by simp)) hp

end ReleaseManager

namespace Releases

open ReleaseManager

variable [Float64 F] {r : Releases F} {m : ReleaseManager F} {now : Int} {fate : Fate}

/-- The draft and the intents are those of a replay, and more may be there. -/
structure Alive (r : Releases F) : Prop where
  written : ∀ line ∈ r.ledger.lines, Written line
  replayed : Within (fun _ => true) r.manager (restored r.ledger.lines)
  kept : r.manager.Kept

theorem Alive.ledger (h : r.Alive) {log : Log (Event F)} (hlog : log.lines = r.ledger.lines) :
    Alive { r with ledger := log } := by
  refine ⟨fun line hline => h.written line (hlog ▸ hline), ?_, h.kept⟩
  dsimp only
  rw [hlog]
  exact h.replayed

/-- The lines that are left have the entities of the draft and the intents. -/
theorem Alive.compact (h : r.Alive) {log : Log (Event F)} {cutoff : Int}
    (hlog : log.lines = Log.compact r.ledger.lines cutoff [])
    (hdraft : ∀ policy, r.manager.draft = some policy →
      Log.retains r.ledger.lines cutoff [] policy.revision = true)
    (hpending : ∀ intent ∈ r.manager.pending.items,
      Log.retains r.ledger.lines cutoff [] intent.operationID = true) :
    Alive { r with ledger := log } := by
  have hfilter := restored_filter (Log.retains r.ledger.lines cutoff []) h.written
  rw [← show Log.compact r.ledger.lines cutoff [] = r.ledger.lines.filter _ from rfl, ← hlog] at hfilter
  refine ⟨fun line hline => ?_, ⟨fun policy hd _ => ?_, fun id intent hi _ => ?_⟩, h.kept⟩
  · rw [hlog] at hline
    exact h.written line (List.mem_of_mem_filter hline)
  · exact hfilter.draft policy (h.replayed.draft policy hd rfl) (hdraft policy hd)
  · have hid : intent.operationID = id := Table.key_of_get? hi
    have hheard := hpending intent (Table.mem_of_get? hi)
    rw [hid] at hheard
    exact hfilter.pending id intent (h.replayed.pending id intent hi rfl) hheard

/-- An event is appended and then made, or it is neither. -/
theorem Alive.commit (h : r.Alive) {entityID : String} {event : Event F}
    {f : ReleaseManager F → ReleaseManager F} (hfate : fate ≠ .unacknowledged)
    (hline : event.marshals = true → Written ⟨now, entityID, event⟩)
    (hf : event.marshals = true → f r.manager = r.manager.replayed event) :
    (r.commit now entityID event fate f).1.Alive := by
  have hacks : (r.lands event fate && fate = .written) = r.lands event fate := by
    cases fate with
    | written => simp
    | lost => simp [lands]
    | unacknowledged => exact absurd rfl hfate
  simp only [Releases.commit, append_eq, hacks]
  cases hlands : r.lands event fate with
  | true =>
      have hmarshals : event.marshals = true := by
        simp only [lands, Bool.and_eq_true] at hlands
        exact hlands.1.2
      have hwritten := hline hmarshals
      simp only [if_true, hf hmarshals]
      constructor
      · intro line hin
        rcases List.mem_append.1 hin with hin | hin
        · exact h.written line hin
        · rw [List.mem_singleton.1 hin]
          exact hwritten
      · dsimp only
        rw [restored_append]
        exact h.replayed.replayed event
      · exact h.kept.replayed hwritten
  | false => exact ⟨h.written, h.replayed, h.kept⟩

theorem Alive.saveDraft (h : r.Alive) (u : Unicode) {raw candidate : Config F}
    (hread : raw.readBack = some candidate) (expectedRevision : String)
    (hfate : fate ≠ .unacknowledged) :
    (r.saveDraft u now candidate expectedRevision fate).1.Alive := by
  rcases r.saveDraft_eq u now candidate expectedRevision fate with heq | ⟨hvalid, heq⟩
  · rwa [heq]
  · rw [heq]
    have hkept : candidate.sizeKept = true := Config.kept_of_readBack hread (nonneg_of_valid hvalid)
    refine h.commit hfate (fun _ => ⟨Config.sizeKept_of_shadow rfl hkept, ?_, rfl⟩) fun _ => rfl
    simp only [draftOf, cloneConfig, cloneRules_eq (cloneRules_ne_empty candidate.rules)]

variable {p : Prepared F}

theorem Alive.prepareCommit (h : r.Alive) (hp : p.Sound) (hfate : fate ≠ .unacknowledged) :
    (r.prepareCommit now p.record p.rollback fate).1.Alive := by
  cases hpending : r.manager.pending.get? p.record.identified.operationID with
  | some _ =>
      rw [Releases.prepareCommit, if_pos (by simp [hpending])]
      exact h
  | none =>
      rw [prepareCommit_eq p.rollback hpending, hp.identified]
      exact h.commit hfate (fun hmarshals => ⟨hp.intent hmarshals, rfl⟩) fun _ => rfl

theorem Alive.finalizeCommit (h : r.Alive) (hp : p.Sound) (hfate : fate ≠ .unacknowledged) :
    (r.finalizeCommit now p.record p.rollback fate).1.Alive := by
  rw [finalizeCommit_eq, hp.identified]
  refine h.commit hfate (fun _ => ?_) fun _ => ?_
  · cases hrollback : p.rollback with
    | false => exact hp.kept
    | true => exact hp.kept
  · rw [hp.computed]
    cases hrollback : p.rollback with
    | false => rfl
    | true => rfl

theorem Alive.abortCommit (h : r.Alive) (hp : p.Sound) (reason : String)
    (hfate : fate ≠ .unacknowledged) :
    (r.abortCommit now p.record p.rollback reason fate).1.Alive := by
  rw [abortCommit_eq, hp.identified]
  exact h.commit hfate (fun _ => ⟨hp.kept, hp.named⟩) fun _ => rfl

theorem Alive.reconcileLoop {current : Config F} {rounds : List (Intent F × Int × Fate)}
    (h : r.Alive) (hsound : ∀ round ∈ rounds, round.1.Sound)
    (hfates : ∀ round ∈ rounds, round.2.2 ≠ .unacknowledged) :
    (r.reconcileLoop current rounds).1.Alive := by
  induction rounds generalizing r with
  | nil => exact h
  | cons round rounds ih =>
      obtain ⟨intent, now, fate⟩ := round
      have hintent : intent.Sound := hsound _ List.mem_cons_self
      have hsettled : (r.reconcileIntent now current intent fate).1.Alive := by
        rw [reconcileIntent_eq]
        refine h.commit (hfates _ List.mem_cons_self) (fun _ => ?_) fun _ => ?_
        · rw [settlingEvent]
          split
          · cases hrollback : intent.rollback with
            | false => exact hintent.kept
            | true => exact hintent.kept
          · exact ⟨hintent.kept, hintent.computed ▸ releaseOperationID_ne_empty _⟩
        · rw [settlingEvent, settledBy]
          split
          · rw [hintent.computed]
            cases hrollback : intent.rollback with
            | false => rfl
            | true => rfl
          · rfl
      rw [Releases.reconcileLoop]
      split
      · exact ih hsettled (fun round hin => hsound round (List.mem_cons_of_mem _ hin))
          fun round hin => hfates round (List.mem_cons_of_mem _ hin)
      · exact hsettled

theorem Alive.reconcile (h : r.Alive) (current : Config F) (rank : String → Nat)
    {answers : String → Int × Fate} (hfates : ∀ id, (answers id).2 ≠ .unacknowledged) :
    (r.reconcile current rank answers).1.Alive := by
  refine h.reconcileLoop (fun round hin => ?_) fun round hin => ?_
  · obtain ⟨intent, hintent, rfl⟩ := List.mem_map.1 hin
    exact h.kept.pending intent (List.mem_mergeSort.1 hintent)
  · obtain ⟨intent, -, rfl⟩ := List.mem_map.1 hin
    exact hfates _

/-- The manager that a start makes of such lines. -/
theorem alive_restored {lines : List (Line (Event F))} (h : ∀ line ∈ lines, Written line) :
    Alive { manager := restored lines, ledger.lines := lines } :=
  ⟨h, ⟨fun _ hd _ => hd, fun _ _ hi _ => hi⟩, kept_restored h⟩

end Releases

end Policy

end RelayLifeline
