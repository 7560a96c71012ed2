import RelayLifeline.Proofs.Survivors

/-!
# What is active survives while it is heard of

What is active in a manager is active in its journal, and a compaction takes
an entity out where none of its lines is as young as the retention. No entity
is protected. So what is active when the process stops is found by the next
replay as long as no compaction meets one that has been quiet for longer than
the retention of its journal; and one that has been is gone.
-/

namespace RelayLifeline

open Journal Lib

namespace Repeat.Manager

/-- A task that was loaded and was not over is interrupted where the manager
could write them all. -/
theorem interrupted_new {log : Log Task} {rank : String → Nat} {answers : String → Clock × Fate}
    (hgoes : (new log rank answers).2 = true) {r : RuntimeTask}
    (hr : (load log.lines).get? r.task.id = some r) (hactive : r.task.state.terminal = false) :
    ((new log rank answers).1.tasks.get? r.task.id).any (fun r' => r'.task.state = .interrupted) =
      true := by
  let start : Manager := { tasks := load log.lines, journal := some log }
  obtain ⟨-, hdone, -, -⟩ := Table.foldl_each (s := (start, true))
    (T := fun state : Manager × Bool => state.1.tasks) (I := fun _ => True)
    (Q := fun state a => state.2 = true → a.task.state.terminal = false →
      ∃ r', state.1.tasks.get? (key a) = some r' ∧ r'.task.state = .interrupted)
    (f := fun state a => interruptTask state a (answers a.task.id))
    (by
      intro state a _ ha
      rcases interruptTask_cases state a (answers a.task.id) with
        ⟨heq, hover⟩ | ⟨hgoes, now, stamp, fate, htasks, -⟩
      · rw [heq]
        refine ⟨trivial, fun hgoes hopen => ?_, fun _ _ => rfl, fun _ _ hQ => hQ⟩
        rw [hover hgoes] at hopen
        cases hopen
      · have hother : ∀ k, k ≠ key a →
            (interruptTask state a (answers a.task.id)).1.tasks.get? k = state.1.tasks.get? k := by
          intro k hk
          rw [htasks]
          exact Table.get?_set_of_ne hk
        refine ⟨trivial, fun _ _ => ?_, hother, fun b hb hQ _ hopen => ?_⟩
        · rw [htasks]
          exact ⟨_, Table.get?_set_self, rfl⟩
        · obtain ⟨r', hr', hstate⟩ := hQ hgoes hopen
          exact ⟨r', (hother _ hb).trans hr', hstate⟩)
    (start.ranged rank) (ranged_nodup _ _) trivial (fun a ha => get?_of_ranged ha)
  have hin : r ∈ start.ranged rank := (start.ranged_perm rank).mem_iff.2 (Table.mem_of_get? hr)
  obtain ⟨r', hr', hstate⟩ := hdone r hin hgoes hactive
  rw [show (new log rank answers).1.tasks.get? r.task.id = some r' from hr']
  simp [hstate]

end Repeat.Manager

namespace Maintenance

variable {F : Type} [Policy.Float64 F]

/-! ## Hearing of an entity -/

/-- The journal has a line of the entity that is not older than the cutoff. -/
def heardSince {P : Type} (lines : List (Line P)) (cutoff : Int) (id : String) : Bool :=
  lines.any fun line => line.entityID = id ∧ cutoff ≤ line.time

theorem retains_of_heardSince {P : Type} {lines : List (Line P)} {cutoff : Int} {id : String}
    (h : heardSince lines cutoff id = true) : Log.retains lines cutoff [] id = true := by
  obtain ⟨line, hline, hheard⟩ := List.any_eq_true.1 h
  obtain ⟨hid, htime⟩ := of_decide_eq_true hheard
  have hany : (lines.any fun line => !(line.time < cutoff) ∧ line.entityID = id) = true :=
    List.any_eq_true.2 ⟨line, hline, by simp [hid, htime]⟩
  simp only [Log.retains, decide_eq_true_eq]
  exact .inr hany

/-- A compaction leaves the lines alone or leaves those it retains, and where it
was refused it leaves them alone. -/
theorem compact_lines {P : Type} (log : Log P) (cutoff : Int) (fate : Fate) :
    (compact log cutoff fate).1.lines = log.lines ∨
      fate ≠ .lost ∧ (compact log cutoff fate).1.lines = Log.compact log.lines cutoff [] := by
  rw [compact.eq_def]
  dsimp only
  split
  · exact .inl rfl
  · cases fate with
    | lost => exact .inl rfl
    | written => exact .inr ⟨by simp, rfl⟩
    | unacknowledged => exact .inr ⟨by simp, rfl⟩

/-- A journal whose lines are all young is left as it is. -/
theorem compact_of_young {P : Type} {log : Log P} {cutoff : Int}
    (h : log.lines.all (cutoff ≤ ·.time) = true) (fate : Fate) :
    compact log cutoff fate = (log, true) := by
  have hkept : Log.compact log.lines cutoff [] = log.lines := by
    refine List.filter_eq_self.2 fun line hline => retains_of_heardSince ?_
    have htime := of_decide_eq_true (List.all_eq_true.1 h line hline)
    exact List.any_eq_true.2 ⟨line, hline, by simp [htime]⟩
  rw [compact.eq_def]
  dsimp only
  rw [if_pos (congrArg List.length hkept)]

namespace World

/-! ## The conditions -/

/-- Each incident that is not resolved has been heard of within the retention. -/
def hearsIncidents (w : World F) (s : Sweep) : Bool :=
  s.incidents.2 = .lost || w.incidents.items.items.all fun x =>
    x.state = .resolved ||
      w.incidents.journal.any fun log => heardSince log.lines s.incidentCutoff x.id

/-- Each task that is not over has been. -/
def hearsTasks (w : World F) (s : Sweep) : Bool :=
  s.repeats.2 = .lost || w.repeats.manager.tasks.items.all fun r =>
    r.task.state.terminal ||
      w.repeats.manager.journal.any fun log => heardSince log.lines s.repeatCutoff r.task.id

/-- The draft and each pending intent have been. -/
def hearsReleases (w : World F) (s : Sweep) : Bool :=
  let heard := heardSince w.site.releases.ledger.lines s.policyCutoff
  s.policies.2 = .lost ||
    (w.site.releases.manager.draft.all fun policy => heard policy.revision) &&
      w.site.releases.manager.pending.items.all fun intent => heard intent.operationID

/-- Whatever is active has been heard of within the retention of its journal. -/
def hears (w : World F) (s : Sweep) : Bool :=
  w.hearsIncidents s && w.hearsTasks s && w.hearsReleases s

/-- A compaction of the input takes nothing active out that has been quiet. -/
def hearsAt (w : World F) : Input F → Bool
  | .maintain now retentions incidents repeats policies =>
      !w.site.running ||
        w.hears ⟨retentions, (now, incidents), (now, repeats), (now, policies)⟩
  | .start s => w.hears s.sweep
  | _ => true

end World

/-- No append of the input fails behind the line it wrote. -/
def Input.Clean : Input F → Prop
  | .incident i => i.Clean
  | .task i => i.Clean
  | .saveDraft _ _ _ fate => fate ≠ .unacknowledged
  | .prepareCommit _ answer | .finalizeCommit _ answer | .abortCommit _ _ answer =>
      answer.2 ≠ .unacknowledged
  | .start s =>
      (∀ id, (s.reconciled id).2 ≠ .unacknowledged) ∧ ∀ id, (s.interrupted id).2 ≠ .unacknowledged
  | .prepare _ _ _ | .configure _ | .maintain _ _ _ _ _ => True

namespace World

/-! ## What a replay finds -/

/-- What a start replays. -/
def compacted (w : World F) (s : Startup) : World F := (w.reopen.compactAll s.sweep).1

/-- The next start finds what is active. -/
structure Finds (w : World F) (s : Startup) : Prop where
  incidents : ∃ log, (w.compacted s).incidents.journal = some log ∧
    ∀ x ∈ w.incidents.items.items, x.state ≠ .resolved →
      (Incidents.Store.new (some log) s.incidentRank s.pruning s.scheduling).items.get? x.id =
        some x
  tasks : ∃ log, (w.compacted s).repeats.manager.journal = some log ∧
    ∀ r ∈ w.repeats.manager.tasks.items, r.task.state.terminal = false →
      (∃ t, (Repeat.Manager.load log.lines).get? r.task.id = some { task := t } ∧
        t.state.terminal = false) ∧
      ((Repeat.Manager.new log s.repeatRank s.interrupted).2 = true →
        ((Repeat.Manager.new log s.repeatRank s.interrupted).1.tasks.get? r.task.id).any
          (fun r' => r'.task.state = .interrupted) = true)
  releases : ∃ m, Policy.ReleaseManager.replay (w.compacted s).site.releases.ledger.lines = some m ∧
    (∀ policy, w.site.releases.manager.draft = some policy → m.draft = some policy) ∧
    ∀ intent ∈ w.site.releases.manager.pending.items,
      m.pending.get? intent.operationID = some intent

/-! ## The invariant -/

/-- What is active in the managers is active in the journals. -/
structure Alive (w : World F) : Prop where
  incidents : w.incidents.Alive
  tasks : w.repeats.manager.Alive
  releases : w.site.releases.Alive
  handed : ∀ p ∈ w.handed, p.Sound

/-- The managers but for their journals. -/
structure SameManagers (w w' : World F) : Prop where
  items : w'.incidents.items = w.incidents.items
  tasks : w'.repeats.manager.tasks = w.repeats.manager.tasks
  releases : w'.site.releases.manager = w.site.releases.manager
  handed : w'.handed = w.handed

omit [Policy.Float64 F] in
theorem SameManagers.trans {w w' w'' : World F} (h : w.SameManagers w') (h' : w'.SameManagers w'') :
    w.SameManagers w'' :=
  ⟨h'.items.trans h.items, h'.tasks.trans h.tasks, h'.releases.trans h.releases,
    h'.handed.trans h.handed⟩

variable {w : World F} {s : Sweep}

/-- Every line of the three journals is as young as its retention. -/
def youngAt (w : World F) (s : Sweep) : Bool :=
  (w.incidents.journal.all fun log => log.lines.all (s.incidentCutoff ≤ ·.time)) &&
    (w.repeats.manager.journal.all fun log => log.lines.all (s.repeatCutoff ≤ ·.time)) &&
    w.site.releases.ledger.lines.all (s.policyCutoff ≤ ·.time)

omit [Policy.Float64 F] in
theorem maintain_of_young (h : w.youngAt s = true) : w.maintain s = w := by
  rw [youngAt, Bool.and_eq_true, Bool.and_eq_true] at h
  obtain ⟨⟨hincidents, hrepeats⟩, hpolicies⟩ := h
  have hfirst : (w.compactIncidents s).1 = w := by
    rw [compactIncidents]
    split
    · rfl
    · next log hlog =>
      rw [hlog] at hincidents
      dsimp only
      rw [compact_of_young hincidents, ← hlog]
  have hsecond : (w.compactRepeats s).1 = w := by
    rw [compactRepeats]
    split
    · rfl
    · next log hlog =>
      rw [hlog] at hrepeats
      dsimp only
      rw [compact_of_young hrepeats, ← hlog]
  rw [maintain, hfirst, hsecond, compactPolicies]
  dsimp only
  rw [compact_of_young hpolicies]

omit [Policy.Float64 F] in
theorem compactIncidents_same (w : World F) (s : Sweep) :
    w.SameManagers (w.compactIncidents s).1 := by
  rw [compactIncidents]
  split
  · exact ⟨rfl, rfl, rfl, rfl⟩
  · exact ⟨rfl, rfl, rfl, rfl⟩

omit [Policy.Float64 F] in
theorem compactRepeats_same (w : World F) (s : Sweep) : w.SameManagers (w.compactRepeats s).1 := by
  rw [compactRepeats]
  split
  · exact ⟨rfl, rfl, rfl, rfl⟩
  · exact ⟨rfl, rfl, rfl, rfl⟩

omit [Policy.Float64 F] in
theorem compactPolicies_same (w : World F) (s : Sweep) : w.SameManagers (w.compactPolicies s).1 :=
  ⟨rfl, rfl, rfl, rfl⟩

theorem Alive.compactIncidents (h : w.Alive) (hears : w.hearsIncidents s = true) :
    (w.compactIncidents s).1.Alive := by
  obtain ⟨log, hjournal, halive⟩ := h.incidents
  simp only [World.compactIncidents, hjournal]
  refine ⟨⟨_, rfl, ?_⟩, h.tasks, h.releases, h.handed⟩
  rcases compact_lines log s.incidentCutoff s.incidents.2 with hsame | ⟨hgoes, hlines⟩
  · rw [hsame]
    exact halive
  · rw [hlines]
    refine halive.compact fun x hx hactive => retains_of_heardSince ?_
    simp only [hearsIncidents, hgoes, decide_false, Bool.false_or, List.all_eq_true] at hears
    simpa [hactive, hjournal] using hears x hx

theorem Alive.compactRepeats (h : w.Alive) (hears : w.hearsTasks s = true) :
    (w.compactRepeats s).1.Alive := by
  obtain ⟨log, hjournal, halive⟩ := h.tasks
  simp only [World.compactRepeats, hjournal]
  refine ⟨h.incidents, ⟨_, rfl, ?_⟩, h.releases, h.handed⟩
  rcases compact_lines log s.repeatCutoff s.repeats.2 with hsame | ⟨hgoes, hlines⟩
  · rw [hsame]
    exact halive
  · rw [hlines]
    refine halive.compact fun r hr hactive => retains_of_heardSince ?_
    simp only [hearsTasks, hgoes, decide_false, Bool.false_or, List.all_eq_true] at hears
    simpa [hactive, hjournal] using hears r hr

theorem Alive.compactPolicies (h : w.Alive) (hears : w.hearsReleases s = true) :
    (w.compactPolicies s).1.Alive := by
  refine ⟨h.incidents, h.tasks, ?_, h.handed⟩
  rcases compact_lines w.site.releases.ledger s.policyCutoff s.policies.2 with
    hsame | ⟨hgoes, hlines⟩
  · exact h.releases.ledger hsame
  · simp only [hearsReleases, hgoes, decide_false, Bool.false_or, Bool.and_eq_true,
      Option.all_eq_true, List.all_eq_true] at hears
    exact h.releases.compact hlines
      (fun policy hd => retains_of_heardSince (hears.1 policy hd))
      fun intent hin => retains_of_heardSince (hears.2 intent hin)

/-! ### Compactions of all three -/

omit [Policy.Float64 F] in
theorem hears_iff : w.hears s = true ↔
    w.hearsIncidents s = true ∧ w.hearsTasks s = true ∧ w.hearsReleases s = true := by
  rw [hears, Bool.and_eq_true, Bool.and_eq_true, and_assoc]

omit [Policy.Float64 F] in
theorem hearsTasks_compactIncidents (w : World F) (s : Sweep) :
    (w.compactIncidents s).1.hearsTasks s = w.hearsTasks s := by
  rw [World.compactIncidents]
  split
  · rfl
  · rfl

omit [Policy.Float64 F] in
theorem hearsReleases_compactIncidents (w : World F) (s : Sweep) :
    (w.compactIncidents s).1.hearsReleases s = w.hearsReleases s := by
  rw [World.compactIncidents]
  split
  · rfl
  · rfl

omit [Policy.Float64 F] in
theorem hearsReleases_compactRepeats (w : World F) (s : Sweep) :
    (w.compactRepeats s).1.hearsReleases s = w.hearsReleases s := by
  rw [World.compactRepeats]
  split
  · rfl
  · rfl

theorem Alive.maintain (h : w.Alive) (hears : w.hears s = true) : (w.maintain s).Alive := by
  obtain ⟨hincidents, htasks, hreleases⟩ := hears_iff.1 hears
  rw [← hearsTasks_compactIncidents] at htasks
  rw [← hearsReleases_compactIncidents, ← hearsReleases_compactRepeats] at hreleases
  exact ((h.compactIncidents hincidents).compactRepeats htasks).compactPolicies hreleases

theorem Alive.compactAll (h : w.Alive) (hears : w.hears s = true) : (w.compactAll s).1.Alive := by
  obtain ⟨hincidents, htasks, hreleases⟩ := hears_iff.1 hears
  rw [← hearsTasks_compactIncidents] at htasks
  rw [← hearsReleases_compactIncidents, ← hearsReleases_compactRepeats] at hreleases
  have hfirst := h.compactIncidents hincidents
  have hsecond := hfirst.compactRepeats htasks
  rw [World.compactAll]
  dsimp only
  split
  · exact hfirst
  · split
    · exact hsecond
    · exact hsecond.compactPolicies hreleases

omit [Policy.Float64 F] in
theorem compactAll_same (w : World F) (s : Sweep) : w.SameManagers (w.compactAll s).1 := by
  have hfirst := w.compactIncidents_same s
  have hsecond := hfirst.trans (compactRepeats_same _ s)
  rw [World.compactAll]
  dsimp only
  split
  · exact hfirst
  · split
    · exact hsecond
    · exact hsecond.trans (compactPolicies_same _ s)

theorem Alive.reopen (h : w.Alive) : w.reopen.Alive := by
  obtain ⟨log, hjournal, halive⟩ := h.incidents
  obtain ⟨log', hjournal', halive'⟩ := h.tasks
  refine ⟨⟨{ lines := log.lines }, ?_, halive⟩, ⟨{ lines := log'.lines }, ?_, halive'⟩,
    h.releases.ledger rfl, h.handed⟩
  · simp only [World.reopen, hjournal, Option.map_some]
  · simp only [World.reopen, hjournal', Option.map_some]

omit [Policy.Float64 F] in
theorem hears_reopen (w : World F) (s : Sweep) : w.reopen.hears s = w.hears s := by
  have hincidents : w.reopen.hearsIncidents s = w.hearsIncidents s := by
    simp only [hearsIncidents, World.reopen]
    cases w.incidents.journal with
    | none => rfl
    | some log => rfl
  have htasks : w.reopen.hearsTasks s = w.hearsTasks s := by
    simp only [hearsTasks, World.reopen]
    cases w.repeats.manager.journal with
    | none => rfl
    | some log => rfl
  rw [hears, hincidents, htasks]
  rfl

variable {startup : Startup}

theorem Alive.compacted (h : w.Alive) (hears : w.hears startup.sweep = true) :
    (w.compacted startup).Alive :=
  h.reopen.compactAll ((w.hears_reopen _).trans hears)

omit [Policy.Float64 F] in
theorem compacted_same (w : World F) (startup : Startup) :
    w.SameManagers (w.compacted startup) := by
  have hreopen : w.SameManagers w.reopen := ⟨rfl, rfl, rfl, rfl⟩
  exact hreopen.trans (compactAll_same w.reopen startup.sweep)

theorem Alive.finds (h : w.Alive) (hears : w.hears startup.sweep = true) : w.Finds startup := by
  have hsame := w.compacted_same startup
  obtain ⟨⟨log, hjournal, hincidents⟩, ⟨log', hjournal', htasks⟩, hreleases, -⟩ := h.compacted hears
  rw [hsame.items] at hincidents
  rw [hsame.tasks] at htasks
  refine ⟨⟨log, hjournal, fun x hx hactive => ?_⟩, ⟨log', hjournal', fun r hr hactive => ?_⟩, ?_⟩
  · exact Incidents.Store.get?_new
      (hincidents.survives x.id x (Table.get?_of_mem hx) hactive) hactive _ _ _
  · obtain ⟨t, ht, hopen⟩ := htasks.survives r.task.id r (Table.get?_of_mem hr) hactive
    have hload : (Repeat.Manager.load log'.lines).get? r.task.id = some { task := t } := by
      rw [Repeat.Manager.load_get?, ht]
      rfl
    refine ⟨⟨t, hload, hopen⟩, fun hgoes => ?_⟩
    have hid : t.id = r.task.id := Table.key_of_get? hload
    rw [← hid] at hload ⊢
    exact Repeat.Manager.interrupted_new (r := { task := t }) hgoes hload hopen
  · refine ⟨_, Policy.ReleaseManager.replay_of_written hreleases.written, fun policy hd => ?_,
      fun intent hin => ?_⟩
    · exact hreleases.replayed.draft policy (by rw [hsame.releases]; exact hd) rfl
    · refine hreleases.replayed.pending _ intent ?_ rfl
      rw [hsame.releases]
      exact Table.get?_of_mem hin

/-! ## One step -/

/-- A start that gets as far as the policies. -/
theorem alive_restart {site : Policy.Site F} (h : site.releases.Alive) (rank : String → Nat)
    {answers : String → Int × Fate} (hfates : ∀ id, (answers id).2 ≠ .unacknowledged) :
    (site.restart rank answers).releases.Alive := by
  rw [Policy.Site.restart_eq (Policy.ReleaseManager.replay_of_written h.written) rank answers rfl]
  exact (Policy.Releases.alive_restored h.written).reconcile _ rank hfates

theorem Alive.start (h : w.Alive) (hears : w.hears startup.sweep = true)
    (hreconciled : ∀ id, (startup.reconciled id).2 ≠ .unacknowledged)
    (hinterrupted : ∀ id, (startup.interrupted id).2 ≠ .unacknowledged) : (w.start startup).Alive := by
  have hcompacted : (w.compacted startup).Alive := h.compacted hears
  obtain ⟨log, hjournal, hincidents⟩ := hcompacted.incidents
  obtain ⟨log', hjournal', htasks⟩ := hcompacted.tasks
  have hrestart := alive_restart hcompacted.releases startup.policyRank hreconciled
  have hnew : (Incidents.Store.new (w.compacted startup).incidents.journal startup.incidentRank
      startup.pruning startup.scheduling).Alive := by
    rw [hjournal]
    exact Incidents.Store.alive_new hincidents.named _ _ _
  have htold := Repeat.Manager.alive_new htasks.named startup.repeatRank hinterrupted
  cases hgoes : (w.reopen.compactAll startup.sweep).2 with
  | false =>
      have hstart : w.start startup =
          { w.compacted startup with
            handed := [], site := { (w.compacted startup).site with running := false } } := by
        simp only [World.start, hgoes, Bool.not_false, if_true]
        rfl
      rw [hstart]
      exact ⟨hcompacted.incidents, hcompacted.tasks, hcompacted.releases, by simp⟩
  | true =>
      simp only [World.start, hgoes, Bool.not_true, Bool.false_eq_true, if_false]
      rw [show (w.reopen.compactAll startup.sweep).1 = w.compacted startup from rfl, hjournal']
      split
      · exact ⟨hcompacted.incidents, hcompacted.tasks, hrestart, by simp⟩
      · exact ⟨hnew, htold, hrestart, by simp⟩

theorem Alive.settle (h : w.Alive) {call : Nat}
    {f : Policy.Site F → Policy.Prepared F → Policy.Site F}
    (hf : ∀ p : Policy.Prepared F, p.Sound → (f w.site p).releases.Alive) :
    (w.settle call f).Alive := by
  rw [World.settle]
  split
  · exact h
  · next p hp => exact ⟨h.incidents, h.tasks, hf p (h.handed p (List.mem_of_getElem? hp)), h.handed⟩

theorem Alive.take (h : w.Alive) (hup : w.site.running = true) (u : Policy.Unicode) {i : Input F}
    (hi : i.Clean) (hears : w.hearsAt i = true) : (w.take u i).Alive := by
  cases i with
  | start s => exact h
  | incident i =>
      have hstep (hrestart : ∀ cutoff rank p sch, i ≠ .restart cutoff rank p sch) :
          Alive { w with incidents := w.incidents.step i } :=
        ⟨Incidents.Store.alive_step hi hrestart h.incidents, h.tasks, h.releases, h.handed⟩
      cases i with
      | restart cutoff rank p sch => exact h
      | recordFailure cfg clk rank newID requestID category statusCode fate p =>
          exact hstep (by simp)
      | recordSuccess clk sch fate => exact hstep (by simp)
      | fires timer moment clk fate p => exact hstep (by simp)
      | list p => exact hstep (by simp)
  | task i => exact ⟨h.incidents, Repeat.Service.alive_step hi h.tasks, h.releases, h.handed⟩
  | saveDraft now policy expectedRevision fate =>
      refine ⟨h.incidents, h.tasks, ?_, h.handed⟩
      show (Policy.Site.step u w.site (.saveDraft now policy expectedRevision fate)).releases.Alive
      rw [Policy.Site.step]
      split
      · next candidate hread =>
          rw [if_pos hup]
          exact h.releases.saveDraft u hread expectedRevision hi
      · exact h.releases
  | prepare now request actor =>
      rw [World.take]
      split
      · exact h
      · next p hp =>
          refine ⟨h.incidents, h.tasks, h.releases, fun other hin => ?_⟩
          rcases List.mem_append.1 hin with hin | hin
          · exact h.handed other hin
          · rw [List.mem_singleton.1 hin]
            exact Policy.sound_of_prepare h.releases.kept hp
  | prepareCommit call answer =>
      refine Alive.settle (f := fun site p => (site.prepareCommit p answer).1) h fun p hp => ?_
      exact h.releases.prepareCommit hp hi
  | finalizeCommit call answer =>
      refine Alive.settle (f := fun site p => (site.finalizeCommit p answer).1) h fun p hp => ?_
      exact h.releases.finalizeCommit hp hi
  | abortCommit call reason answer =>
      refine Alive.settle (f := fun site p => site.abortCommit p reason answer) h fun p hp => ?_
      exact h.releases.abortCommit hp reason hi
  | configure policy => exact ⟨h.incidents, h.tasks, h.releases, h.handed⟩
  | maintain now retentions incidents repeats policies => exact h.maintain (by simpa [hearsAt, hup] using hears)

theorem Alive.step (h : w.Alive) (u : Policy.Unicode) {i : Input F} (hi : i.Clean)
    (hears : w.hearsAt i = true) : (World.step u w i).Alive := by
  cases i with
  | start s => exact h.start hears hi.1 hi.2
  | _ =>
      rw [World.step.eq_def]
      dsimp only
      split
      · next hup => exact h.take hup u hi hears
      · exact h

/-! ## Runs -/

theorem alive_fresh (config : Policy.Config F) : (fresh config).Alive where
  incidents := ⟨{}, rfl, by simp, fun _ _ hx => by cases hx⟩
  tasks := ⟨{}, rfl, by simp, fun _ _ hr => by cases hr⟩
  releases := @Policy.Releases.alive_restored F _ [] fun _ hline => by cases hline
  handed := by simp [fresh]

/-- Over empty journals, and as long as no append fails behind its line and no
compaction meets anything active that has been quiet for longer than the
retention of its journal: whatever is active when the process stops, the next
start finds. -/
theorem run_finds (u : Policy.Unicode) (config : Policy.Config F) {inputs : List (Input F)}
    (hclean : ∀ i ∈ inputs, i.Clean)
    (hheard : Along (step u) (fun w i => w.hearsAt i = true) (fresh config) inputs)
    {front : List (Input F)} {s : Startup} (hfront : front ++ [.start s] <+: inputs) :
    (run u (fresh config) front).Finds s := by
  obtain ⟨rest, rfl⟩ := hfront
  rw [List.append_assoc, Along.append] at hheard
  have halive : (run u (fresh config) front).Alive :=
    Along.invariant (fun w i hw hi => hw.step u hi.1 hi.2) (alive_fresh config)
      ((Along.of_forall fun i hin => hclean i (by simp [hin])).and hheard.1)
  exact halive.finds hheard.2.1

/-! ## A task that is paused -/

/-- A start at which every compaction and every append succeeds. -/
def smooth (now : Int) (retentions : Retentions) : Startup where
  sweep := ⟨retentions, (now, .written), (now, .written), (now, .written)⟩
  policyRank := fun _ => 0
  reconciled := fun _ => (now, .written)
  incidentRank := fun _ => 0
  pruning := ⟨⟨true, 100, retentions.incidents, minute, minute⟩, now, fun _ => 0⟩
  scheduling := ⟨⟨true, 100, retentions.incidents, minute, minute⟩, now⟩
  repeatRank := fun _ => 0
  interrupted := fun _ => (⟨minute, minute, Int.le_refl minute⟩, .written)

/-- The managers have nothing, and the process runs. -/
def idle (config : Policy.Config F) : World F :=
  { fresh config with site := { config := Policy.Site.load config } }

/-- The first start. -/
theorem start_fresh (config : Policy.Config F) (now : Int) (retentions : Retentions) :
    (fresh config).start (smooth now retentions) = idle config := by
  simp [start, fresh, idle, reopen, compactAll, compactIncidents, compactRepeats, compactPolicies,
    compact, Log.compact, smooth, Policy.Site.restart, Policy.ReleaseManager.replay,
    Policy.ReleaseManager.replayFrom, Policy.Releases.reconcile, Policy.Releases.reconcileLoop,
    Incidents.Store.new, Incidents.Store.restoreCurrent, Incidents.Store.ranged,
    Incidents.Store.prune, Incidents.Store.scheduleRecovery, snapshots, Repeat.Manager.new,
    Repeat.Manager.ranged, Repeat.Manager.load]

def day : Int := 24 * 60 * minute

def week : Retentions := ⟨7 * day, 7 * day⟩

/-- A task is paused and a draft is saved in the first minute, and the journals
are compacted at `swept`. -/
def pauses (swept : Int) : List (Input ℚ) :=
  let clk : Clock := ⟨minute, minute, Int.le_refl minute⟩
  [.task (.registerSource "source"),
    .task (.create clk "task" "source" ⟨10 * 1000000000, 0, "preserve", true, 0, 0, 0, 0⟩ .written),
    .task (.pause clk "task" .written),
    .saveDraft minute Policy.adaptivePolicy "" .written,
    .maintain swept week .written .written .written]

/-- The same from the first start on. -/
def paused (swept : Int) : List (Input ℚ) := .start (smooth minute week) :: pauses swept

theorem run_paused (swept : Int) :
    run Policy.ascii (fresh Policy.adaptivePolicy) (paused swept) =
      run Policy.ascii (idle Policy.adaptivePolicy) (pauses swept) := by
  show run Policy.ascii ((fresh Policy.adaptivePolicy).start _) _ = _
  rw [start_fresh]

/-- A draft is heard of as it is saved, and the one before is still. -/
theorem heard_saveDraft (site : Policy.Site F) (u : Policy.Unicode) {now cutoff : Int}
    (policy : Policy.Config F) (expectedRevision : String) (fate : Fate) (hcutoff : cutoff ≤ now)
    (h : ∀ p ∈ site.releases.manager.draft,
      heardSince site.releases.ledger.lines cutoff p.revision = true) :
    let r := (Policy.Site.step u site (.saveDraft now policy expectedRevision fate)).releases
    (∀ p ∈ r.manager.draft, heardSince r.ledger.lines cutoff p.revision = true) ∧
      r.manager.pending = site.releases.manager.pending := by
  rw [Policy.Site.step]
  split
  next candidate _ =>
    split
    next =>
      dsimp only
      rcases site.releases.saveDraft_cases u now candidate expectedRevision fate with
        ⟨hmanager, l, hlines⟩ | ⟨hmanager, hlines⟩
      · rw [hmanager, hlines]
        refine ⟨fun p hp => ?_, rfl⟩
        rw [heardSince, List.any_append, Bool.or_eq_true]
        exact .inl (h p hp)
      · rw [hmanager, hlines]
        refine ⟨fun p hp => ?_, rfl⟩
        obtain rfl := Option.some.inj hp
        rw [heardSince, List.any_append, Bool.or_eq_true]
        exact .inr (by simp [hcutoff])
    next => exact ⟨h, rfl⟩
  next => exact ⟨h, rfl⟩

/-- The task is paused and the draft is saved, and nothing is compacted yet. -/
def drafted : World ℚ := run Policy.ascii (idle Policy.adaptivePolicy) ((pauses day).take 4)

theorem heard_drafted {s : Sweep} (hincidents : drafted.hearsIncidents s = true)
    (htasks : drafted.hearsTasks s = true) (hcutoff : s.policyCutoff ≤ minute) :
    drafted.hears s = true := by
  let before := run Policy.ascii (idle Policy.adaptivePolicy) ((pauses day).take 3)
  have hdrafted : drafted = step Policy.ascii before
      (.saveDraft minute Policy.adaptivePolicy "" .written) := rfl
  have hrunning : before.site.running = true := by decide +kernel
  have hreleases : drafted.site.releases = (Policy.Site.step Policy.ascii before.site
      (.saveDraft minute Policy.adaptivePolicy "" .written)).releases := by
    rw [hdrafted, step.eq_def]
    dsimp only
    rw [if_pos hrunning, take]
  have hnone : before.site.releases.manager.draft = none := rfl
  obtain ⟨hheard, hpending⟩ := heard_saveDraft before.site Policy.ascii Policy.adaptivePolicy ""
    .written hcutoff fun p hp => by rw [hnone] at hp; cases hp
  refine hears_iff.2 ⟨hincidents, htasks, ?_⟩
  rw [hearsReleases, hreleases, hpending, Bool.or_eq_true, Bool.and_eq_true]
  exact .inr ⟨Option.all_eq_true _ _ |>.2 hheard, rfl⟩

theorem heard_paused :
    Along (step Policy.ascii) (fun w i => w.hearsAt i = true) (fresh Policy.adaptivePolicy)
      (paused day ++ [.start (smooth (2 * day) week)]) := by
  refine ⟨by decide +kernel, ?_⟩
  show Along _ _ ((fresh Policy.adaptivePolicy).start _) _
  rw [start_fresh]
  have hyoung : drafted.youngAt (smooth day week).sweep = true := by decide +kernel
  have hrunning : drafted.site.running = true := by decide +kernel
  have hmaintain : step Policy.ascii drafted (.maintain day week .written .written .written) =
      drafted := by
    rw [step.eq_def]
    dsimp only
    rw [if_pos hrunning]
    exact maintain_of_young hyoung
  refine ⟨rfl, rfl, rfl, rfl, ?_, ?_, trivial⟩
  · show (!drafted.site.running || drafted.hears (smooth day week).sweep) = true
    rw [heard_drafted (by decide +kernel) (by decide +kernel) (by decide +kernel), Bool.or_true]
  · show (step Policy.ascii drafted (.maintain day week .written .written .written)).hears
      (smooth (2 * day) week).sweep = true
    rw [hmaintain]
    exact heard_drafted (by decide +kernel) (by decide +kernel) (by decide +kernel)

theorem clean_paused : ∀ i ∈ paused day ++ [.start (smooth (2 * day) week)], i.Clean := by
  simp [paused, pauses, Input.Clean, Repeat.Service.Input.Clean, smooth]

theorem run_finds_paused :
    (run Policy.ascii (fresh Policy.adaptivePolicy) (paused day)).Finds (smooth (2 * day) week) :=
  run_finds Policy.ascii Policy.adaptivePolicy clean_paused heard_paused (List.prefix_refl _)

/-- A week later neither the task nor the draft is in the journals. -/
theorem not_finds_quiet :
    let w := run Policy.ascii (fresh Policy.adaptivePolicy) (paused (8 * day))
    w.repeats.manager.tasks.items.map (fun r => r.task.state) = [.paused] ∧
      w.site.releases.manager.draft.isSome = true ∧
      (w.compacted (smooth (8 * day) week)).site.releases.ledger.lines.length = 0 ∧
      ¬w.Finds (smooth (8 * day) week) := by
  rw [run_paused]
  refine ⟨by decide +kernel, by decide +kernel, by decide +kernel, fun h => ?_⟩
  obtain ⟨log, hlog, hall⟩ := h.tasks
  have hlines : ((run Policy.ascii (idle Policy.adaptivePolicy) (pauses (8 * day))).compacted
      (smooth (8 * day) week)).repeats.manager.journal.map (fun log => log.lines.length) =
        some 0 := by
    decide +kernel
  have hactive : (run Policy.ascii (idle Policy.adaptivePolicy)
      (pauses (8 * day))).repeats.manager.tasks.items.any (fun r => !r.task.state.terminal) =
        true := by
    decide +kernel
  obtain ⟨r, hr, hopen⟩ := List.any_eq_true.1 hactive
  rw [hlog, Option.map_some] at hlines
  have hnil : log.lines = [] := List.length_eq_zero_iff.1 (Option.some.inj hlines)
  obtain ⟨⟨t, ht, -⟩, -⟩ := hall r hr (by simpa using hopen)
  rw [hnil] at ht
  cases ht

end World

end Maintenance

end RelayLifeline
