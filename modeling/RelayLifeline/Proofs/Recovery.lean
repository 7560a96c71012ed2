import RelayLifeline.Proofs.Incidents

/-!
# Where the recovery of an incident starts

Marks list what happened to the incidents: the failures and successes that were
recorded, the resolutions, and the timers that ran while the journal refused
one. The recovery of an incident should start with the first success after its
last failure, whose timer then resolves it when the window since that success is
over, and not before. `RecordSuccess` writes the start anew with every success,
and no timer but that of the last one finds the start it was scheduled for. So a
recovery is measured from the first success exactly while no success is recorded
of an incident that is recovering already.
-/

namespace RelayLifeline.Incidents

open Lib Journal

/-- A success that was recorded, the window that counts for it, and when its
timer was started. -/
structure Success where
  time : Int
  recoveryStableWindow : Int
  now : Int
  deriving DecidableEq

/-- When the recovery is over: after the window, or at once where it is over
already. -/
def Success.due (success : Success) : Int :=
  max (success.time + success.recoveryStableWindow) success.now

/-- The timer that is scheduled for a success. -/
def Success.timer (success : Success) (id : String) : Timer := ⟨id, success.time, success.due⟩

inductive Mark where
  | failed (id : String) (time : Int)
  | succeeded (id : String) (success : Success)
  | missed (timer : Timer)
  | resolved (id : String) (moment : Int)
  deriving DecidableEq

/-- The first success of an incident after its last failure, one mark further. -/
def Mark.first (id : String) (first : Option Success) : Mark → Option Success
  | .failed other _ => if other = id then none else first
  | .succeeded other success => if other = id then some (first.getD success) else first
  | .missed _ | .resolved _ _ => first

/-- The first success of an incident after its last failure. -/
def firstSuccess (marks : List Mark) (id : String) : Option Success :=
  marks.foldl (Mark.first id) none

/-- When an incident was last resolved since its last failure, one mark further. -/
def Mark.last (id : String) (moment : Option Int) : Mark → Option Int
  | .failed other _ => if other = id then none else moment
  | .resolved other time => if other = id then some time else moment
  | .missed _ | .succeeded _ _ => moment

/-- When an incident was last resolved since its last failure. -/
def resolution (marks : List Mark) (id : String) : Option Int := marks.foldl (Mark.last id) none

theorem Scheduling.due_eq (sch : Scheduling) (recoveryStarted : Int) :
    sch.due recoveryStarted =
      Success.due ⟨recoveryStarted, sch.cfg.recoveryStableWindow, sch.now⟩ := by
  simp only [due, recoveryDelay, Success.due]
  split
  · omega
  · omega

namespace Store

/-- The current incident. -/
def currentIncident (s : Store) : Option Incident :=
  s.current.bind fun current => s.items.get? current

/-- What an input records. -/
def marks (s : Store) : Input → List Mark
  | .recordFailure cfg clk rank newID requestID category statusCode fate p =>
      if !cfg.enabled ||
          s.appendFails (.recordFailure cfg clk rank newID requestID category statusCode fate p)
      then []
      else [.failed (s.candidate cfg clk.now rank newID).id clk.now]
  | .recordSuccess clk sch fate =>
      match s.currentIncident with
      | none => []
      | some x =>
          if s.appendFails (.recordSuccess clk sch fate) then []
          else [.succeeded x.id ⟨clk.now, sch.cfg.recoveryStableWindow, sch.now⟩]
  | .fires timer moment clk fate p =>
      match s.timers[timer]? with
      | none => []
      | some fired =>
          if moment < fired.due then []
          else if s.appendFails (.fires timer moment clk fate p) then [.missed fired]
          else
            match s.current, (s.step (.fires timer moment clk fate p)).current with
            | some id, none => [.resolved id moment]
            | _, _ => []
  | _ => []

/-- A method or a timer, but not the process started again. -/
def keepsRunning : Input → Bool
  | .restart .. => false
  | _ => true

/-- No success is recorded of an incident that is recovering, unless at the very
time its recovery started. -/
def OneSuccess (s : Store) : Input → Prop
  | .recordSuccess clk sch fate =>
      s.appendFails (.recordSuccess clk sch fate) = true ∨
        ∀ x, s.currentIncident = some x → x.state = .recovering →
          x.recoveryStarted = some clk.now
  | _ => True

/-- The timer does nothing before it is due, and from then on it resolves the
incident, if the journal takes it. -/
def Resolves (s : Store) (timer : Timer) : Prop :=
  ∀ n moment clk fate p, s.timers[n]? = some timer →
    (moment < timer.due → s.step (.fires n moment clk fate p) = s) ∧
      (timer.due ≤ moment → s.journal.any (fun log => log.degraded ∨ fate ≠ .written) = false →
        (s.step (.fires n moment clk fate p)).current = none ∧
          ∀ x, (s.step (.fires n moment clk fate p)).items.get? timer.id = some x →
            x.state = .resolved ∧ x.resolvedAt = some clk.now)

/-- A recovery starts with the first success after the last failure, and the
timer of that success is running, or has run while the journal refused it. -/
structure Recovers (s : Store) (marks : List Mark) (x : Incident) (first : Success) : Prop where
  first_eq : firstSuccess marks x.id = some first
  started : x.recoveryStarted = some first.time
  timer : first.timer x.id ∈ s.timers ∨ .missed (first.timer x.id) ∈ marks

/-- An incident was resolved after its first success, and not before the window
was over since then. -/
def WasResolved (marks : List Mark) (id : String) : Prop :=
  ∃ first success moment, firstSuccess marks id = some first ∧
    .succeeded id success ∈ marks ∧ success.time = first.time ∧
      resolution marks id = some moment ∧ success.due ≤ moment

/-- Recoveries are measured from the first success: a recovery that lasts will
be over when its timer is due, and one that is over was not before. -/
structure Measured (s : Store) (marks : List Mark) : Prop where
  recovering : ∀ x ∈ s.items.items, x.state = .recovering → ∃ first,
    s.Recovers marks x first ∧ s.Resolves (first.timer x.id)
  resolved : ∀ x ∈ s.items.items, x.state = .resolved → WasResolved marks x.id

/-- A run with what it records. -/
def traced (t : Store × List Mark) (i : Input) : Store × List Mark :=
  (t.1.step i, t.2 ++ t.1.marks i)

/-! ## Marks -/

theorem firstSuccess_append (marks : List Mark) (mark : Mark) (id : String) :
    firstSuccess (marks ++ [mark]) id = Mark.first id (firstSuccess marks id) mark :=
  List.foldl_concat ..

theorem resolution_append (marks : List Mark) (mark : Mark) (id : String) :
    resolution (marks ++ [mark]) id = Mark.last id (resolution marks id) mark :=
  List.foldl_concat ..

theorem persist_taken {s : Store} {stamp : Int} {x : Incident} {fate : Fate}
    (h : s.journal.any (fun log => log.degraded ∨ fate ≠ .written) = false) :
    (s.persist stamp x fate).2 = true := by
  cases hlog : s.journal with
  | none => rw [persist, hlog]
  | some log =>
      rw [hlog, Option.any_some, decide_eq_false_iff_not, not_or, not_not,
        Bool.not_eq_true] at h
      rw [persist, hlog]
      show (log.append ⟨stamp, x.id, x⟩ fate).2 = true
      obtain ⟨hhealthy, rfl⟩ := h
      rw [Log.append.eq_def, hhealthy]
      rfl

/-- A timer finds the start it was scheduled for. -/
theorem resolve_of_recovering {s : Store} {x : Incident} (timer : Timer)
    (hx : s.items.get? timer.id = some x) (hstate : x.state = .recovering)
    (hstart : x.recoveryStarted = some timer.recoveryStarted) (clk : Clock) {fate : Fate}
    (htaken : s.journal.any (fun log => log.degraded ∨ fate ≠ .written) = false) (p : Pruning) :
    (s.resolve clk timer fate p).current = none ∧
      ∀ y ∈ (s.resolve clk timer fate p).items.items,
        y = { x with state := .resolved, resolvedAt := some clk.now } ∨
          y ∈ s.items.items ∧ y.id ≠ timer.id := by
  have hid : x.id = timer.id := Table.key_of_get? hx
  have hpersist := @persist_taken s clk.stamp
    { x with state := .resolved, resolvedAt := some clk.now } fate htaken
  rw [resolve, hx]
  dsimp only
  rw [if_neg (by rw [hstate, hstart]; simp), hpersist, if_neg (by simp)]
  refine ⟨by rw [prune_eq], fun y hy => ?_⟩
  rw [← hid]
  exact Table.mem_set.1 (of_mem_prune hy)

/-! ## What is kept -/

/-- The timer of an incident that recovers since then resolves it. -/
theorem resolves_of_recovering {s : Store} {x : Incident} (timer : Timer)
    (hx : s.items.get? timer.id = some x) (hstate : x.state = .recovering)
    (hstart : x.recoveryStarted = some timer.recoveryStarted) : s.Resolves timer := by
  intro n moment clk fate p hn
  rw [step, hn]
  dsimp only
  refine ⟨fun hearly => if_pos hearly, fun hdue htaken => ?_⟩
  rw [if_neg (by omega)]
  obtain ⟨hcurrent, hitems⟩ := resolve_of_recovering
    (s := { s with timers := s.timers.eraseIdx n }) timer hx hstate hstart clk htaken p
  refine ⟨hcurrent, fun y hy => ?_⟩
  rcases hitems y (Table.mem_of_get? hy) with rfl | ⟨-, hne⟩
  · exact ⟨rfl, rfl⟩
  · exact absurd (Table.key_of_get? hy) hne

/-- The store and its marks: what is measured, and an incident that is open has
had no success since its last failure. -/
structure Tracked (t : Store × List Mark) : Prop where
  consistent : t.1.Consistent
  recovering : ∀ x ∈ t.1.items.items, x.state = .recovering → ∃ first, t.1.Recovers t.2 x first
  opened : ∀ x ∈ t.1.items.items, x.state = .opened → firstSuccess t.2 x.id = none
  resolved : ∀ x ∈ t.1.items.items, x.state = .resolved → WasResolved t.2 x.id
  /-- A timer was scheduled for a success. -/
  scheduled : ∀ timer ∈ t.1.timers, ∃ success,
    .succeeded timer.id success ∈ t.2 ∧ success.timer timer.id = timer

theorem Tracked.to_measured {t : Store × List Mark} (h : Tracked t) : Measured t.1 t.2 where
  recovering x hx hstate :=
    have ⟨first, hrecovers⟩ := h.recovering x hx hstate
    ⟨first, hrecovers, resolves_of_recovering (first.timer x.id) (Table.get?_of_mem hx)
      hstate hrecovers.started⟩
  resolved := h.resolved

/-- A mark that is not about an incident leaves how it was resolved. -/
theorem WasResolved.append {marks : List Mark} {id : String} (h : WasResolved marks id)
    {mark : Mark} (hfirst : ∀ first, Mark.first id first mark = first)
    (hlast : ∀ moment, Mark.last id moment mark = moment) : WasResolved (marks ++ [mark]) id := by
  obtain ⟨first, success, moment, hsome, hmem, htime, hresolution, hdue⟩ := h
  refine ⟨first, success, moment, ?_, List.mem_append_left _ hmem, htime, ?_, hdue⟩
  · rw [firstSuccess_append, hfirst, hsome]
  · rw [resolution_append, hlast, hresolution]

/-- Incidents that stay, with timers and marks that stay, stay tracked. -/
theorem Tracked.of_subset {s s' : Store} {marks : List Mark} (h : Tracked (s, marks))
    (hconsistent : s'.Consistent) (hitems : ∀ x ∈ s'.items.items, x ∈ s.items.items)
    (htimers : s'.timers = s.timers) : Tracked (s', marks) := by
  refine ⟨hconsistent, fun x hx hstate => ?_, fun x hx => h.opened x (hitems x hx),
    fun x hx => h.resolved x (hitems x hx), fun timer hin => h.scheduled timer (htimers ▸ hin)⟩
  obtain ⟨first, hrecovers⟩ := h.recovering x (hitems x hx) hstate
  exact ⟨first, hrecovers.first_eq, hrecovers.started, htimers ▸ hrecovers.timer⟩

theorem persist_items (s : Store) (stamp : Int) (x : Incident) (fate : Fate) :
    (s.persist stamp x fate).1.items = s.items ∧
      (s.persist stamp x fate).1.current = s.current ∧
      (s.persist stamp x fate).1.timers = s.timers := by
  rw [persist_eq]
  exact ⟨rfl, rfl, rfl⟩

theorem Tracked.recordFailure {s : Store} {h : List Mark} (ht : Tracked (s, h))
    (cfg : IncidentConfig) (clk : Clock) (rank : String → Nat)
    (newID requestID category : String) (statusCode : Int) (fate : Fate) (p : Pruning) :
    Tracked (traced (s, h)
      (.recordFailure cfg clk rank newID requestID category statusCode fate p)) := by
  have hnext := ht.consistent.recordFailure cfg clk rank newID requestID category statusCode fate p
  rw [traced, marks]
  by_cases hnone : (!cfg.enabled || s.appendFails
      (.recordFailure cfg clk rank newID requestID category statusCode fate p)) = true
  · rw [if_pos hnone, List.append_nil]
    refine ht.of_subset hnext ?_ ?_
    · rcases Bool.or_eq_true _ _ ▸ hnone with hdisabled | hfails
      · show ∀ x ∈ (s.recordFailure ..).1.items.items, _
        rw [Store.recordFailure, if_pos hdisabled]
        exact fun x hx => hx
      · show ∀ x ∈ (s.step _).items.items, _
        rw [(step_of_appendFails hfails).1]
        exact fun x hx => hx
    · show (s.recordFailure ..).1.timers = s.timers
      rw [Store.recordFailure]
      split
      · rfl
      · dsimp only
        split
        · exact (persist_items ..).2.2
        · rw [prune_eq]
          exact (persist_items ..).2.2
  · rw [if_neg hnone]
    rw [Bool.or_eq_true, not_or, Bool.not_eq_true, Bool.not_eq_true] at hnone
    obtain ⟨henabled, htakes⟩ := hnone
    have htaken := @persist_taken s clk.stamp
      ((s.candidate cfg clk.now rank newID).fail clk.now requestID category statusCode) fate htakes
    have hitems : ∀ x ∈ (s.recordFailure cfg clk rank newID requestID category statusCode fate
        p).1.items.items, x = (s.candidate cfg clk.now rank newID).fail clk.now requestID category
          statusCode ∨ x ∈ s.items.items ∧ x.id ≠ (s.candidate cfg clk.now rank newID).id := by
      intro x hx
      rw [Store.recordFailure, if_neg (by rw [henabled]; exact Bool.false_ne_true)] at hx
      dsimp only at hx
      rw [htaken, if_neg (by simp)] at hx
      exact Table.mem_set.1 (of_mem_prune hx)
    -- an incident that is not resolved is the one that fails
    have hother : ∀ x ∈ s.items.items, x.id ≠ (s.candidate cfg clk.now rank newID).id →
        x.state = .resolved := by
      intro x hx hne
      by_contra hunresolved
      have hcurrent := (ht.consistent.current x.id).2 ⟨x, Table.get?_of_mem hx, hunresolved⟩
      rcases (ht.consistent.candidate cfg clk.now rank newID).2 with hnone | hsome
      · rw [hnone] at hcurrent
        cases hcurrent
      · rw [hsome] at hcurrent
        exact hne (Option.some.inj hcurrent).symm
    refine ⟨hnext, fun x hx hstate => ?_, fun x hx hstate => ?_, fun x hx hstate => ?_,
      fun timer hin => ?_⟩
    · rcases hitems x hx with rfl | ⟨hx, hne⟩
      · cases hstate
      · rw [hother x hx hne] at hstate
        cases hstate
    · rcases hitems x hx with rfl | ⟨hx, hne⟩
      · rw [firstSuccess_append]
        exact if_pos rfl
      · rw [hother x hx hne] at hstate
        cases hstate
    · rcases hitems x hx with rfl | ⟨hx, hne⟩
      · cases hstate
      · exact (ht.resolved x hx hstate).append (fun _ => if_neg (Ne.symm hne))
          fun _ => if_neg (Ne.symm hne)
    · have htimers : (s.recordFailure cfg clk rank newID requestID category statusCode fate
          p).1.timers = s.timers := by
        rw [Store.recordFailure, if_neg (by rw [henabled]; exact Bool.false_ne_true)]
        dsimp only
        rw [htaken, if_neg (by simp), prune_eq]
        exact (persist_items ..).2.2
      obtain ⟨success, hmem, htimer⟩ := ht.scheduled timer (htimers ▸ hin)
      exact ⟨success, List.mem_append_left _ hmem, htimer⟩

/-- What a success that is recorded makes of the store. -/
theorem recordSuccess_taken {s : Store} {clk : Clock} {sch : Scheduling} {fate : Fate}
    {x : Incident} (hx : s.currentIncident = some x)
    (htakes : s.appendFails (.recordSuccess clk sch fate) = false) :
    (s.recordSuccess clk sch fate).1.items =
        s.items.set { x with state := .recovering, recoveryStarted := some clk.now } ∧
      (s.recordSuccess clk sch fate).1.timers =
        s.timers ++ [⟨x.id, clk.now, sch.due clk.now⟩] := by
  obtain ⟨id, hcurrent, hget⟩ := Option.bind_eq_some_iff.1 hx
  have hid : x.id = id := Table.key_of_get? hget
  have htaken := @persist_taken s clk.stamp
    { x with state := .recovering, recoveryStarted := some clk.now } fate htakes
  obtain ⟨-, hpersisted, htimers⟩ := persist_items s clk.stamp
    { x with state := .recovering, recoveryStarted := some clk.now } fate
  rw [currentIncident] at hx
  rw [Store.recordSuccess, hx]
  dsimp only
  rw [htaken, if_neg (by simp), scheduleRecovery, hpersisted, hcurrent, Option.bind_some]
  have hself : (s.items.set { x with state := .recovering, recoveryStarted := some clk.now }).get?
      id = some { x with state := .recovering, recoveryStarted := some clk.now } := by
    rw [← hid]
    exact Table.get?_set_self
  dsimp only
  rw [hself]
  dsimp only
  rw [if_neg (by simp), htimers]
  exact ⟨rfl, rfl⟩

/-- A success touches neither the current incident nor a journal there is not. -/
theorem recordSuccess_rest {s : Store} (hjournal : s.journal = none) (clk : Clock)
    (sch : Scheduling) (fate : Fate) :
    (s.recordSuccess clk sch fate).1.current = s.current ∧
      (s.recordSuccess clk sch fate).1.journal = none := by
  rw [Store.recordSuccess]
  split
  · exact ⟨rfl, hjournal⟩
  next x hx =>
    have hpersist : s.persist clk.stamp
        { x with state := .recovering, recoveryStarted := some clk.now } fate = (s, true) := by
      rw [persist, hjournal]
    dsimp only
    rw [hpersist, if_neg (by simp), scheduleRecovery_eq]
    exact ⟨rfl, hjournal⟩

theorem Tracked.recordSuccess {s : Store} {h : List Mark} (ht : Tracked (s, h)) (clk : Clock)
    (sch : Scheduling) (fate : Fate) (hone : s.OneSuccess (.recordSuccess clk sch fate)) :
    Tracked (traced (s, h) (.recordSuccess clk sch fate)) := by
  have hnext := ht.consistent.recordSuccess clk sch fate
  rw [traced, marks]
  split
  next hnone =>
    rw [List.append_nil]
    rw [currentIncident] at hnone
    have hsame : s.recordSuccess clk sch fate = (s, true) := by rw [Store.recordSuccess, hnone]
    show Tracked ((s.recordSuccess clk sch fate).1, h)
    rw [hsame]
    exact ht
  next x hx =>
    split
    next hfails =>
      rw [List.append_nil]
      refine ht.of_subset hnext ?_ ?_
      · show ∀ x ∈ (s.step _).items.items, _
        rw [(step_of_appendFails hfails).1]
        exact fun x hx => hx
      · show (s.recordSuccess clk sch fate).1.timers = s.timers
        rw [currentIncident] at hx
        rw [Store.recordSuccess, hx]
        dsimp only
        rw [persist_refused hfails]
        exact (persist_items ..).2.2
    next htakes =>
      rw [Bool.not_eq_true] at htakes
      obtain ⟨hitems, htimers⟩ := recordSuccess_taken hx htakes
      obtain ⟨id, hcurrent, hget⟩ := Option.bind_eq_some_iff.1 hx
      have hid : x.id = id := Table.key_of_get? hget
      have hmem := Table.mem_of_get? hget
      -- every other incident is resolved
      have hother : ∀ y ∈ s.items.items, y.id ≠ x.id → y.state = .resolved := by
        intro y hy hne
        by_contra hunresolved
        have hyc := (ht.consistent.current y.id).2 ⟨y, Table.get?_of_mem hy, hunresolved⟩
        rw [hcurrent] at hyc
        exact hne ((Option.some.inj hyc).symm.trans hid.symm)
      have hcases : ∀ y ∈ (s.recordSuccess clk sch fate).1.items.items,
          y = { x with state := .recovering, recoveryStarted := some clk.now } ∨
            y ∈ s.items.items ∧ y.id ≠ x.id := fun y hy => Table.mem_set.1 (hitems ▸ hy)
      have hsucceeded : firstSuccess (h ++ [.succeeded x.id
          ⟨clk.now, sch.cfg.recoveryStableWindow, sch.now⟩]) x.id =
            some ((firstSuccess h x.id).getD ⟨clk.now, sch.cfg.recoveryStableWindow, sch.now⟩) := by
        rw [firstSuccess_append]
        exact if_pos rfl
      have hscheduled : (⟨x.id, clk.now, sch.due clk.now⟩ : Timer) =
          Success.timer ⟨clk.now, sch.cfg.recoveryStableWindow, sch.now⟩ x.id := by
        rw [Success.timer, sch.due_eq]
      -- the first success is this one, or one at the very same time
      have hrecovers : ∃ first, (s.recordSuccess clk sch fate).1.Recovers
          (h ++ [.succeeded x.id ⟨clk.now, sch.cfg.recoveryStableWindow, sch.now⟩])
          { x with state := .recovering, recoveryStarted := some clk.now } first := by
        cases hstate : x.state with
        | opened =>
            have hnone : firstSuccess h x.id = none := ht.opened x hmem hstate
            rw [hnone] at hsucceeded
            refine ⟨_, hsucceeded, rfl, .inl ?_⟩
            rw [htimers, hscheduled]
            exact List.mem_append_right _ (List.mem_singleton_self _)
        | recovering =>
            obtain ⟨first, hfirst, hstart, htimer⟩ := ht.recovering x hmem hstate
            rcases hone with hfails | hone
            · rw [hfails] at htakes
              cases htakes
            · rw [show firstSuccess h x.id = some first from hfirst] at hsucceeded
              refine ⟨first, hsucceeded, (hone x hx hstate).symm.trans hstart, ?_⟩
              rw [htimers]
              exact htimer.imp (List.mem_append_left _) (List.mem_append_left _)
        | resolved =>
            obtain ⟨y, hy, hunresolved⟩ := (ht.consistent.current id).1 hcurrent
            rw [show s.items.get? id = some x from hget] at hy
            cases hy
            exact absurd hstate hunresolved
      refine ⟨hnext, fun y hy hstate => ?_, fun y hy hstate => ?_, fun y hy hstate => ?_,
        fun timer hin => ?_⟩
      · rcases hcases y hy with rfl | ⟨hy, hne⟩
        · exact hrecovers
        · rw [hother y hy hne] at hstate
          cases hstate
      · rcases hcases y hy with rfl | ⟨hy, hne⟩
        · cases hstate
        · rw [hother y hy hne] at hstate
          cases hstate
      · rcases hcases y hy with rfl | ⟨hy, hne⟩
        · cases hstate
        · exact (ht.resolved y hy hstate).append (fun _ => if_neg (Ne.symm hne)) fun _ => rfl
      · rcases List.mem_append.1 (htimers ▸ hin) with hin | hin
        · obtain ⟨success, hmem, htimer⟩ := ht.scheduled timer hin
          exact ⟨success, List.mem_append_left _ hmem, htimer⟩
        · rw [List.mem_singleton.1 hin]
          exact ⟨_, List.mem_append_right _ (List.mem_singleton_self _), hscheduled.symm⟩

/-- A timer that does not find its incident recovering since the start it was
scheduled for does nothing. -/
theorem resolve_cases (s : Store) (clk : Clock) (timer : Timer) (fate : Fate) (p : Pruning) :
    s.resolve clk timer fate p = s ∨
      ∃ x, s.items.get? timer.id = some x ∧ x.state = .recovering ∧
        x.recoveryStarted = some timer.recoveryStarted := by
  rw [resolve]
  split
  · exact .inl rfl
  next x hx =>
    split
    · exact .inl rfl
    next hmatch =>
      rw [not_or, not_not, not_not] at hmatch
      exact .inr ⟨x, hx, hmatch.1, hmatch.2⟩

theorem resolve_timers (s : Store) (clk : Clock) (timer : Timer) (fate : Fate) (p : Pruning) :
    (s.resolve clk timer fate p).timers = s.timers := by
  rw [resolve]
  split
  · rfl
  · split
    · rfl
    · dsimp only
      split
      · exact (persist_items ..).2.2
      · rw [prune_eq]
        exact (persist_items ..).2.2

/-- Taking a timer out leaves the others. -/
theorem mem_eraseIdx_of_ne {timers : List Timer} {n : Nat} {fired timer : Timer}
    (hfired : timers[n]? = some fired) (hmem : timer ∈ timers) (hne : timer ≠ fired) :
    timer ∈ timers.eraseIdx n := by
  obtain ⟨hn, hget⟩ := List.getElem?_eq_some_iff.mp hfired
  have hperm := (List.getElem_cons_eraseIdx_perm hn).mem_iff.mpr hmem
  rw [hget] at hperm
  exact (List.mem_cons.mp hperm).resolve_left hne

theorem Tracked.fires {s : Store} {h : List Mark} (ht : Tracked (s, h)) (n : Nat) (moment : Int)
    (clk : Clock) (fate : Fate) (p : Pruning) :
    Tracked (traced (s, h) (.fires n moment clk fate p)) := by
  have hnext := ht.consistent.step (.fires n moment clk fate p)
  have hidle (hsame : s.step (.fires n moment clk fate p) = s) :
      Tracked (s.step (.fires n moment clk fate p), h ++ []) := by
    rw [List.append_nil, hsame]
    exact ht
  rw [traced, marks]
  cases hfired : s.timers[n]? with
  | none => exact hidle (by rw [Store.step, hfired])
  | some fired =>
      dsimp only
      by_cases hearly : moment < fired.due
      · rw [if_pos hearly]
        refine hidle ?_
        rw [Store.step, hfired]
        exact if_pos hearly
      rw [if_neg hearly]
      have hstep : s.step (.fires n moment clk fate p) =
          resolve { s with timers := s.timers.eraseIdx n } clk fired fate p := by
        rw [Store.step, hfired]
        exact if_neg hearly
      have htimers : (s.step (.fires n moment clk fate p)).timers = s.timers.eraseIdx n := by
        rw [hstep, resolve_timers]
      -- the other timers stay
      have hscheduled (marks : List Mark) :
          ∀ timer ∈ (s.step (.fires n moment clk fate p)).timers, ∃ success,
            .succeeded timer.id success ∈ h ++ marks ∧ success.timer timer.id = timer := by
        intro timer hin
        rw [htimers] at hin
        obtain ⟨success, hmem, htimer⟩ := ht.scheduled timer (List.mem_of_mem_eraseIdx hin)
        exact ⟨success, List.mem_append_left _ hmem, htimer⟩
      split
      next hfails =>
        -- the journal refuses what there is to resolve
        have hitems := (step_of_appendFails hfails).1
        refine ⟨hnext, fun x hx hstate => ?_, fun x hx hstate => ?_, fun x hx hstate => ?_,
          hscheduled _⟩
        · obtain ⟨first, hfirst, hstart, htimer⟩ := ht.recovering x (hitems ▸ hx) hstate
          refine ⟨first, (firstSuccess_append ..).trans hfirst, hstart, ?_⟩
          rcases htimer with hrunning | hmissed
          · by_cases heq : first.timer x.id = fired
            · right
              rw [heq]
              exact List.mem_append_right _ (List.mem_singleton_self _)
            · left
              show _ ∈ (s.step (.fires n moment clk fate p)).timers
              rw [htimers]
              exact mem_eraseIdx_of_ne hfired hrunning heq
          · exact .inr (List.mem_append_left _ hmissed)
        · exact (firstSuccess_append ..).trans (ht.opened x (hitems ▸ hx) hstate)
        · exact (ht.resolved x (hitems ▸ hx) hstate).append (fun _ => rfl) fun _ => rfl
      next htakes =>
        rw [Bool.not_eq_true] at htakes
        rcases resolve_cases { s with timers := s.timers.eraseIdx n } clk fired fate p with
          hsame | ⟨x, hx, hstate, hstart⟩
        · have hitems : (s.step (.fires n moment clk fate p)).items = s.items := by
            rw [hstep, hsame]
          have hcurrent : (s.step (.fires n moment clk fate p)).current = s.current := by
            rw [hstep, hsame]
          have hnomark : (match s.current, (s.step (.fires n moment clk fate p)).current with
              | some id, none => [Mark.resolved id moment]
              | _, _ => []) = [] := by
            rw [hcurrent]
            cases s.current <;> rfl
          rw [hnomark]
          refine ⟨hnext, fun x hx hstate => ?_, fun x hx hstate => ?_, fun x hx hstate => ?_,
            hscheduled _⟩
          · rw [List.append_nil]
            rw [hitems] at hx
            obtain ⟨first, hfirst, hstart, htimer⟩ := ht.recovering x hx hstate
            refine ⟨first, hfirst, hstart, htimer.imp_left fun hrunning => ?_⟩
            show _ ∈ (s.step (.fires n moment clk fate p)).timers
            rw [htimers]
            refine mem_eraseIdx_of_ne hfired hrunning ?_
            -- the timer of a recovery would have found it
            rintro rfl
            obtain ⟨-, hresolved⟩ := resolve_of_recovering
              (s := { s with timers := s.timers.eraseIdx n }) (first.timer x.id)
              (Table.get?_of_mem hx) hstate hstart clk htakes p
            rw [hsame] at hresolved
            rcases hresolved x hx with heq | ⟨-, hne⟩
            · rw [heq] at hstate
              cases hstate
            · exact hne rfl
          · rw [List.append_nil]
            exact ht.opened x (hitems ▸ hx) hstate
          · rw [List.append_nil]
            exact ht.resolved x (hitems ▸ hx) hstate
        · -- the incident that recovered is resolved, and so are all
          have hid : x.id = fired.id := Table.key_of_get? hx
          obtain ⟨hnone, hresolved⟩ := resolve_of_recovering
            (s := { s with timers := s.timers.eraseIdx n }) fired hx hstate hstart clk htakes p
          rw [← hstep] at hnone hresolved
          have hcurrent : s.current = some x.id :=
            (ht.consistent.current x.id).2 ⟨x, hid ▸ hx, by rw [hstate]; simp⟩
          have hall : ∀ y ∈ (s.step (.fires n moment clk fate p)).items.items,
              y.state = .resolved := by
            intro y hy
            by_contra hunresolved
            have hsome := (hnext.current y.id).2 ⟨y, Table.get?_of_mem hy, hunresolved⟩
            rw [hnone] at hsome
            cases hsome
          rw [hcurrent, hnone]
          refine ⟨hnext, fun y hy hstate => ?_, fun y hy hstate => ?_, fun y hy hstate => ?_,
            hscheduled _⟩
          · rw [hall y hy] at hstate
            cases hstate
          · rw [hall y hy] at hstate
            cases hstate
          · rcases hresolved y hy with rfl | ⟨hy, hne⟩
            · obtain ⟨first, hfirst, hstarted, -⟩ :=
                ht.recovering x (Table.mem_of_get? hx) ‹x.state = .recovering›
              obtain ⟨success, hmem, htimer⟩ := ht.scheduled fired (List.mem_of_getElem? hfired)
              refine ⟨first, success, moment, (firstSuccess_append ..).trans hfirst,
                List.mem_append_left _ (hid ▸ hmem), ?_, ?_, ?_⟩
              · have htime := congrArg Timer.recoveryStarted htimer
                rw [hstart] at hstarted
                exact htime.trans (Option.some.inj hstarted)
              · rw [resolution_append]
                exact if_pos rfl
              · have hdue := congrArg Timer.due htimer
                rw [show success.due = fired.due from hdue]
                exact Int.not_lt.1 hearly
            · exact (ht.resolved y hy (hall y ‹_›)).append (fun _ => rfl) fun _ =>
                if_neg fun heq => hne (heq.symm.trans hid)

theorem Tracked.step {t : Store × List Mark} (ht : Tracked t) {i : Input}
    (hi : keepsRunning i = true) (hone : t.1.OneSuccess i) : Tracked (traced t i) := by
  obtain ⟨s, h⟩ := t
  cases i with
  | recordFailure cfg clk rank newID requestID category statusCode fate p =>
      exact ht.recordFailure cfg clk rank newID requestID category statusCode fate p
  | recordSuccess clk sch fate => exact ht.recordSuccess clk sch fate hone
  | fires n moment clk fate p => exact ht.fires n moment clk fate p
  | list p =>
      show Tracked (s.prune p, h ++ [])
      rw [List.append_nil]
      refine ht.of_subset (ht.consistent.prune p) (fun x hx => of_mem_prune hx) ?_
      show (s.prune p).timers = s.timers
      rw [prune_eq]
  | restart cutoff rank p sch => cases hi

/-- A second success moves the start of a recovery. -/
theorem not_measured_of_moved {t : Store × List Mark} (ht : Tracked t) {i : Input}
    (hone : ¬ t.1.OneSuccess i) : ¬ Measured (traced t i).1 (traced t i).2 := by
  obtain ⟨s, h⟩ := t
  cases i with
  | recordSuccess clk sch fate =>
      rw [OneSuccess, not_or, Bool.not_eq_true] at hone
      obtain ⟨htakes, hmoved⟩ := hone
      push Not at hmoved
      obtain ⟨x, hx, hstate, hne⟩ := hmoved
      obtain ⟨id, hcurrent, hget⟩ := Option.bind_eq_some_iff.1 hx
      have hmem := Table.mem_of_get? hget
      obtain ⟨first, hfirst, hstart, -⟩ := ht.recovering x hmem hstate
      obtain ⟨hitems, -⟩ := recordSuccess_taken hx htakes
      intro hmeasured
      obtain ⟨first', ⟨hfirst', hstart', -⟩, -⟩ := hmeasured.recovering
        { x with state := .recovering, recoveryStarted := some clk.now }
        (by
          show _ ∈ (s.recordSuccess clk sch fate).1.items.items
          rw [hitems]
          exact Table.mem_set.2 (.inl rfl)) rfl
      rw [traced, marks, hx] at hfirst'
      dsimp only at hfirst'
      rw [if_neg (by rw [htakes]; exact Bool.false_ne_true), firstSuccess_append] at hfirst'
      rw [Mark.first, if_pos rfl, show firstSuccess h x.id = some first from hfirst] at hfirst'
      rw [hstart] at hne
      refine hne (hstart'.trans ?_).symm
      rw [← Option.some.inj hfirst']
      rfl
  | recordFailure => exact absurd trivial hone
  | fires => exact absurd trivial hone
  | list => exact absurd trivial hone
  | restart => exact absurd trivial hone

theorem tracked_fresh (persisted : Bool) : Tracked (fresh persisted, []) where
  consistent := fresh_consistent persisted
  recovering _ hx := absurd hx List.not_mem_nil
  opened _ hx := absurd hx List.not_mem_nil
  resolved _ hx := absurd hx List.not_mem_nil
  scheduled _ hin := absurd hin List.not_mem_nil

/-- **Recoveries are measured from the first success, wherever a run has been,
exactly when none of its steps records a success of an incident that is
recovering already.** -/
theorem run_measured_iff (persisted : Bool) {is : List Input}
    (hrunning : ∀ i ∈ is, keepsRunning i = true) :
    (∀ front, front <+: is →
      Measured (front.foldl traced (fresh persisted, [])).1
        (front.foldl traced (fresh persisted, [])).2) ↔
      Along traced (fun t i => t.1.OneSuccess i) (fresh persisted, []) is :=
  Along.iff_prefixes_of (I := Tracked) (P := fun t => Measured t.1 t.2)
    (A := fun i => keepsRunning i = true) (fun _ _ hi ht hone => ht.step hi hone)
    (fun _ _ _ ht hone => not_measured_of_moved ht hone) (fun _ ht => ht.to_measured) hrunning
    (tracked_fresh persisted)

/-! ## Two runs -/

def anyConfig : IncidentConfig :=
  { enabled := true, maxItems := 100, retention := 1000000000, correlationWindow := 30,
    recoveryStableWindow := 100 }

/-- A reading of the clock, so long after the first minute. -/
def after (n : Nat) : Clock := ⟨minute + n, minute + n, by omega⟩

def pruningAt (n : Nat) : Pruning := ⟨anyConfig, minute + n, fun _ => 0⟩

def failsAt (n : Nat) : Input :=
  .recordFailure anyConfig (after n) (fun _ => 0) "1" "" "server" 502 .written (pruningAt n)

def schedulingAt (n : Nat) : Scheduling := ⟨anyConfig, minute + n⟩

def succeedsAt (n : Nat) : Input := .recordSuccess (after n) (schedulingAt n) .written

/-- A failure, one success, and its timer, early and when it is due. -/
def recovers : List Input :=
  [failsAt 0, succeedsAt 10, .fires 0 (minute + 100) (after 100) .written (pruningAt 100),
    .fires 0 (minute + 110) (after 130) .written (pruningAt 130)]

theorem run_measured_iff_recovers :
    Measured (recovers.foldl traced (fresh true, [])).1
      (recovers.foldl traced (fresh true, [])).2 := by
  have htracked := (tracked_fresh true).step (i := failsAt 0) rfl trivial
  refine (@run_measured_iff true recovers ?_).2 ?_ recovers (List.prefix_refl _)
  · decide
  · refine ⟨trivial, .inr fun x hx hstate => ?_, trivial, trivial, trivial⟩
    -- after the failure nothing is recovering yet
    obtain ⟨id, -, hget⟩ := Option.bind_eq_some_iff.1 hx
    obtain ⟨first, hfirst, -⟩ := htracked.recovering x (Table.mem_of_get? hget) hstate
    have hnone : firstSuccess (traced (fresh true, []) (failsAt 0)).2 x.id = none := by
      show firstSuccess ([] ++ (fresh true).marks (failsAt 0)) x.id = none
      rw [List.nil_append, failsAt, marks]
      split
      · rfl
      · rw [firstSuccess, List.foldl_cons, List.foldl_nil, Mark.first, ite_self]
    rw [hnone] at hfirst
    cases hfirst

def firstIncident : Incident :=
  Incident.fail { id := "1", startedAt := minute, lastFailureAt := minute } (after 0).now ""
    "server" 502

/-- The first failure opens an incident. -/
theorem failsAt_fresh :
    ((fresh false).step (failsAt 0)).current = some "1" ∧
    ((fresh false).step (failsAt 0)).items.get? "1" = some firstIncident ∧
    ((fresh false).step (failsAt 0)).journal = none := by
  have hcandidate : (fresh false).candidate anyConfig (after 0).now (fun _ => 0) "1" =
      { id := "1", startedAt := minute, lastFailureAt := minute } := by
    have hitems : (fresh false).items.items = [] := rfl
    rw [candidate, ranged, hitems, List.mergeSort_nil]
    rfl
  have hstep : (fresh false).step (failsAt 0) = prune { fresh false with
      items := Table.set ∅ (((fresh false).candidate anyConfig (after 0).now (fun _ => 0) "1").fail
        (after 0).now "" "server" 502)
      current := some
        (((fresh false).candidate anyConfig (after 0).now (fun _ => 0) "1").fail
          (after 0).now "" "server" 502).id } (pruningAt 0) := rfl
  rw [hstep, hcandidate, prune_eq]
  refine ⟨rfl, Table.get?_of_mem (a := firstIncident) ?_, rfl⟩
  exact mem_prune _ _ (Table.mem_set.2 (.inl rfl)) (by decide)

/-- A second success moves the start of the recovery. -/
theorem not_measured_secondSuccess :
    ¬ Measured
      ([failsAt 0, succeedsAt 10, succeedsAt 20].foldl traced (fresh false, [])).1
      ([failsAt 0, succeedsAt 10, succeedsAt 20].foldl traced (fresh false, [])).2 := by
  obtain ⟨hcurrent, hget, hjournal⟩ := failsAt_fresh
  have hx : ((fresh false).step (failsAt 0)).currentIncident = some firstIncident := by
    rw [currentIncident, hcurrent, Option.bind_some, hget]
  have hopen : ((fresh false).step (failsAt 0)).OneSuccess (succeedsAt 10) := by
    refine .inr fun y hy hstate => ?_
    rw [hx] at hy
    cases hy
    cases hstate
  have htracked := ((tracked_fresh false).step (i := failsAt 0) rfl trivial).step
    (i := succeedsAt 10) rfl hopen
  refine not_measured_of_moved htracked (i := succeedsAt 20) ?_
  have htakes : ((fresh false).step (failsAt 0)).appendFails (succeedsAt 10) = false := by
    rw [succeedsAt, appendFails, hjournal]
    rfl
  obtain ⟨hitems, -⟩ := recordSuccess_taken hx htakes
  obtain ⟨hkept, hnone⟩ := recordSuccess_rest hjournal (after 10) (schedulingAt 10) .written
  rintro (hfails | hstart)
  · have hany : (((fresh false).step (failsAt 0)).recordSuccess (after 10) (schedulingAt 10)
        .written).1.journal.any (fun log => log.degraded ∨ Fate.written ≠ .written) = true := hfails
    rw [hnone] at hany
    cases hany
  · have hsecond := hstart
      { firstIncident with state := .recovering, recoveryStarted := some (after 10).now } (by
        show ((((fresh false).step (failsAt 0)).recordSuccess (after 10) (schedulingAt 10)
          .written).1.current.bind fun current =>
            (((fresh false).step (failsAt 0)).recordSuccess (after 10) (schedulingAt 10)
              .written).1.items.get? current) = _
        rw [hkept, hcurrent, hitems, Option.bind_some]
        exact Table.get?_set_self) rfl
    exact absurd (Option.some.inj hsecond) (by decide)

end Store

end RelayLifeline.Incidents
