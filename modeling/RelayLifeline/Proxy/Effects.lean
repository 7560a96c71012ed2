import RelayLifeline.Proxy.Points

/-!
# What a step of the handler changes

Most points look something up in the registry or wait, and change nothing but
the request's entry and the handler's own small variables. The others are few,
and what each of them does to the log, the route, the pool, the governance
manager and the client's connection is said here once, for every proof about a
run.
-/

namespace RelayLifeline.Proxy

open Lib Lifecycle Registry Upstream

/-- The route once an attempt with this result is remembered. -/
def Route.after (route : Route) (result : AttemptResult) : Route where
  previousTargetID := result.targetID
  previousTargetDomain := result.targetDomain
  everWroteRequest := route.everWroteRequest || result.wroteRequest

namespace World

/-- Only the entry, the point and the variables of the wait have changed. -/
def Aside (w w' : World) : Prop :=
  ∃ entry point outcome rescheduled manual,
    w' = { w with
      entry := entry
      handler := { w.handler with
        point := point, outcome := outcome, rescheduled := rescheduled,
        manualUncertainRetry := manual } }

theorem aside_refl (w : World) : w.Aside w := ⟨_, _, _, _, _, rfl⟩

theorem aside_goto (w : World) (point : Point) : w.Aside (w.goto point) := ⟨_, _, _, _, _, rfl⟩

theorem expire_aside (w : World) (a : Answer) (result : AttemptResult) :
    w.Aside (w.expire a result) := ⟨_, _, _, _, _, rfl⟩

theorem acquire_aside (w : World) (a : Answer) : w.Aside (w.acquire a) := by
  simp only [acquire]
  split
  · exact w.aside_goto _
  · exact ⟨_, _, _, _, _, rfl⟩
  · split
    · exact w.aside_goto _
    · exact w.aside_refl

theorem pauseWait_aside (w : World) : w.Aside w.pauseWait := by
  simp only [pauseWait]
  split
  · split
    · exact w.aside_goto _
    · exact w.aside_refl
  · exact w.aside_goto _

theorem retryGate_aside (w : World) (a : Answer) : w.Aside (w.retryGate a) := by
  simp only [retryGate]
  split
  · exact w.aside_goto _
  · split
    · split
      · exact w.aside_goto _
      · exact w.aside_refl
    · exact w.aside_goto _
    · exact w.aside_refl

theorem attemptFailed_aside (w : World) (a : Answer) (result : AttemptResult) :
    w.Aside (w.attemptFailed a result) := by
  simp only [attemptFailed]
  split
  · exact ⟨_, _, _, _, _, rfl⟩
  · exact ⟨_, _, _, _, _, rfl⟩

theorem awaitRetry_aside (w : World) (a : Answer) (result : AttemptResult) :
    w.Aside (w.awaitRetry a result) := by
  simp only [awaitRetry]
  split
  · exact w.expire_aside a result
  · exact w.aside_goto _

theorem activatePolicy_aside (w : World) (a : Answer) (result : AttemptResult) (cfg : Config) :
    w.Aside (w.activatePolicy a result cfg) := by
  simp only [activatePolicy]
  split
  · exact ⟨_, _, _, _, _, rfl⟩
  · exact ⟨_, _, _, _, _, rfl⟩

theorem manualWait_aside (w : World) (a : Answer) (result : AttemptResult) (cfg : Config)
    (policy : Option RetryPolicy) : w.Aside (w.manualWait a result cfg policy) := by
  simp only [manualWait]
  split
  · split
    · exact w.aside_goto _
    · exact w.aside_refl
  · split
    · exact ⟨_, _, _, _, _, rfl⟩
    · exact w.aside_refl
  · split
    · exact ⟨_, _, _, _, _, rfl⟩
    · exact w.aside_refl
  · exact w.aside_refl

theorem schedule_aside (w : World) (a : Answer) (result : AttemptResult) (cfg : Config)
    (policy : Option RetryPolicy) : w.Aside (w.schedule a result cfg policy) := by
  simp only [schedule]
  split
  · split
    · exact w.expire_aside a result
    · exact ⟨_, _, _, _, _, rfl⟩
  · split
    · exact w.expire_aside a result
    · exact ⟨_, _, _, _, _, rfl⟩
    · exact w.aside_goto _

theorem retryWait_aside (w : World) (a : Answer) (result : AttemptResult) (ready : Int) :
    w.Aside (w.retryWait a result ready) := by
  simp only [retryWait]
  split
  · split
    · exact w.aside_goto _
    · exact w.aside_refl
  · split
    · exact ⟨_, _, _, _, _, rfl⟩
    · exact w.aside_refl
  · split
    · exact ⟨_, _, _, _, _, rfl⟩
    · exact w.aside_refl
  · split
    · exact w.aside_goto _
    · exact w.aside_refl

theorem checkDeadline_aside (w : World) (a : Answer) (result : AttemptResult)
    (resumeReason : String) : w.Aside (w.checkDeadline a result resumeReason) := by
  simp only [checkDeadline]
  split
  · exact w.expire_aside a result
  · exact w.aside_goto _

theorem finish_aside (w : World) (a : Answer) : w.Aside (w.finish a) := by
  simp only [finish]
  split
  · exact ⟨_, _, _, _, _, rfl⟩
  · exact ⟨_, _, _, _, _, rfl⟩
  · split
    · split
      · exact ⟨_, _, _, _, _, rfl⟩
      · exact ⟨_, _, _, _, _, rfl⟩
    · exact w.aside_goto _

theorem handle_aside (w : World) (a : Answer) (h : w.handler.point.quiet = true) :
    w.Aside (w.handle a) := by
  simp only [handle]
  cases hpoint : w.handler.point with
  | acquire => exact w.acquire_aside a
  | pauseWait => exact w.pauseWait_aside
  | retryGate => exact w.retryGate_aside a
  | forwarding => exact ⟨_, _, _, _, _, rfl⟩
  | buffering _ => exact ⟨_, _, _, _, _, rfl⟩
  | delivering _ => exact ⟨_, _, _, _, _, rfl⟩
  | completed => exact ⟨_, _, _, _, _, rfl⟩
  | attemptFailed result => exact w.attemptFailed_aside a result
  | awaitRetry result => exact w.awaitRetry_aside a result
  | activatePolicy result cfg => exact w.activatePolicy_aside a result cfg
  | holdUncertain _ _ _ => exact ⟨_, _, _, _, _, rfl⟩
  | manualWait result cfg policy => exact w.manualWait_aside a result cfg policy
  | schedule result cfg policy => exact w.schedule_aside a result cfg policy
  | retryWait result ready => exact w.retryWait_aside a result ready
  | checkDeadline result resumeReason => exact w.checkDeadline_aside a result resumeReason
  | finish => exact w.finish_aside a
  | returned => exact w.aside_refl
  | evaluatePolicy | admitContext | startDownstream | loop | attemptStarted | select
  | bindUpstream _ | beginAttempt _ | refused _ _ | exchange _ | settle _ | judge _
  | releaseReservation _ | deliver _ | classify _ | reacquire _ | fail _ | stopHeartbeat
  | remove | releaseDeferred => simp [hpoint, Point.quiet] at h

/-- Only what the attempts share has changed, and the point. -/
def Ahead (w w' : World) : Prop :=
  ∃ governance pool log route reservation point,
    w' = { w with
      governance := governance, pool := pool, log := log
      handler := { w.handler with
        route := route, reservation := reservation, point := point } } ∧
      point.called = true

theorem Point.called_of_bound {point : Point} {lease : Nat}
    (h : point = .exchange lease ∨ point = .beginAttempt lease ∨
      ∃ reason, point = .refused lease reason) : point.called = true := by
  rcases h with rfl | rfl | ⟨reason, rfl⟩ <;> rfl

/-- What the points of an attempt change, and where they lead. -/
theorem handle_ahead (w : World) (a : Answer) (h : w.handler.point.calling = true) :
    w.Ahead (w.handle a) := by
  simp only [handle]
  cases hpoint : w.handler.point with
  | select =>
      simp only [select]
      split
      · exact ⟨_, _, _, _, _, _, rfl, rfl⟩
      · exact ⟨_, _, _, _, _, _, rfl, rfl⟩
  | bindUpstream lease =>
      obtain ⟨governance, log, point, heq, -, hpoint⟩ := w.bindUpstream_cases a lease
      exact ⟨_, _, _, _, _, _, heq, Point.called_of_bound hpoint⟩
  | beginAttempt lease =>
      obtain ⟨governance, point, heq, hpoint⟩ := w.beginAttempt_cases a lease
      exact ⟨_, _, _, _, _, _, heq, Point.called_of_bound (hpoint.imp_right .inr)⟩
  | refused lease reason => exact ⟨_, _, _, _, _, _, rfl, rfl⟩
  | exchange lease => exact ⟨_, _, _, _, _, _, rfl, rfl⟩
  | settle result =>
      obtain ⟨governance, log, point, heq, -, hpoint⟩ := w.settle_cases a result
      refine ⟨_, _, _, _, _, _, heq, ?_⟩
      rcases hpoint with rfl | ⟨rfl, -⟩ <;> rfl
  | judge result =>
      simp only [judge]
      split
      · exact ⟨_, _, _, _, _, _, rfl, rfl⟩
      · split
        · exact ⟨_, _, _, _, _, _, rfl, rfl⟩
        · exact ⟨_, _, _, _, _, _, rfl, rfl⟩
  | releaseReservation result =>
      simp only [releaseReservation]
      split
      · exact ⟨_, _, _, _, _, _, rfl, rfl⟩
      · split
        · exact ⟨_, _, _, _, _, _, rfl, rfl⟩
        · exact ⟨_, _, _, _, _, _, rfl, rfl⟩
  | evaluatePolicy | admitContext | startDownstream | acquire | loop | pauseWait | retryGate
  | forwarding | attemptStarted | buffering _ | delivering _ | deliver _ | completed
  | classify _ | attemptFailed _ | awaitRetry _ | activatePolicy _ _ | holdUncertain _ _ _
  | manualWait _ _ _ | schedule _ _ _ | retryWait _ _ | checkDeadline _ _ | reacquire _
  | fail _ | stopHeartbeat | finish | remove | releaseDeferred | returned =>
      simp [hpoint, Point.calling] at h

/-- A step of the handler, a quiet one or one of the others. -/
theorem handle_elim {motive : World → Prop} (w : World) (a : Answer)
    (quiet : w.handler.point.quiet = true → w.Aside (w.handle a) →
      (w.handle a).handler.point.attempting = false → motive (w.handle a))
    (evaluatePolicy : w.handler.point = .evaluatePolicy → motive (w.evaluatePolicy a))
    (admitContext : w.handler.point = .admitContext → motive (w.admitContext a))
    (startDownstream : w.handler.point = .startDownstream → motive (w.startDownstream a))
    (loop : w.handler.point = .loop → motive w.loop)
    (attemptStarted : w.handler.point = .attemptStarted → motive (w.attemptStarted a))
    (select : w.handler.point = .select → motive (w.select a))
    (bindUpstream : ∀ lease, w.handler.point = .bindUpstream lease → motive (w.bindUpstream a lease))
    (beginAttempt : ∀ lease, w.handler.point = .beginAttempt lease → motive (w.beginAttempt a lease))
    (refused : ∀ lease reason, w.handler.point = .refused lease reason →
      motive (w.refused lease reason))
    (exchange : ∀ lease, w.handler.point = .exchange lease → motive (w.exchange a lease))
    (settle : ∀ result, w.handler.point = .settle result → motive (w.settle a result))
    (judge : ∀ result, w.handler.point = .judge result → motive (w.judge result))
    (releaseReservation : ∀ result, w.handler.point = .releaseReservation result →
      motive (w.releaseReservation a result))
    (deliver : ∀ result, w.handler.point = .deliver result → motive (w.deliver a result))
    (classify : ∀ result, w.handler.point = .classify result → motive (w.classify a result))
    (reacquire : ∀ reason, w.handler.point = .reacquire reason → motive (w.reacquire a reason))
    (fail : ∀ message, w.handler.point = .fail message → motive (w.fail a message))
    (stopHeartbeat : w.handler.point = .stopHeartbeat → motive w.stopHeartbeat)
    (remove : w.handler.point = .remove → motive (w.remove a))
    (releaseDeferred : w.handler.point = .releaseDeferred → motive (w.releaseDeferred a)) :
    motive (w.handle a) := by
  by_cases h : w.handler.point.quiet = true
  · exact quiet h (w.handle_aside a h) (w.handle_attempting a h)
  · simp only [handle]
    cases hpoint : w.handler.point with
    | evaluatePolicy => exact evaluatePolicy hpoint
    | admitContext => exact admitContext hpoint
    | startDownstream => exact startDownstream hpoint
    | loop => exact loop hpoint
    | attemptStarted => exact attemptStarted hpoint
    | select => exact select hpoint
    | bindUpstream lease => exact bindUpstream lease hpoint
    | beginAttempt lease => exact beginAttempt lease hpoint
    | refused lease reason => exact refused lease reason hpoint
    | exchange lease => exact exchange lease hpoint
    | settle result => exact settle result hpoint
    | judge result => exact judge result hpoint
    | releaseReservation result => exact releaseReservation result hpoint
    | deliver result => exact deliver result hpoint
    | classify result => exact classify result hpoint
    | reacquire reason => exact reacquire reason hpoint
    | fail message => exact fail message hpoint
    | stopHeartbeat => exact stopHeartbeat hpoint
    | remove => exact remove hpoint
    | releaseDeferred => exact releaseDeferred hpoint
    | acquire | pauseWait | retryGate | forwarding | buffering _ | delivering _ | completed
    | attemptFailed _ | awaitRetry _ | activatePolicy _ _ | holdUncertain _ _ _
    | manualWait _ _ _ | schedule _ _ _ | retryWait _ _ | checkDeadline _ _ | finish
    | returned => simp [hpoint, Point.quiet] at h

/-! ## What the attempts share -/

/-- Everything one attempt hands on to the next, or that a claim about attempts
speaks of, is as it was, and no attempt is under way. The configuration may have
been read again. -/
structure Beside (w w' : World) : Prop where
  request : w'.request = w.request
  config : w'.config = w.config
  governance : w'.governance = w.governance
  pool : w'.pool = w.pool
  operators : w'.operators = w.operators
  log : w'.log = w.log
  route : w'.handler.route = w.handler.route
  reservation : w'.handler.reservation = w.handler.reservation
  attempt : w'.handler.attempt = w.handler.attempt
  cfg : w'.handler.cfg = w.handler.cfg ∨ w'.handler.cfg = w.config
  idle : w.handler.point.attempting = false
  idle' : w'.handler.point.attempting = false

theorem Aside.beside {w w' : World} (h : w.Aside w') (hquiet : w.handler.point.quiet = true)
    (hpoint : w'.handler.point.attempting = false) : w.Beside w' := by
  obtain ⟨entry, point, outcome, rescheduled, manual, rfl⟩ := h
  exact ⟨rfl, rfl, rfl, rfl, rfl, rfl, rfl, rfl, rfl, .inl rfl,
    Point.not_attempting_of_quiet hquiet, hpoint⟩

theorem reject_beside (w : World) (a : Answer) (status : Nat) (text : String)
    (hidle : w.handler.point.attempting = false) : w.Beside (w.reject a status text) :=
  ⟨rfl, rfl, rfl, rfl, rfl, rfl, rfl, rfl, rfl, .inl rfl, hidle, rfl⟩

theorem evaluatePolicy_beside (w : World) (a : Answer)
    (hidle : w.handler.point.attempting = false) : w.Beside (w.evaluatePolicy a) := by
  simp only [evaluatePolicy]
  split
  · exact w.reject_beside a _ _ hidle
  · exact ⟨rfl, rfl, rfl, rfl, rfl, rfl, rfl, rfl, rfl, .inl rfl, hidle, rfl⟩

theorem startDownstream_beside (w : World) (a : Answer)
    (hidle : w.handler.point.attempting = false) : w.Beside (w.startDownstream a) := by
  simp only [startDownstream]
  split
  · exact ⟨rfl, rfl, rfl, rfl, rfl, rfl, rfl, rfl, rfl, .inl rfl, hidle, rfl⟩
  · obtain ⟨ctx, heq⟩ := onDisconnect_cases { w with
      downstream := w.downstream.start, handler.started := a.now, handler.point := .acquire }
    rw [heq]
    exact ⟨rfl, rfl, rfl, rfl, rfl, rfl, rfl, rfl, rfl, .inl rfl, hidle, rfl⟩

theorem deliver_beside (w : World) (a : Answer) (result : AttemptResult)
    (hidle : w.handler.point.attempting = false) : w.Beside (w.deliver a result) := by
  simp only [deliver]
  split
  · split
    · exact ⟨rfl, rfl, rfl, rfl, rfl, rfl, rfl, rfl, rfl, .inl rfl, hidle, rfl⟩
    · exact ⟨rfl, rfl, rfl, rfl, rfl, rfl, rfl, rfl, rfl, .inl rfl, hidle, rfl⟩
  · exact ⟨rfl, rfl, rfl, rfl, rfl, rfl, rfl, rfl, rfl, .inl rfl, hidle, hidle⟩

theorem fail_beside (w : World) (a : Answer) (message : Message)
    (hidle : w.handler.point.attempting = false) : w.Beside (w.fail a message) := by
  simp only [fail]
  split
  · exact ⟨rfl, rfl, rfl, rfl, rfl, rfl, rfl, rfl, rfl, .inl rfl, hidle, rfl⟩
  · exact ⟨rfl, rfl, rfl, rfl, rfl, rfl, rfl, rfl, rfl, .inl rfl, hidle, hidle⟩

theorem stopHeartbeat_beside (w : World) (hidle : w.handler.point.attempting = false) :
    w.Beside w.stopHeartbeat := by
  simp only [stopHeartbeat]
  split
  · exact ⟨rfl, rfl, rfl, rfl, rfl, rfl, rfl, rfl, rfl, .inl rfl, hidle, rfl⟩
  · exact ⟨rfl, rfl, rfl, rfl, rfl, rfl, rfl, rfl, rfl, .inl rfl, hidle, hidle⟩

/-- A step of the handler, where a proof is about the attempts. -/
theorem attempt_elim {motive : World → Prop} (w : World) (a : Answer)
    (beside : w.Beside (w.handle a) → motive (w.handle a))
    (admitContext : w.handler.point = .admitContext → motive (w.admitContext a))
    (attemptStarted : w.handler.point = .attemptStarted → motive (w.attemptStarted a))
    (select : w.handler.point = .select → motive (w.select a))
    (bindUpstream : ∀ lease, w.handler.point = .bindUpstream lease → motive (w.bindUpstream a lease))
    (beginAttempt : ∀ lease, w.handler.point = .beginAttempt lease → motive (w.beginAttempt a lease))
    (refused : ∀ lease reason, w.handler.point = .refused lease reason →
      motive (w.refused lease reason))
    (exchange : ∀ lease, w.handler.point = .exchange lease → motive (w.exchange a lease))
    (settle : ∀ result, w.handler.point = .settle result → motive (w.settle a result))
    (judge : ∀ result, w.handler.point = .judge result → motive (w.judge result))
    (releaseReservation : ∀ result, w.handler.point = .releaseReservation result →
      motive (w.releaseReservation a result))
    (classify : ∀ result, w.handler.point = .classify result → motive (w.classify a result))
    (reacquire : ∀ reason, w.handler.point = .reacquire reason → motive (w.reacquire a reason))
    (releaseDeferred : w.handler.point = .releaseDeferred → motive (w.releaseDeferred a)) :
    motive (w.handle a) := by
  have of_eq {w' : World} (heq : w.handle a = w') (h : w.Beside w') : motive w' :=
    heq ▸ beside (heq ▸ h)
  refine handle_elim w a (fun hquiet haside hidle => beside (haside.beside hquiet hidle)) ?_ admitContext
    ?_ ?_ attemptStarted select bindUpstream beginAttempt refused exchange settle judge
    releaseReservation ?_ classify reacquire ?_ ?_ ?_ releaseDeferred
  case refine_1 =>
    intro hpoint
    exact of_eq (by simp only [handle, hpoint]) (w.evaluatePolicy_beside a (by rw [hpoint]; rfl))
  case refine_2 =>
    intro hpoint
    exact of_eq (by simp only [handle, hpoint]) (w.startDownstream_beside a (by rw [hpoint]; rfl))
  case refine_3 =>
    intro hpoint
    exact of_eq (by simp only [handle, hpoint])
      ⟨rfl, rfl, rfl, rfl, rfl, rfl, rfl, rfl, rfl, .inr rfl, by rw [hpoint]; rfl, rfl⟩
  case refine_4 =>
    intro result hpoint
    exact of_eq (by simp only [handle, hpoint]) (w.deliver_beside a result (by rw [hpoint]; rfl))
  case refine_5 =>
    intro message hpoint
    exact of_eq (by simp only [handle, hpoint]) (w.fail_beside a message (by rw [hpoint]; rfl))
  case refine_6 =>
    intro hpoint
    exact of_eq (by simp only [handle, hpoint]) (w.stopHeartbeat_beside (by rw [hpoint]; rfl))
  case refine_7 =>
    intro hpoint
    exact of_eq (by simp only [handle, hpoint])
      ⟨rfl, rfl, rfl, rfl, rfl, rfl, rfl, rfl, rfl, .inl rfl, by rw [hpoint]; rfl, rfl⟩

/-- The handler works under the configuration it has read, or reads it again; the
request stays what it was. -/
theorem handle_cfg (w : World) (a : Answer) :
    (w.handle a).request = w.request ∧ (w.handle a).config = w.config ∧
      ((w.handle a).handler.cfg = w.handler.cfg ∨ (w.handle a).handler.cfg = w.config) := by
  by_cases hcalling : w.handler.point.calling = true
  · obtain ⟨governance, pool, log, route, reservation, point, heq, -⟩ := w.handle_ahead a hcalling
    rw [heq]
    exact ⟨rfl, rfl, .inl rfl⟩
  have hno {point : Point} (hpoint : w.handler.point = point) (hp : point.calling = true) : False :=
    hcalling (hpoint ▸ hp)
  refine attempt_elim (motive := fun w' => w'.request = w.request ∧ w'.config = w.config ∧
      (w'.handler.cfg = w.handler.cfg ∨ w'.handler.cfg = w.config))
    w a (fun hbeside => ⟨hbeside.request, hbeside.config, hbeside.cfg⟩) (fun hpoint => ?_) (fun hpoint => ?_)
    (fun hpoint => (hno hpoint rfl).elim) (fun lease hpoint => (hno hpoint rfl).elim)
    (fun lease hpoint => (hno hpoint rfl).elim) (fun lease reason hpoint => ⟨rfl, rfl, .inl rfl⟩)
    (fun lease hpoint => ⟨rfl, rfl, .inl rfl⟩) (fun result hpoint => (hno hpoint rfl).elim)
    (fun result hpoint => (hno hpoint rfl).elim) (fun result hpoint => (hno hpoint rfl).elim)
    (fun result hpoint => ?_) (fun reason hpoint => ?_) (fun hpoint => ?_)
  case refine_1 =>
    simp only [admitContext]
    split
    · exact ⟨rfl, rfl, .inl rfl⟩
    · split <;> exact ⟨rfl, rfl, .inl rfl⟩
  case refine_2 =>
    simp only [attemptStarted]
    split <;> exact ⟨rfl, rfl, .inl rfl⟩
  case refine_3 =>
    simp only [classify]
    split
    · exact ⟨rfl, rfl, .inl rfl⟩
    · split <;> exact ⟨rfl, rfl, .inl rfl⟩
  case refine_4 =>
    simp only [reacquire]
    split
    · exact ⟨rfl, rfl, .inl rfl⟩
    · exact ⟨rfl, rfl, .inl rfl⟩
    · split <;> exact ⟨rfl, rfl, .inl rfl⟩
  case refine_5 =>
    simp only [releaseDeferred]
    split <;> exact ⟨rfl, rfl, .inl rfl⟩

/-- What a step of the handler may add to the log, and where. -/
inductive Notes (w : World) (a : Answer) : Happening → Prop
  | started (hpoint : w.handler.point = .attemptStarted) : w.Notes a (.started w.handler.attempt)
  | unselected (hpoint : w.handler.point = .select) : w.Notes a (.unselected w.handler.attempt)
  | begun (lease : Nat) (hpoint : w.handler.point = .bindUpstream lease) :
      w.Notes a (.begun w.handler.attempt)
  | ended (lease : Nat) (hpoint : w.handler.point = .exchange lease) :
      w.Notes a (.ended w.handler.attempt (w.target lease)
        (runAttemptForTarget (w.target lease) a.exchange))
  | recorded (result : AttemptResult) (hpoint : w.handler.point = .settle result)
      (haccountable : result.accountable = true) :
      w.Notes a (.recorded w.handler.attempt result.usage)
  | uncertain (result : AttemptResult) (hpoint : w.handler.point = .classify result)
      (hlost : result.undelivered = true)
      (htracks : w.handler.cfg.lifecycle.trackUncertainDelivery = true) :
      w.Notes a (.uncertain w.handler.attempt)

theorem handle_log (w : World) (a : Answer) :
    (w.handle a).log = w.log ∨ ∃ x, w.Notes a x ∧ (w.handle a).log = w.log ++ [x] := by
  refine attempt_elim
    (motive := fun w' => w'.log = w.log ∨ ∃ x, w.Notes a x ∧ w'.log = w.log ++ [x])
    w a (fun hbeside => .inl hbeside.log) (fun hpoint => ?_) (fun hpoint => ?_) (fun hpoint => ?_)
    (fun lease hpoint => ?_) (fun lease hpoint => ?_) (fun lease reason hpoint => .inl rfl)
    (fun lease hpoint => .inr ⟨_, .ended lease hpoint, rfl⟩) (fun result hpoint => ?_)
    (fun result hpoint => ?_) (fun result hpoint => ?_) (fun result hpoint => ?_)
    (fun reason hpoint => ?_) (fun hpoint => ?_)
  case refine_1 =>
    simp only [admitContext]
    generalize w.governance.admitWithContext a.clock a.requestCanceled a.reservationID
      { w.request.admission with upstream := w.handler.decision.targetID } = admitted
    split
    · exact .inl rfl
    · split <;> exact .inl rfl
  case refine_2 =>
    simp only [attemptStarted]
    split
    · exact .inr ⟨_, .started hpoint, rfl⟩
    · exact .inl rfl
  case refine_3 =>
    simp only [select]
    split
    · exact .inr ⟨_, .unselected hpoint, rfl⟩
    · exact .inl rfl
  case refine_4 =>
    obtain ⟨governance, log, point, heq, hlog, -⟩ := w.bindUpstream_cases a lease
    rw [heq]
    exact hlog.imp_right fun hlog => ⟨_, .begun lease hpoint, hlog⟩
  case refine_5 =>
    obtain ⟨governance, point, heq, -⟩ := w.beginAttempt_cases a lease
    exact .inl (by rw [heq])
  case refine_6 =>
    obtain ⟨governance, log, point, heq, hlog, -⟩ := w.settle_cases a result
    rw [heq]
    exact hlog.imp_right fun hlog => ⟨_, .recorded result hpoint hlog.1, hlog.2⟩
  case refine_7 =>
    simp only [judge]
    split
    · exact .inl rfl
    · split <;> exact .inl rfl
  case refine_8 =>
    simp only [releaseReservation]
    split
    · exact .inl rfl
    · split <;> exact .inl rfl
  case refine_9 =>
    simp only [classify]
    split
    · exact .inl rfl
    · rename_i hresponse
      split
      · rename_i hwrote
        refine .inr ⟨_, .uncertain result hpoint ?_ hwrote.2, rfl⟩
        simp [AttemptResult.undelivered, hwrote.1, Option.not_isSome_iff_eq_none.1 hresponse]
      · exact .inl rfl
  case refine_10 =>
    simp only [reacquire]
    split
    · exact .inl rfl
    · exact .inl rfl
    · split <;> exact .inl rfl
  case refine_11 =>
    simp only [releaseDeferred]
    split <;> exact .inl rfl

theorem log_subset_handle (w : World) (a : Answer) : w.log ⊆ (w.handle a).log := by
  rcases w.handle_log a with heq | ⟨x, -, heq⟩
  · rw [heq]
    exact List.Subset.refl _
  · rw [heq]
    exact List.subset_append_left _ _

/-! ## What others change -/

theorem policyAction_cases (w : World) (answer : Entry × Except ActionReason State) :
    ∃ senders, w.policyAction answer =
      { w with entry := answer.1, operators := { w.operators with policySenders := senders } } := by
  simp only [policyAction]
  split
  · exact ⟨_, rfl⟩
  · exact ⟨_, rfl⟩

/-- What an event of someone else leaves of the world, as far as attempts go:
the handler and the request are as they were, and the log gains at most the
compensation that was accepted. -/
structure Outside (w w' : World) (event : Event) : Prop where
  request : w'.request = w.request
  handler : w'.handler = w.handler
  log : w'.log = w.log ∨ w'.log = w.log ++ [.compensated]
  config : w'.config = w.config ∨ ∃ cfg, event = .configure cfg ∧ w'.config = cfg
  governance : w'.governance = w.governance ∨
    ∃ action, event = .govern action ∧ w.ownCall action = false ∧
      w'.governance = w.governance.act action
  pool : w'.pool = w.pool ∨
    (∃ op, event = .upstream op ∧ (op.finishes.isSome → op.finishes ≠ w.handler.point.lease) ∧
      w'.pool = w.pool.step op) ∨
    ∃ pool legacy, event = .reload pool legacy ∧
      w'.pool = { w.pool with manager := (w.pool.manager.apply pool legacy).1 }

theorem Outside.log_subset {w w' : World} {event : Event} (h : w.Outside w' event) :
    w.log ⊆ w'.log := by
  rcases h.log with heq | heq
  · rw [heq]
    exact List.Subset.refl _
  · rw [heq]
    exact List.subset_append_left _ _

theorem outside_refl (w : World) (event : Event) : w.Outside w event :=
  ⟨rfl, rfl, .inl rfl, .inl rfl, .inl rfl, .inl rfl⟩

theorem resolveUncertain_outside (w : World) (now : Int) (resolution : Resolution)
    (persisted : Bool) (event : Event) :
    w.Outside (w.resolveUncertain now resolution persisted) event := by
  simp only [resolveUncertain]
  split
  · exact ⟨rfl, rfl, .inl rfl, .inl rfl, .inl rfl, .inl rfl⟩
  · split
    · exact ⟨rfl, rfl, .inr rfl, .inl rfl, .inl rfl, .inl rfl⟩
    · exact ⟨rfl, rfl, .inl rfl, .inl rfl, .inl rfl, .inl rfl⟩

/-- Every event is a step of the handler or leaves it where it is. -/
theorem step_outside (w : World) (event : Event) (h : ∀ answer, event ≠ .handler answer) :
    w.Outside (w.step event) event := by
  match event with
  | .handler answer => exact absurd rfl (h answer)
  | .heartbeat beat =>
      simp only [step]
      split
      · exact ⟨rfl, rfl, .inl rfl, .inl rfl, .inl rfl, .inl rfl⟩
      · obtain ⟨ctx, heq⟩ := onDisconnect_cases { w with downstream := (w.downstream.beat beat).1 }
        rw [heq]
        exact ⟨rfl, rfl, .inl rfl, .inl rfl, .inl rfl, .inl rfl⟩
  | .heartbeatQuit => exact ⟨rfl, rfl, .inl rfl, .inl rfl, .inl rfl, .inl rfl⟩
  | .retryNowChecked =>
      simp only [step]
      split
      · exact ⟨rfl, rfl, .inl rfl, .inl rfl, .inl rfl, .inl rfl⟩
      · exact w.outside_refl _
  | .sendRetry persisted =>
      simp only [step]
      split
      · exact w.outside_refl _
      · exact ⟨rfl, rfl, .inl rfl, .inl rfl, .inl rfl, .inl rfl⟩
  | .applyRetryPolicy now spec overwrite validate persisted =>
      obtain ⟨senders, heq⟩ := w.policyAction_cases
        (w.entry.applyRetryPolicy now spec overwrite validate persisted)
      simp only [step, heq]
      exact ⟨rfl, rfl, .inl rfl, .inl rfl, .inl rfl, .inl rfl⟩
  | .clearRetryPolicy persisted =>
      obtain ⟨senders, heq⟩ := w.policyAction_cases (w.entry.clearRetryPolicy persisted)
      simp only [step, heq]
      exact ⟨rfl, rfl, .inl rfl, .inl rfl, .inl rfl, .inl rfl⟩
  | .signalPolicy =>
      simp only [step]
      split
      · exact w.outside_refl _
      · exact ⟨rfl, rfl, .inl rfl, .inl rfl, .inl rfl, .inl rfl⟩
  | .resolveUncertain now resolution persisted =>
      exact w.resolveUncertain_outside now resolution persisted _
  | .sendCompensation =>
      simp only [step]
      split
      · exact w.outside_refl _
      · exact ⟨rfl, rfl, .inl rfl, .inl rfl, .inl rfl, .inl rfl⟩
  | .cancelChecked persisted =>
      simp only [step]
      split
      · exact ⟨rfl, rfl, .inl rfl, .inl rfl, .inl rfl, .inl rfl⟩
      · exact ⟨rfl, rfl, .inl rfl, .inl rfl, .inl rfl, .inl rfl⟩
  | .sendCancel =>
      simp only [step]
      split
      · exact w.outside_refl _
      · exact ⟨rfl, rfl, .inl rfl, .inl rfl, .inl rfl, .inl rfl⟩
  | .contextDone err => exact ⟨rfl, rfl, .inl rfl, .inl rfl, .inl rfl, .inl rfl⟩
  | .disconnect =>
      obtain ⟨ctx, heq⟩ := w.onDisconnect_cases
      simp only [step, heq]
      exact ⟨rfl, rfl, .inl rfl, .inl rfl, .inl rfl, .inl rfl⟩
  | .pause => exact ⟨rfl, rfl, .inl rfl, .inl rfl, .inl rfl, .inl rfl⟩
  | .resume => exact ⟨rfl, rfl, .inl rfl, .inl rfl, .inl rfl, .inl rfl⟩
  | .configure cfg => exact ⟨rfl, rfl, .inl rfl, .inr ⟨cfg, rfl, rfl⟩, .inl rfl, .inl rfl⟩
  | .govern action =>
      simp only [step]
      split
      · exact w.outside_refl _
      · rename_i hown
        exact ⟨rfl, rfl, .inl rfl, .inl rfl, .inr ⟨action, rfl, by simpa using hown, rfl⟩, .inl rfl⟩
  | .upstream op =>
      simp only [step]
      split
      · exact w.outside_refl _
      · rename_i hown
        exact ⟨rfl, rfl, .inl rfl, .inl rfl, .inl rfl,
          .inr (.inl ⟨op, rfl, fun hsome heq => hown ⟨hsome, heq⟩, rfl⟩)⟩
  | .reload pool legacy =>
      exact ⟨rfl, rfl, .inl rfl, .inl rfl, .inl rfl, .inr (.inr ⟨pool, legacy, rfl, rfl⟩)⟩

/-- A token waits for the handler, or an operator's call is about to send one. -/
def Offered (w : World) : Prop :=
  w.entry.retryNow = true ∨ 0 < w.operators.retrySenders ∨ 0 < w.operators.compensators

/-- What an event of someone else leaves of the request: its state stays, an
operator resolves it only while it is uncertain, and a token comes only from a
call that was let through. What ended the request's context does not come
back. -/
structure Aloof (w w' : World) (event : Event) : Prop where
  state : w'.entry.state = w.entry.state
  finished : w'.entry.timeline.finished = w.entry.timeline.finished
  resolution : w'.entry.resolution = w.entry.resolution ∧ w'.log = w.log ∨
    ∃ now resolution persisted, event = .resolveUncertain now resolution persisted ∧
      w.entry.state = some .uncertain ∧ w.entry.resolution = none ∧
      w'.entry.resolution = some resolution ∧
      w'.log = if resolution = .requestCompensation then w.log ++ [.compensated] else w.log
  ctx : w.ctx.isSome → w'.ctx = w.ctx
  disconnected : w.clientDisconnected = true → w'.clientDisconnected = true
  offered : w'.Offered → w.Offered ∨ w.entry.state = some .waiting ∨
    w'.log = w.log ++ [.compensated]

theorem aloof_of_alike {w : World} {entry : Entry} (event : Event) (operators : Operators)
    (halike : w.entry.Alike entry) (hretry : operators.retrySenders = w.operators.retrySenders)
    (hcompensation : operators.compensators = w.operators.compensators) :
    w.Aloof { w with entry := entry, operators := operators } event where
  state := halike.state
  finished := halike.finished
  resolution := .inl ⟨halike.resolution, rfl⟩
  ctx := fun _ => rfl
  disconnected := id
  offered := fun h => .inl (by
    simpa only [Offered, halike.retryNow, hretry, hcompensation] using h)

theorem aloof_refl (w : World) (event : Event) : w.Aloof w event :=
  w.aloof_of_alike event w.operators (.refl _) rfl rfl

theorem aloof_onDisconnect (w : World) (downstream : Downstream) (event : Event) :
    w.Aloof { w with downstream := downstream }.onDisconnect event := by
  simp only [onDisconnect]
  split
  · refine ⟨rfl, rfl, .inl ⟨rfl, rfl⟩, fun hdone => ?_, fun _ => rfl, .inl⟩
    obtain ⟨err, herr⟩ := Option.isSome_iff_exists.1 hdone
    simp [herr]
  · exact ⟨rfl, rfl, .inl ⟨rfl, rfl⟩, fun _ => rfl, fun _ => rfl, .inl⟩

theorem resolveUncertain_aloof (w : World) (now : Int) (resolution : Resolution)
    (persisted : Bool) :
    w.Aloof (w.resolveUncertain now resolution persisted)
      (.resolveUncertain now resolution persisted) := by
  simp only [resolveUncertain]
  rcases w.entry.resolveUncertain_cases now resolution persisted with ⟨halike, reason, herr⟩ |
    ⟨hok, hstate, hnone, hstate', hsome, hfinished, hretry, -⟩
  · simp only [herr]
    exact w.aloof_of_alike _ w.operators halike rfl rfl
  · simp only [hok]
    split
    · exact ⟨hstate'.trans hstate.symm, hfinished,
        .inr ⟨now, _, persisted, rfl, hstate, hnone, hsome, rfl⟩, fun _ => rfl, id,
        fun _ => .inr (.inr rfl)⟩
    · rename_i hother
      refine ⟨hstate'.trans hstate.symm, hfinished,
        .inr ⟨now, _, persisted, rfl, hstate, hnone, hsome, ?_⟩, fun _ => rfl, id,
        fun h => .inl (by simpa only [Offered, hretry] using h)⟩
      rw [if_neg fun heq => hother heq]

/-- What others do to the request itself. -/
theorem step_aloof (w : World) (event : Event) (h : ∀ answer, event ≠ .handler answer) :
    w.Aloof (w.step event) event := by
  match event with
  | .handler answer => exact absurd rfl (h answer)
  | .heartbeat beat =>
      simp only [step]
      split
      · exact ⟨rfl, rfl, .inl ⟨rfl, rfl⟩, fun _ => rfl, id, .inl⟩
      · exact w.aloof_onDisconnect _ _
  | .heartbeatQuit => exact ⟨rfl, rfl, .inl ⟨rfl, rfl⟩, fun _ => rfl, id, .inl⟩
  | .retryNowChecked =>
      simp only [step]
      split
      · rename_i hok
        exact ⟨rfl, rfl, .inl ⟨rfl, rfl⟩, fun _ => rfl, id,
          fun _ => .inr (.inl (Entry.retryable_ok hok))⟩
      · exact w.aloof_refl _
  | .sendRetry persisted =>
      simp only [step]
      split
      · exact w.aloof_refl _
      · rename_i hsenders
        simp only [Entry.sendRetry]
        split
        · rename_i hretry
          exact ⟨rfl, rfl, .inl ⟨rfl, rfl⟩, fun _ => rfl, id, fun _ => .inl (.inl hretry)⟩
        · have halike := Entry.addEvent_alike { w.entry with retryNow := true }
            { type := .retryRequested, messageCode := "timeline.retry_requested" } persisted
          exact ⟨halike.state, halike.finished, .inl ⟨halike.resolution, rfl⟩, fun _ => rfl, id,
            fun _ => .inl (.inr (.inl (Nat.pos_of_ne_zero hsenders)))⟩
  | .applyRetryPolicy now spec overwrite validate persisted =>
      have halike := w.entry.applyRetryPolicy_alike now spec overwrite validate persisted
      obtain ⟨senders, heq⟩ := w.policyAction_cases
        (w.entry.applyRetryPolicy now spec overwrite validate persisted)
      simp only [step, heq]
      exact w.aloof_of_alike _ _ halike rfl rfl
  | .clearRetryPolicy persisted =>
      have halike := w.entry.clearRetryPolicy_alike persisted
      obtain ⟨senders, heq⟩ := w.policyAction_cases (w.entry.clearRetryPolicy persisted)
      simp only [step, heq]
      exact w.aloof_of_alike _ _ halike rfl rfl
  | .signalPolicy =>
      simp only [step]
      split
      · exact w.aloof_refl _
      · exact ⟨rfl, rfl, .inl ⟨rfl, rfl⟩, fun _ => rfl, id, .inl⟩
  | .resolveUncertain now resolution persisted =>
      exact w.resolveUncertain_aloof now resolution persisted
  | .sendCompensation =>
      simp only [step]
      split
      · exact w.aloof_refl _
      · rename_i hcompensators
        exact ⟨rfl, rfl, .inl ⟨rfl, rfl⟩, fun _ => rfl, id,
          fun _ => .inl (.inr (.inr (Nat.pos_of_ne_zero hcompensators)))⟩
  | .cancelChecked persisted =>
      have halike := w.entry.cancelChecked_alike persisted
      simp only [step]
      split
      · exact w.aloof_of_alike _ _ halike rfl rfl
      · exact w.aloof_of_alike _ w.operators halike rfl rfl
  | .sendCancel =>
      simp only [step]
      split
      · exact w.aloof_refl _
      · refine ⟨rfl, rfl, .inl ⟨rfl, rfl⟩, fun hdone => ?_, id, .inl⟩
        obtain ⟨err, herr⟩ := Option.isSome_iff_exists.1 hdone
        simp [herr]
  | .contextDone err =>
      refine ⟨rfl, rfl, .inl ⟨rfl, rfl⟩, fun hdone => ?_, id, .inl⟩
      obtain ⟨err', herr⟩ := Option.isSome_iff_exists.1 hdone
      simp [step, herr]
  | .disconnect => exact w.aloof_onDisconnect w.downstream _
  | .pause | .resume | .configure _ | .reload _ _ =>
      exact ⟨rfl, rfl, .inl ⟨rfl, rfl⟩, fun _ => rfl, id, .inl⟩
  | .govern action =>
      simp only [step]
      split
      · exact w.aloof_refl _
      · exact ⟨rfl, rfl, .inl ⟨rfl, rfl⟩, fun _ => rfl, id, .inl⟩
  | .upstream op =>
      simp only [step]
      split
      · exact w.aloof_refl _
      · exact ⟨rfl, rfl, .inl ⟨rfl, rfl⟩, fun _ => rfl, id, .inl⟩

end World

end RelayLifeline.Proxy
