import RelayLifeline.Proxy.Effects

/-!
# The state of a request at each point

The registry moves a request only where its table lists the move, and says
nothing where it does not. So the handler's place in its program does not give
the state away by itself; what it gives is a short list of states, and every
step of the handler stays within the lists.
-/

namespace RelayLifeline.Proxy

open Lib Lifecycle Registry

/-- The states a request may be in while its handler is at a point, as long as
the handler is not on its way out. -/
def Point.states : Point → List State
  | .evaluatePolicy | .admitContext | .startDownstream | .acquire => [.queued]
  | .loop | .pauseWait | .retryGate | .forwarding => [.queued, .waiting]
  | .attemptStarted | .select | .bindUpstream _ | .beginAttempt _ | .refused _ _ | .exchange _
  | .settle _ | .judge _ | .releaseReservation _ | .buffering _ | .classify _ => [.forwarding]
  | .delivering _ => [.buffering]
  | .deliver _ | .completed => [.delivering]
  | .attemptFailed _ => [.forwarding, .buffering, .uncertain]
  | .awaitRetry _ | .activatePolicy _ _ | .holdUncertain _ _ _ | .schedule _ _ _ =>
      [.forwarding, .buffering, .uncertain, .waiting]
  | .manualWait _ _ _ => [.buffering, .uncertain, .waiting]
  | .retryWait _ _ | .checkDeadline _ _ | .reacquire _ => [.waiting]
  | .fail _ | .stopHeartbeat | .finish | .remove | .releaseDeferred | .returned => []

/-- The handler has taken the request out of the registry. -/
def Point.removed : Point → Bool
  | .releaseDeferred | .returned => true
  | _ => false

theorem Point.exiting_of_removed {point : Point} (h : point.removed = true) :
    point.exiting = true := by
  cases point <;> first | rfl | exact absurd h (by simp [Point.removed])

theorem Point.going_of_calling {point : Point} (h : point.calling = true) :
    point.exiting = false := by
  cases point <;> first | rfl | exact absurd h (by simp [Point.calling])

theorem Point.states_of_calling {point : Point} (h : point.calling = true) :
    point.states = [.forwarding] := by
  cases point <;> first | rfl | exact absurd h (by simp [Point.calling])

theorem Point.states_of_called {point : Point} (h : point.called = true) :
    point.exiting = true ∨ point.states = [.forwarding] := by
  cases point <;> first | exact .inl rfl | exact .inr rfl |
    exact absurd h (by simp [Point.called, Point.calling])

theorem Point.open_of_going {point : Point} (h : point.exiting = false) :
    point.removed = false := by
  by_contra hremoved
  simp [Point.exiting_of_removed (by simpa using hremoved)] at h

namespace World

/-- Up to the handler's way out, the request is in one of the states of its
point, with nothing decided. -/
structure Tracked (w : World) : Prop where
  state : w.handler.point.exiting = false →
    ∃ status ∈ w.handler.point.states, w.entry.state = some status
  outcome : w.handler.point.exiting = false → w.handler.outcome = .failed
  finished : w.handler.point.removed = false → w.entry.timeline.finished = none

variable {w w' : World}

/-- A step that moves the request as `f` says. -/
theorem Tracked.of_move (h : Tracked w) {f : State → State}
    (hstate : w'.entry.state = w.entry.state.map f)
    (hfinished : w'.entry.timeline.finished = w.entry.timeline.finished)
    (houtcome : w'.handler.outcome = w.handler.outcome)
    (hgoing : w.handler.point.exiting = false)
    (hstates : ∀ status ∈ w.handler.point.states, f status ∈ w'.handler.point.states) :
    Tracked w' := by
  refine ⟨fun _ => ?_, fun _ => houtcome.trans (h.outcome hgoing), fun _ => ?_⟩
  · obtain ⟨status, hin, hstatus⟩ := h.state hgoing
    exact ⟨f status, hstates status hin, by rw [hstate, hstatus]; rfl⟩
  · exact hfinished.trans (h.finished (Point.open_of_going hgoing))

/-- A step that moves nothing. -/
theorem Tracked.of_same (h : Tracked w) (hstate : w'.entry.state = w.entry.state)
    (hfinished : w'.entry.timeline.finished = w.entry.timeline.finished)
    (houtcome : w'.handler.outcome = w.handler.outcome)
    (hgoing : w.handler.point.exiting = false)
    (hstates : w.handler.point.states ⊆ w'.handler.point.states) : Tracked w' :=
  h.of_move (f := id) (by simp [hstate]) hfinished houtcome hgoing fun _ hin => hstates hin

/-- Such a step from a point where nothing is decided. -/
theorem Tracked.stay (h : Tracked w) {p : Point} (hpoint : w.handler.point = p)
    (hstate : w'.entry.state = w.entry.state)
    (hfinished : w'.entry.timeline.finished = w.entry.timeline.finished)
    (houtcome : w'.handler.outcome = w.handler.outcome) (hgoing : p.exiting = false)
    (hstates : p.states ⊆ w'.handler.point.states) : Tracked w' :=
  h.of_same hstate hfinished houtcome (hpoint ▸ hgoing) (hpoint ▸ hstates)

/-- A step on the way out. -/
theorem Tracked.of_exit (h : Tracked w)
    (hfinished : w'.handler.point.removed = false →
      w'.entry.timeline.finished = w.entry.timeline.finished ∧ w.handler.point.removed = false)
    (hexit : w'.handler.point.exiting = true) : Tracked w' := by
  refine ⟨fun hgoing => absurd hgoing (by simp [hexit]), fun hgoing => absurd hgoing (by simp [hexit]),
    fun hremoved => ?_⟩
  obtain ⟨heq, hopen⟩ := hfinished hremoved
  exact heq.trans (h.finished hopen)

theorem Tracked.expire (h : Tracked w) (a : Answer) (result : AttemptResult)
    (hopen : w.handler.point.removed = false) : Tracked (w.expire a result) :=
  h.of_exit (fun _ => ⟨by simp [World.expire], hopen⟩) rfl

theorem Tracked.evaluatePolicy (h : Tracked w) (a : Answer)
    (hpoint : w.handler.point = .evaluatePolicy) : Tracked (w.evaluatePolicy a) := by
  simp only [World.evaluatePolicy]
  split
  · exact h.of_exit (fun hopen => by simp [World.reject, Point.removed] at hopen) rfl
  · exact h.stay hpoint rfl rfl rfl rfl (by simp [Point.states])

theorem Tracked.admitContext (h : Tracked w) (a : Answer)
    (hpoint : w.handler.point = .admitContext) : Tracked (w.admitContext a) := by
  simp only [World.admitContext]
  generalize w.governance.admitWithContext a.clock a.requestCanceled a.reservationID
    { w.request.admission with upstream := w.handler.decision.targetID } = admitted
  split
  · exact h.stay hpoint rfl rfl rfl rfl (by simp [Point.states])
  · split
    · exact h.of_exit (fun hopen => by simp [World.reject, Point.removed] at hopen) rfl
    · exact h.stay hpoint rfl rfl rfl rfl (by simp [Point.states])

theorem Tracked.startDownstream (h : Tracked w) (a : Answer)
    (hpoint : w.handler.point = .startDownstream) : Tracked (w.startDownstream a) := by
  simp only [World.startDownstream]
  split
  · exact h.stay hpoint rfl rfl rfl rfl (by simp [Point.states])
  · obtain ⟨ctx, heq⟩ := onDisconnect_cases { w with
      downstream := w.downstream.start, handler.started := a.now, handler.point := .acquire }
    rw [heq]
    exact h.stay hpoint rfl rfl rfl rfl (by simp [Point.states])

theorem Tracked.acquire (h : Tracked w) (a : Answer) (hpoint : w.handler.point = .acquire) :
    Tracked (w.acquire a) := by
  have hopen : w.handler.point.removed = false := by rw [hpoint]; rfl
  simp only [World.acquire]
  split
  · exact h.stay hpoint rfl rfl rfl rfl (by simp [Point.states])
  · exact h.of_exit (fun _ => ⟨rfl, hopen⟩) rfl
  · split
    · exact h.of_exit (fun _ => ⟨rfl, hopen⟩) rfl
    · exact h

theorem Tracked.pauseWait (h : Tracked w) (hpoint : w.handler.point = .pauseWait) :
    Tracked w.pauseWait := by
  have hgoing : w.handler.point.exiting = false := by rw [hpoint]; rfl
  simp only [World.pauseWait]
  split
  · split
    · exact h.of_exit (fun _ => ⟨rfl, by rw [hpoint]; rfl⟩) rfl
    · exact h
  · refine h.of_same rfl rfl rfl hgoing ?_
    dsimp
    split
    · simp [hpoint, Point.states]
    · simp [hpoint, Point.states]

theorem Tracked.retryGate (h : Tracked w) (a : Answer) (hpoint : w.handler.point = .retryGate) :
    Tracked (w.retryGate a) := by
  have hforwarding : Tracked (w.goto .forwarding) :=
    h.stay hpoint rfl rfl rfl rfl (by simp [Point.states])
  simp only [World.retryGate]
  split
  · exact hforwarding
  · split
    · split
      · exact h.of_exit (fun _ => ⟨rfl, by rw [hpoint]; rfl⟩) rfl
      · exact h
    · exact hforwarding
    · exact h

/-- An attempt leaves the request alone. -/
theorem Tracked.ahead (h : Tracked w) (hahead : w.Ahead w')
    (hcalling : w.handler.point.calling = true) : Tracked w' := by
  obtain ⟨governance, pool, log, route, reservation, point, rfl, hcalled⟩ := hahead
  have hgoing : w.handler.point.exiting = false := Point.going_of_calling hcalling
  have hstates : w.handler.point.states = [.forwarding] := Point.states_of_calling hcalling
  rcases Point.states_of_called hcalled with hexit | hsame
  · exact h.of_exit (fun _ => ⟨rfl, Point.open_of_going hgoing⟩) hexit
  · exact h.of_same rfl rfl rfl hgoing (by rw [hstates, hsame]; exact List.Subset.refl _)

theorem Tracked.deliver (h : Tracked w) (a : Answer) {result : AttemptResult}
    (hpoint : w.handler.point = .deliver result) : Tracked (w.deliver a result) := by
  have hopen : w.handler.point.removed = false := by rw [hpoint]; rfl
  simp only [World.deliver]
  split
  · split
    · exact h.stay hpoint rfl rfl rfl rfl (by simp [Point.states])
    · exact h.of_exit (fun _ => ⟨by simp, hopen⟩) rfl
  · exact h.stay hpoint rfl rfl rfl rfl (by simp [hpoint, Point.states])

theorem Tracked.classify (h : Tracked w) (a : Answer) {result : AttemptResult}
    (hpoint : w.handler.point = .classify result) : Tracked (w.classify a result) := by
  have hgoing : w.handler.point.exiting = false := by rw [hpoint]; rfl
  simp only [World.classify]
  split
  · refine h.of_move (Entry.state_updateMessage _ _ _ _ _ _) rfl rfl hgoing ?_
    simp [hpoint, Point.states, Entry.moveTo, validateTransition, transitions]
  · split
    · refine h.of_move (f := Entry.moveTo .uncertain) (by simp [Entry.state_updateMessage])
        (by simp) rfl hgoing ?_
      simp [hpoint, Point.states, Entry.moveTo, validateTransition, transitions]
    · exact h.stay hpoint rfl rfl rfl rfl (by simp [Point.states])

theorem Tracked.attemptFailed (h : Tracked w) (a : Answer) {result : AttemptResult}
    (hpoint : w.handler.point = .attemptFailed result) : Tracked (w.attemptFailed a result) := by
  simp only [World.attemptFailed]
  split
  · exact h.stay hpoint (by simp) (by simp) rfl rfl (by simp [Point.states])
  · exact h.of_exit (fun _ => ⟨by simp, by rw [hpoint]; rfl⟩) rfl

theorem Tracked.awaitRetry (h : Tracked w) (a : Answer) {result : AttemptResult}
    (hpoint : w.handler.point = .awaitRetry result) : Tracked (w.awaitRetry a result) := by
  simp only [World.awaitRetry]
  split
  · exact h.expire a result (by rw [hpoint]; rfl)
  · exact h.stay hpoint rfl rfl rfl rfl (by simp [Point.states])

theorem Tracked.activatePolicy (h : Tracked w) (a : Answer) {result : AttemptResult} {cfg : Config}
    (hpoint : w.handler.point = .activatePolicy result cfg) :
    Tracked (w.activatePolicy a result cfg) := by
  have halike := w.entry.activateRetryPolicy_alike a.now w.handler.attempt a.persisted
  simp only [World.activatePolicy]
  split
  · exact h.stay hpoint halike.state halike.finished rfl rfl (by simp [Point.states])
  · exact h.stay hpoint halike.state halike.finished rfl rfl (by simp [Point.states])

theorem Tracked.manualWait (h : Tracked w) (a : Answer) {result : AttemptResult} {cfg : Config}
    {policy : Option RetryPolicy} (hpoint : w.handler.point = .manualWait result cfg policy) :
    Tracked (w.manualWait a result cfg policy) := by
  simp only [World.manualWait]
  split
  · split
    · exact h.of_exit (fun _ => ⟨rfl, by rw [hpoint]; rfl⟩) rfl
    · exact h
  · split
    · exact h.stay hpoint rfl rfl rfl rfl (by simp [Point.states])
    · exact h
  · split
    · exact h.stay hpoint rfl rfl rfl rfl (by simp [Point.states])
    · exact h
  · exact h

theorem Tracked.schedule (h : Tracked w) (a : Answer) {result : AttemptResult} {cfg : Config}
    {policy : Option RetryPolicy} (hpoint : w.handler.point = .schedule result cfg policy) :
    Tracked (w.schedule a result cfg policy) := by
  have hgoing : w.handler.point.exiting = false := by rw [hpoint]; rfl
  have hopen : w.handler.point.removed = false := by rw [hpoint]; rfl
  simp only [World.schedule]
  split
  · split
    · exact h.expire a result hopen
    · refine h.of_move (f := Entry.moveTo .waiting) (by simp [wait, Entry.state_updateMessage])
        (by simp [wait]) rfl hgoing ?_
      simp [hpoint, Point.states, wait, Entry.moveTo, validateTransition, transitions]
  · split
    · exact h.expire a result hopen
    · exact h.of_exit (fun _ => ⟨by simp, hopen⟩) rfl
    · exact h.of_exit (fun _ => ⟨rfl, hopen⟩) rfl

theorem Tracked.retryWait (h : Tracked w) (a : Answer) {result : AttemptResult} {ready : Int}
    (hpoint : w.handler.point = .retryWait result ready) : Tracked (w.retryWait a result ready) := by
  simp only [World.retryWait]
  split
  · split
    · exact h.of_exit (fun _ => ⟨rfl, by rw [hpoint]; rfl⟩) rfl
    · exact h
  · split
    · exact h.stay hpoint rfl rfl rfl rfl (by simp [Point.states])
    · exact h
  · split
    · exact h.stay hpoint rfl rfl rfl rfl (by simp [Point.states])
    · exact h
  · split
    · exact h.stay hpoint rfl rfl rfl rfl (by simp [Point.states])
    · exact h

theorem Tracked.checkDeadline (h : Tracked w) (a : Answer) {result : AttemptResult}
    {resumeReason : String} (hpoint : w.handler.point = .checkDeadline result resumeReason) :
    Tracked (w.checkDeadline a result resumeReason) := by
  simp only [World.checkDeadline]
  split
  · exact h.expire a result (by rw [hpoint]; rfl)
  · exact h.stay hpoint rfl rfl rfl rfl (by simp [Point.states])

theorem Tracked.reacquire (h : Tracked w) (a : Answer) {resumeReason : String}
    (hpoint : w.handler.point = .reacquire resumeReason) : Tracked (w.reacquire a resumeReason) := by
  have hopen : w.handler.point.removed = false := by rw [hpoint]; rfl
  simp only [World.reacquire]
  split
  · exact h.stay hpoint (by simp) (by simp) rfl rfl (by simp [Point.states])
  · exact h.of_exit (fun _ => ⟨rfl, hopen⟩) rfl
  · split
    · exact h.of_exit (fun _ => ⟨rfl, hopen⟩) rfl
    · exact h

theorem Tracked.finish (h : Tracked w) (a : Answer) (hpoint : w.handler.point = .finish) :
    Tracked (w.finish a) := by
  have hopen : w.handler.point.removed = false := by rw [hpoint]; rfl
  simp only [World.finish]
  split
  · exact h.of_exit (fun _ => ⟨rfl, hopen⟩) rfl
  · exact h.of_exit (fun _ => ⟨rfl, hopen⟩) rfl
  · split
    · split
      · exact h.of_exit (fun _ => ⟨by simp, hopen⟩) rfl
      · exact h.of_exit (fun _ => ⟨by simp, hopen⟩) rfl
    · exact h.of_exit (fun _ => ⟨rfl, hopen⟩) rfl

theorem Tracked.handle (h : Tracked w) (a : Answer) : Tracked (w.handle a) := by
  by_cases hcalling : w.handler.point.calling = true
  · exact h.ahead (w.handle_ahead a hcalling) hcalling
  simp only [World.handle]
  cases hpoint : w.handler.point with
  | evaluatePolicy => exact h.evaluatePolicy a hpoint
  | admitContext => exact h.admitContext a hpoint
  | startDownstream => exact h.startDownstream a hpoint
  | acquire => exact h.acquire a hpoint
  | loop => exact h.of_same rfl rfl rfl (by rw [hpoint]; rfl) (by simp [hpoint, Point.states, loop])
  | pauseWait => exact h.pauseWait hpoint
  | retryGate => exact h.retryGate a hpoint
  | forwarding =>
      refine h.of_move (Entry.state_updateMessage _ _ _ _ _ _) rfl rfl (by rw [hpoint]; rfl) ?_
      simp [hpoint, Point.states, forwarding, Entry.moveTo, validateTransition, transitions]
  | attemptStarted =>
      simp only [attemptStarted]
      split
      · exact h.of_same (by simp) (by simp) rfl (by rw [hpoint]; rfl) (by simp [hpoint, Point.states])
      · exact h.of_exit (fun _ => ⟨by simp, by rw [hpoint]; rfl⟩) rfl
  | buffering result =>
      refine h.of_move (Entry.state_updateMessage _ _ _ _ _ _) rfl rfl (by rw [hpoint]; rfl) ?_
      simp [hpoint, Point.states, buffering, Entry.moveTo, validateTransition, transitions]
  | delivering result =>
      refine h.of_move (Entry.state_updateMessage _ _ _ _ _ _) rfl rfl (by rw [hpoint]; rfl) ?_
      simp [hpoint, Point.states, delivering, Entry.moveTo, validateTransition, transitions]
  | deliver result => exact h.deliver a hpoint
  | completed => exact h.of_exit (fun _ => ⟨by simp [completed], by rw [hpoint]; rfl⟩) rfl
  | classify result => exact h.classify a hpoint
  | attemptFailed result => exact h.attemptFailed a hpoint
  | awaitRetry result => exact h.awaitRetry a hpoint
  | activatePolicy result cfg => exact h.activatePolicy a hpoint
  | holdUncertain result cfg policy =>
      refine h.of_move (f := Entry.moveTo .uncertain)
        (by simp [holdUncertain, Entry.state_updateMessage]) (by simp [holdUncertain]) rfl
        (by rw [hpoint]; rfl) ?_
      simp [hpoint, Point.states, holdUncertain, Entry.moveTo, validateTransition, transitions]
  | manualWait result cfg policy => exact h.manualWait a hpoint
  | schedule result cfg policy => exact h.schedule a hpoint
  | retryWait result ready => exact h.retryWait a hpoint
  | checkDeadline result resumeReason => exact h.checkDeadline a hpoint
  | reacquire resumeReason => exact h.reacquire a hpoint
  | fail message =>
      simp only [fail]
      split
      · exact h.of_exit (fun _ => ⟨rfl, by rw [hpoint]; rfl⟩) rfl
      · exact h.of_exit (fun _ => ⟨rfl, by rw [hpoint]; rfl⟩) (by rw [hpoint]; rfl)
  | stopHeartbeat =>
      simp only [stopHeartbeat]
      split
      · exact h.of_exit (fun _ => ⟨rfl, by rw [hpoint]; rfl⟩) rfl
      · exact h.of_exit (fun _ => ⟨rfl, by rw [hpoint]; rfl⟩) (by rw [hpoint]; rfl)
  | finish => exact h.finish a hpoint
  | remove => exact h.of_exit (fun hopen => by simp [World.remove, Point.removed] at hopen) rfl
  | releaseDeferred =>
      simp only [releaseDeferred]
      split
      · exact h.of_exit (fun hopen => by simp [Point.removed] at hopen) rfl
      · exact h.of_exit (fun hopen => by simp [Point.removed] at hopen) rfl
  | returned => exact h
  | select | bindUpstream _ | beginAttempt _ | refused _ _ | exchange _ | settle _ | judge _
  | releaseReservation _ => simp [hpoint, Point.calling] at hcalling

theorem Tracked.outside (h : Tracked w) {event : Event} (hout : w.Outside w' event)
    (haloof : w.Aloof w' event) : Tracked w' := by
  refine ⟨fun hgoing => ?_, fun hgoing => ?_, fun hopen => ?_⟩
  · rw [hout.handler] at hgoing ⊢
    exact haloof.state ▸ h.state hgoing
  · rw [hout.handler] at hgoing ⊢
    exact h.outcome hgoing
  · rw [hout.handler] at hopen
    exact haloof.finished.trans (h.finished hopen)

theorem Tracked.step (h : Tracked w) (event : Event) : Tracked (w.step event) := by
  by_cases hevent : ∃ answer, event = .handler answer
  · obtain ⟨answer, rfl⟩ := hevent
    exact h.handle answer
  · have hother : ∀ answer, event ≠ .handler answer := fun answer heq => hevent ⟨answer, heq⟩
    exact h.outside (w.step_outside event hother) (w.step_aloof event hother)

theorem tracked_start (request : Request) (config : Config) (governance : Governance.Manager)
    (pool : Upstream.Pool) : Tracked (start request config governance pool) where
  state _ := ⟨.queued, by simp [start, Point.states], rfl⟩
  outcome _ := rfl
  finished _ := rfl

end World

/-! ## The moves -/

/-- The state a point moves the request to. -/
def Point.moves : Point → Option State
  | .forwarding => some .forwarding
  | .buffering _ => some .buffering
  | .delivering _ => some .delivering
  | .completed => some .completed
  | .classify result => some (if result.response.isSome then .buffering else .uncertain)
  | .holdUncertain _ _ _ => some .uncertain
  | .schedule _ _ _ => some .waiting
  | _ => none

namespace World

/-- What a step of the handler makes of the request's state: nothing, the move
of its point, or the end. -/
theorem handle_state (w : World) (a : Answer) :
    (w.handle a).entry.state = w.entry.state ∨
      (∃ status ∈ w.handler.point.moves,
        (w.handle a).entry.state = w.entry.state.map (Entry.moveTo status)) ∨
      (w.handle a).entry.state = none := by
  by_cases hcalling : w.handler.point.calling = true
  · obtain ⟨governance, pool, log, route, reservation, point, heq, -⟩ := w.handle_ahead a hcalling
    exact .inl (by rw [heq])
  simp only [handle]
  cases hpoint : w.handler.point with
  | evaluatePolicy =>
      simp only [evaluatePolicy]
      split
      · exact (w.entry.state_remove .rejected a.persisted).imp_right .inr
      · exact .inl rfl
  | admitContext =>
      simp only [admitContext]
      split
      · exact .inl rfl
      · split
        · exact (w.entry.state_remove .rejected a.persisted).imp_right .inr
        · exact .inl rfl
  | startDownstream =>
      simp only [startDownstream]
      split
      · exact .inl rfl
      · obtain ⟨ctx, heq⟩ := onDisconnect_cases { w with
          downstream := w.downstream.start, handler.started := a.now, handler.point := .acquire }
        rw [heq]
        exact .inl rfl
  | forwarding => exact .inr (.inl ⟨_, rfl, Entry.state_updateMessage _ _ _ _ _ _⟩)
  | attemptStarted =>
      simp only [attemptStarted]
      split <;> exact .inl (by simp)
  | buffering result => exact .inr (.inl ⟨_, rfl, Entry.state_updateMessage _ _ _ _ _ _⟩)
  | delivering result => exact .inr (.inl ⟨_, rfl, Entry.state_updateMessage _ _ _ _ _ _⟩)
  | completed =>
      exact .inr (.inl ⟨_, rfl, by simp [completed, Entry.state_updateMessage]⟩)
  | classify result =>
      simp only [classify]
      split
      · rename_i hresponse
        exact .inr (.inl ⟨_, rfl, by simp [hresponse, Entry.state_updateMessage]⟩)
      · rename_i hresponse
        split
        · exact .inr (.inl ⟨_, rfl, by simp [hresponse, Entry.state_updateMessage]⟩)
        · exact .inl rfl
  | holdUncertain result cfg policy =>
      exact .inr (.inl ⟨_, rfl, by simp [holdUncertain, Entry.state_updateMessage]⟩)
  | schedule result cfg policy =>
      simp only [schedule]
      split
      · split
        · exact .inl (by simp [expire])
        · exact .inr (.inl ⟨_, rfl, by simp [wait, Entry.state_updateMessage]⟩)
      · split
        · exact .inl (by simp [expire])
        · exact .inl (by simp)
        · exact .inl rfl
  | remove => exact (w.entry.state_remove w.handler.outcome a.persisted).imp_right .inr
  | acquire =>
      refine .inl ?_
      simp only [acquire]
      split <;> try split
      all_goals rfl
  | pauseWait =>
      refine .inl ?_
      simp only [pauseWait]
      split <;> try split
      all_goals rfl
  | retryGate =>
      refine .inl ?_
      simp only [retryGate]
      split
      · rfl
      · split <;> try split
        all_goals rfl
  | deliver result =>
      refine .inl ?_
      simp only [deliver]
      split <;> try split
      all_goals simp
  | attemptFailed result =>
      refine .inl ?_
      simp only [attemptFailed]
      split <;> simp
  | awaitRetry result =>
      refine .inl ?_
      simp only [awaitRetry]
      split
      · simp [expire]
      · rfl
  | activatePolicy result cfg =>
      have halike := w.entry.activateRetryPolicy_alike a.now w.handler.attempt a.persisted
      refine .inl ?_
      simp only [activatePolicy]
      split <;> exact halike.state
  | manualWait result cfg policy =>
      refine .inl ?_
      simp only [manualWait]
      split <;> try split
      all_goals rfl
  | retryWait result ready =>
      refine .inl ?_
      simp only [retryWait]
      split <;> split
      all_goals rfl
  | checkDeadline result resumeReason =>
      refine .inl ?_
      simp only [checkDeadline]
      split
      · simp [expire]
      · rfl
  | reacquire resumeReason =>
      refine .inl ?_
      simp only [reacquire]
      split
      · simp
      · rfl
      · split <;> rfl
  | fail message =>
      refine .inl ?_
      simp only [fail]
      split <;> rfl
  | stopHeartbeat =>
      refine .inl ?_
      simp only [stopHeartbeat]
      split <;> rfl
  | finish =>
      refine .inl ?_
      simp only [finish]
      split
      · rfl
      · rfl
      · split
        · split <;> simp
        · rfl
  | releaseDeferred => exact .inl (by simp only [releaseDeferred]; split <;> rfl)
  | loop | returned => exact .inl rfl
  | select | bindUpstream _ | beginAttempt _ | refused _ _ | exchange _ | settle _ | judge _
  | releaseReservation _ => simp [hpoint, Point.calling] at hcalling

end World

end RelayLifeline.Proxy
