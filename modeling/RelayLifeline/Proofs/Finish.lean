import RelayLifeline.Proofs.States

/-!
# No request stays behind

A handler that returns hands its outcome to the registry, and the registry
takes the request out only where its table lists the move. The handler computes
the outcome without a look at the state it leaves behind, so the two have to be
matched at every exit.

They do not match at two places. A request that waits for its retry is refused
its slot with `rejected`, which no waiting request may become; and a request an
operator has resolved for good may be moved on to waiting before the call that
cancels it gets through. In a run that keeps clear of both, no request stays.
-/

namespace RelayLifeline.Registry

/-- The operator has closed the request. -/
def Resolution.final : Resolution → Bool
  | .abandon | .confirmSuccess => true
  | .requestCompensation => false

end RelayLifeline.Registry

namespace RelayLifeline.Proxy

open Lib Lifecycle Registry

/-- The journal takes what the event writes. -/
def Event.persisted : Event → Bool
  | .handler answer => answer.persisted
  | .sendRetry persisted | .applyRetryPolicy _ _ _ _ persisted | .clearRetryPolicy persisted
  | .resolveUncertain _ _ persisted | .cancelChecked persisted => persisted
  | _ => true

namespace World

/-- The retry rules let the request wait for its next attempt. -/
def schedules (w : World) (a : Answer) (result : AttemptResult) (cfg : Config)
    (policy : Option RetryPolicy) : Bool :=
  let stop := retryPolicyStop a.now cfg result w.handler.attempt policy
  (stop = .none || w.overridden cfg result stop) &&
    (Proxy.retryWait a.now a.random cfg w.handler.started w.handler.attempt result.response
      policy).isSome

/-- A step that keeps clear of both places: a request that waited gets its slot
back, and none that an operator has closed is put to wait. -/
def keepsClear (w : World) : Event → Bool
  | .handler a =>
      match w.handler.point with
      | .reacquire _ => a.acquired = .granted
      | .schedule result cfg policy =>
          !w.schedules a result cfg policy || w.entry.resolution.all fun resolution =>
            !resolution.final
      | _ => true
  | _ => true

/-! ## The outcome and the state -/

/-- An exit with this outcome can be made good from this state. -/
def Leaves (w : World) (status : State) : Prop :=
  match w.handler.point with
  | .remove => validateTransition status w.handler.outcome
  | _ =>
      w.handler.outcome = .successful ∧ status = .completed ∨
      w.handler.outcome = .rejected ∧ status = .queued ∨
      (w.handler.outcome = .failed ∨ w.handler.outcome = .expired) ∧
        (status ∈ [.forwarding, .buffering, .uncertain, .waiting, .delivering] ∨
          status = .queued ∧ (w.ctx.isSome ∨ w.clientDisconnected))

/-- The way out a handler is on can be made good, and no request that an
operator has closed has moved on. -/
structure Removable (w : World) : Prop where
  leaving : w.handler.point.exiting = true → w.handler.point.removed = false →
    ∃ status, w.entry.state = some status ∧ w.Leaves status
  resolved : ∀ resolution ∈ w.entry.resolution, resolution.final = true →
    w.entry.state = some .uncertain
  removed : w.handler.point.removed = true →
    w.entry.state = none ∧ w.entry.timeline.finished = some w.handler.outcome

variable {w w' : World}

theorem leaves_of_failed {status : State} (hpoint : w.handler.point ≠ .remove)
    (houtcome : w.handler.outcome = .failed ∨ w.handler.outcome = .expired)
    (hstatus : status ∈ [.forwarding, .buffering, .uncertain, .waiting, .delivering] ∨
      status = .queued ∧ (w.ctx.isSome ∨ w.clientDisconnected)) : w.Leaves status := by
  simp only [Leaves]
  exact .inr (.inr ⟨houtcome, hstatus⟩)

/-- A request that is lost to its client stays so. -/
theorem Leaves.mono {status : State} (h : w.Leaves status) (hhandler : w'.handler = w.handler)
    (hgone : w.ctx.isSome ∨ w.clientDisconnected → w'.ctx.isSome ∨ w'.clientDisconnected) :
    w'.Leaves status := by
  by_cases hpoint : w.handler.point = .remove
  · simpa only [Leaves, hhandler, hpoint] using h
  · simp only [Leaves, hhandler] at h ⊢
    exact h.imp_right fun h => h.imp_right fun h =>
      ⟨h.1, h.2.imp_right fun hqueued => ⟨hqueued.1, hgone hqueued.2⟩⟩

/-- As long as the handler goes on, only the resolution matters. -/
theorem Removable.of_going (hgoing : w.handler.point.exiting = false)
    (hresolved : ∀ resolution ∈ w.entry.resolution, resolution.final = true →
      w.entry.state = some .uncertain) : Removable w where
  leaving hexit := absurd hexit (by simp [hgoing])
  resolved := hresolved
  removed hremoved := absurd (Point.exiting_of_removed hremoved) (by simp [hgoing])

/-- An exit that has not yet reached the registry. -/
theorem Removable.of_leaving (hopen : w.handler.point.removed = false) {status : State}
    (hstate : w.entry.state = some status) (hleaves : w.Leaves status)
    (hresolved : ∀ resolution ∈ w.entry.resolution, resolution.final = true →
      w.entry.state = some .uncertain) : Removable w where
  leaving _ _ := ⟨status, hstate, hleaves⟩
  resolved := hresolved
  removed hremoved := absurd hremoved (by simp [hopen])

theorem Removable.resolved_of_same (h : Removable w) (hstate : w'.entry.state = w.entry.state)
    (hresolution : w'.entry.resolution = w.entry.resolution) :
    ∀ resolution ∈ w'.entry.resolution, resolution.final = true →
      w'.entry.state = some .uncertain := by
  intro resolution hin hfinal
  exact hstate.trans (h.resolved resolution (hresolution ▸ hin) hfinal)

/-- Where the request cannot be uncertain, nobody has closed it. -/
theorem Removable.not_final (h : Removable w) (ht : Tracked w)
    (hgoing : w.handler.point.exiting = false) (hstates : .uncertain ∉ w.handler.point.states) :
    ∀ resolution ∈ w.entry.resolution, resolution.final = false := by
  intro resolution hin
  by_contra hfinal
  obtain ⟨status, hstatus, hstate⟩ := ht.state hgoing
  have := h.resolved resolution hin (by simpa using hfinal)
  rw [hstate, Option.some.injEq] at this
  exact hstates (this ▸ hstatus)

/-- A step that goes on and leaves the request's state alone. -/
theorem Removable.of_same (h : Removable w) (hgoing : w'.handler.point.exiting = false)
    (hstate : w'.entry.state = w.entry.state)
    (hresolution : w'.entry.resolution = w.entry.resolution) : Removable w' :=
  .of_going hgoing (h.resolved_of_same hstate hresolution)

/-- A step that moves a request nobody has closed. -/
theorem Removable.of_move (hgoing : w'.handler.point.exiting = false)
    (hopen : ∀ resolution ∈ w.entry.resolution, resolution.final = false)
    (hresolution : ∀ resolution ∈ w'.entry.resolution, resolution ∈ w.entry.resolution) :
    Removable w' :=
  .of_going hgoing fun resolution hin hfinal =>
    absurd (hopen resolution (hresolution resolution hin)) (by simp [hfinal])

/-- A failure on the way leaves the loop from a state that may fail. -/
theorem Removable.of_failure (h : Removable w) (ht : Tracked w)
    (hgoing : w.handler.point.exiting = false) (hstate : w'.entry.state = w.entry.state)
    (hresolution : w'.entry.resolution = w.entry.resolution)
    (hopen : w'.handler.point.removed = false) (hpoint : w'.handler.point ≠ .remove)
    (houtcome : w'.handler.outcome = w.handler.outcome ∨ w'.handler.outcome = .expired)
    (hstates : ∀ status ∈ w.handler.point.states,
      status ∈ [.forwarding, .buffering, .uncertain, .waiting, .delivering] ∨
        status = .queued ∧ (w'.ctx.isSome ∨ w'.clientDisconnected)) : Removable w' := by
  obtain ⟨status, hin, hstatus⟩ := ht.state hgoing
  refine .of_leaving hopen (hstate.trans hstatus) (leaves_of_failed hpoint ?_
    (hstates status hin)) (h.resolved_of_same hstate hresolution)
  rcases houtcome with houtcome | houtcome
  · exact .inl (houtcome.trans (ht.outcome hgoing))
  · exact .inr houtcome

/-! ## A step of the handler -/

/-- The request is turned away before anything was started. -/
theorem Tracked.reject (ht : Tracked w) (a : Answer) (status : Nat) (text : String)
    (hpersisted : a.persisted = true) (hgoing : w.handler.point.exiting = false)
    (hstates : w.handler.point.states = [.queued]) : Removable (w.reject a status text) := by
  obtain ⟨source, hin, hstate⟩ := ht.state hgoing
  obtain rfl : source = .queued := by simpa [hstates] using hin
  obtain ⟨hnone, hfinished, hresolution⟩ := Entry.remove_persisted hstate
    (show validateTransition .queued .rejected from by decide)
    (ht.finished (Point.open_of_going hgoing))
  simp only [World.reject, hpersisted]
  exact ⟨fun _ hremoved => by simp [Point.removed] at hremoved,
    fun resolution hin => by simp [hresolution] at hin, fun _ => ⟨hnone, hfinished⟩⟩

theorem Removable.evaluatePolicy (h : Removable w) (ht : Tracked w) (a : Answer)
    (hpersisted : a.persisted = true) (hpoint : w.handler.point = .evaluatePolicy) :
    Removable (w.evaluatePolicy a) := by
  simp only [World.evaluatePolicy]
  split
  · exact ht.reject a _ _ hpersisted (by rw [hpoint]; rfl) (by rw [hpoint]; rfl)
  · exact h.of_same rfl rfl rfl

theorem Removable.admitContext (h : Removable w) (ht : Tracked w) (a : Answer)
    (hpersisted : a.persisted = true) (hpoint : w.handler.point = .admitContext) :
    Removable (w.admitContext a) := by
  simp only [World.admitContext]
  generalize w.governance.admitWithContext a.clock a.requestCanceled a.reservationID
    { w.request.admission with upstream := w.handler.decision.targetID } = admitted
  split
  · exact h.of_same rfl rfl rfl
  · split
    · have ht' : Tracked { w with governance := admitted.1 } := ⟨ht.state, ht.outcome, ht.finished⟩
      exact ht'.reject a _ _ hpersisted (by rw [hpoint]; rfl) (by rw [hpoint]; rfl)
    · exact h.of_same rfl rfl rfl

theorem Removable.startDownstream (h : Removable w) (a : Answer) :
    Removable (w.startDownstream a) := by
  simp only [World.startDownstream]
  split
  · exact h.of_same rfl rfl rfl
  · obtain ⟨ctx, heq⟩ := onDisconnect_cases { w with
      downstream := w.downstream.start, handler.started := a.now, handler.point := .acquire }
    rw [heq]
    exact h.of_same rfl rfl rfl

/-- The first slot: a full queue refuses the request while it is queued. -/
theorem Removable.acquire (h : Removable w) (ht : Tracked w) (a : Answer)
    (hpoint : w.handler.point = .acquire) : Removable (w.acquire a) := by
  have hgoing : w.handler.point.exiting = false := by rw [hpoint]; rfl
  simp only [World.acquire]
  split
  · exact h.of_same rfl rfl rfl
  · obtain ⟨source, hin, hstate⟩ := ht.state hgoing
    obtain rfl : source = .queued := by simpa [hpoint, Point.states] using hin
    exact .of_leaving rfl hstate (.inr (.inl ⟨rfl, rfl⟩)) (h.resolved_of_same rfl rfl)
  · split
    · rename_i hdone
      exact h.of_failure ht hgoing rfl rfl rfl (by simp) (.inl rfl)
        (by simp [hpoint, Point.states, hdone])
    · exact h

theorem Removable.pauseWait (h : Removable w) (ht : Tracked w)
    (hpoint : w.handler.point = .pauseWait) : Removable w.pauseWait := by
  simp only [World.pauseWait]
  split
  · split
    · rename_i hdone
      exact h.of_failure ht (by rw [hpoint]; rfl) rfl rfl rfl (by simp) (.inl rfl)
        (by simp [hpoint, Point.states, hdone])
    · exact h
  · refine h.of_same ?_ rfl rfl
    dsimp
    split <;> rfl

theorem Removable.retryGate (h : Removable w) (ht : Tracked w) (a : Answer)
    (hpoint : w.handler.point = .retryGate) : Removable (w.retryGate a) := by
  simp only [World.retryGate]
  split
  · exact h.of_same rfl rfl rfl
  · split
    · split
      · rename_i hdone
        exact h.of_failure ht (by rw [hpoint]; rfl) rfl rfl rfl (by simp) (.inl rfl)
          (by simp [hpoint, Point.states, hdone])
      · exact h
    · exact h.of_same rfl rfl rfl
    · exact h

theorem Removable.ahead (h : Removable w) (ht : Tracked w) (hahead : w.Ahead w')
    (hcalling : w.handler.point.calling = true) : Removable w' := by
  obtain ⟨governance, pool, log, route, reservation, point, rfl, hcalled⟩ := hahead
  by_cases hexit : point.exiting = true
  · refine h.of_failure ht (Point.going_of_calling hcalling) rfl rfl ?_ ?_ (.inl rfl) ?_
    · cases point <;> first | rfl | exact absurd hcalled (by simp [Point.called, Point.calling])
    · intro heq
      subst heq
      exact absurd hcalled (by simp [Point.called, Point.calling])
    · simp [Point.states_of_calling hcalling]
  · exact h.of_same (by simpa using hexit) rfl rfl

theorem Removable.expire (h : Removable w) (ht : Tracked w) (a : Answer) (result : AttemptResult)
    (hgoing : w.handler.point.exiting = false)
    (hstates : ∀ status ∈ w.handler.point.states,
      status ∈ [.forwarding, .buffering, .uncertain, .waiting, .delivering]) :
    Removable (w.expire a result) :=
  h.of_failure ht hgoing (by simp [World.expire]) (by simp [World.expire]) rfl
    (by simp [World.expire]) (.inr rfl) fun status hin => .inl (hstates status hin)

theorem Removable.deliver (h : Removable w) (ht : Tracked w) (a : Answer) {result : AttemptResult}
    (hpoint : w.handler.point = .deliver result) : Removable (w.deliver a result) := by
  have hgoing : w.handler.point.exiting = false := by rw [hpoint]; rfl
  simp only [World.deliver]
  split
  · split
    · exact h.of_same rfl rfl rfl
    · exact h.of_failure ht hgoing (by simp) (by simp) rfl (by simp) (.inl rfl)
        (by simp [hpoint, Point.states])
  · exact h.of_same hgoing rfl rfl

/-- A successful response: the one exit that succeeds. -/
theorem Removable.completed (h : Removable w) (ht : Tracked w) (a : Answer)
    (hpoint : w.handler.point = .completed) : Removable (w.completed a) := by
  have hgoing : w.handler.point.exiting = false := by rw [hpoint]; rfl
  obtain ⟨source, hin, hstate⟩ := ht.state hgoing
  obtain rfl : source = .delivering := by simpa [hpoint, Point.states] using hin
  refine @Removable.of_leaving _ rfl .completed ?_ (.inl ⟨rfl, rfl⟩) fun resolution hres hfinal => ?_
  · simp [World.completed, Entry.state_updateMessage, hstate, Entry.moveTo, validateTransition,
      transitions]
  · have := h.not_final ht hgoing (by simp [hpoint, Point.states]) resolution
      (Entry.mem_resolution_updateMessage (by simpa [World.completed] using hres))
    simp [hfinal] at this

theorem Removable.classify (h : Removable w) (ht : Tracked w) (a : Answer)
    {result : AttemptResult} (hpoint : w.handler.point = .classify result) :
    Removable (w.classify a result) := by
  have hopen := h.not_final ht (by rw [hpoint]; rfl) (by simp [hpoint, Point.states])
  simp only [World.classify]
  split
  · exact .of_move rfl hopen fun resolution hin => Entry.mem_resolution_updateMessage hin
  · split
    · refine .of_move rfl hopen fun resolution hin => ?_
      exact Entry.mem_resolution_updateMessage (by simpa using hin)
    · exact h.of_same rfl rfl rfl

theorem Removable.attemptFailed (h : Removable w) (ht : Tracked w) (a : Answer)
    {result : AttemptResult} (hpoint : w.handler.point = .attemptFailed result) :
    Removable (w.attemptFailed a result) := by
  simp only [World.attemptFailed]
  split
  · exact h.of_same rfl (by simp) (by simp)
  · exact h.of_failure ht (by rw [hpoint]; rfl) (by simp) (by simp) rfl (by simp) (.inl rfl)
      (by simp [hpoint, Point.states])

theorem Removable.awaitRetry (h : Removable w) (ht : Tracked w) (a : Answer)
    {result : AttemptResult} (hpoint : w.handler.point = .awaitRetry result) :
    Removable (w.awaitRetry a result) := by
  simp only [World.awaitRetry]
  split
  · exact h.expire ht a result (by rw [hpoint]; rfl) (by simp [hpoint, Point.states])
  · exact h.of_same rfl rfl rfl

theorem Removable.activatePolicy (h : Removable w) (a : Answer) (result : AttemptResult)
    (cfg : Config) : Removable (w.activatePolicy a result cfg) := by
  have halike := w.entry.activateRetryPolicy_alike a.now w.handler.attempt a.persisted
  simp only [World.activatePolicy]
  split
  · exact h.of_same rfl halike.state halike.resolution
  · exact h.of_same rfl halike.state halike.resolution

/-- A closed request that is held back stays uncertain. -/
theorem Removable.holdUncertain (h : Removable w) (a : Answer) (result : AttemptResult)
    (cfg : Config) (policy : Option RetryPolicy) :
    Removable (w.holdUncertain a result cfg policy) := by
  refine .of_going rfl fun resolution hin hfinal => ?_
  have hin := Entry.mem_resolution_updateMessage
    (show resolution ∈ (w.entry.updateMessage a.now .uncertain w.handler.attempt
      (describeAttempt result).id 0).resolution by simpa [World.holdUncertain] using hin)
  simp [World.holdUncertain, Entry.state_updateMessage, h.resolved resolution hin hfinal,
    Entry.moveTo, validateTransition, transitions]

theorem Removable.manualWait (h : Removable w) (ht : Tracked w) (a : Answer)
    {result : AttemptResult} {cfg : Config} {policy : Option RetryPolicy}
    (hpoint : w.handler.point = .manualWait result cfg policy) :
    Removable (w.manualWait a result cfg policy) := by
  simp only [World.manualWait]
  split
  · split
    · exact h.of_failure ht (by rw [hpoint]; rfl) rfl rfl rfl (by simp) (.inl rfl)
        (by simp [hpoint, Point.states])
    · exact h
  · split
    · exact h.of_same rfl rfl rfl
    · exact h
  · split
    · exact h.of_same rfl rfl rfl
    · exact h
  · exact h

theorem Removable.schedule (h : Removable w) (ht : Tracked w) (a : Answer)
    {result : AttemptResult} {cfg : Config} {policy : Option RetryPolicy}
    (hpoint : w.handler.point = .schedule result cfg policy)
    (hclear : w.schedules a result cfg policy →
      ∀ resolution ∈ w.entry.resolution, resolution.final = false) :
    Removable (w.schedule a result cfg policy) := by
  have hgoing : w.handler.point.exiting = false := by rw [hpoint]; rfl
  have hfailing : ∀ status ∈ w.handler.point.states,
      status ∈ [.forwarding, .buffering, .uncertain, .waiting, .delivering] := by
    simp [hpoint, Point.states]
  simp only [World.schedule]
  split
  · rename_i hgo
    split
    · exact h.expire ht a result hgoing hfailing
    · rename_i delay hdelay
      refine .of_move rfl (hclear (by simp only [schedules, hdelay]; simpa using hgo))
        fun resolution hin => ?_
      exact Entry.mem_resolution_updateMessage (by simpa [wait] using hin)
  · split
    · exact h.expire ht a result hgoing hfailing
    · exact h.of_failure ht hgoing (by simp) (by simp) rfl (by simp) (.inl rfl)
        fun status hin => .inl (hfailing status hin)
    · exact h.of_failure ht hgoing rfl rfl rfl (by simp) (.inl rfl)
        fun status hin => .inl (hfailing status hin)

theorem Removable.retryWait (h : Removable w) (ht : Tracked w) (a : Answer)
    {result : AttemptResult} {ready : Int} (hpoint : w.handler.point = .retryWait result ready) :
    Removable (w.retryWait a result ready) := by
  simp only [World.retryWait]
  split
  · split
    · exact h.of_failure ht (by rw [hpoint]; rfl) rfl rfl rfl (by simp) (.inl rfl)
        (by simp [hpoint, Point.states])
    · exact h
  · split
    · exact h.of_same rfl rfl rfl
    · exact h
  · split
    · exact h.of_same rfl rfl rfl
    · exact h
  · split
    · exact h.of_same rfl rfl rfl
    · exact h

theorem Removable.checkDeadline (h : Removable w) (ht : Tracked w) (a : Answer)
    {result : AttemptResult} {resumeReason : String}
    (hpoint : w.handler.point = .checkDeadline result resumeReason) :
    Removable (w.checkDeadline a result resumeReason) := by
  simp only [World.checkDeadline]
  split
  · exact h.expire ht a result (by rw [hpoint]; rfl) (by simp [hpoint, Point.states])
  · exact h.of_same rfl rfl rfl

theorem Removable.reacquire (h : Removable w) (a : Answer) (resumeReason : String)
    (hgranted : a.acquired = .granted) : Removable (w.reacquire a resumeReason) := by
  simp only [World.reacquire, hgranted]
  exact h.of_same rfl (by simp) (by simp)

/-! ## The ways out -/

/-- On the way out the point may change, as long as it is not yet `remove`. -/
theorem Removable.of_exit (h : Removable w) (hexit : w.handler.point.exiting = true)
    (hopen : w.handler.point.removed = false) (hfrom : w.handler.point ≠ .remove)
    (hto : w'.handler.point ≠ .remove) (hopen' : w'.handler.point.removed = false)
    (hentry : w'.entry = w.entry) (houtcome : w'.handler.outcome = w.handler.outcome)
    (hctx : w'.ctx = w.ctx) (hdisconnected : w'.clientDisconnected = w.clientDisconnected) :
    Removable w' := by
  obtain ⟨status, hstate, hleaves⟩ := h.leaving hexit hopen
  refine .of_leaving hopen' (hentry ▸ hstate) ?_ (hentry ▸ h.resolved)
  simp only [Leaves] at hleaves ⊢
  rw [houtcome, hctx, hdisconnected]
  exact hleaves

/-- Where an attempt fails, the request may fail, expire or be cancelled. -/
theorem validateTransition_of_failing :
    ∀ status ∈ [State.forwarding, .buffering, .uncertain, .waiting, .delivering],
      validateTransition status .failed ∧ validateTransition status .expired ∧
        validateTransition status .canceled := by
  decide

/-- The outcome computed at the end is one the state may go to. -/
theorem Removable.finish (h : Removable w) (a : Answer) (hpoint : w.handler.point = .finish) :
    Removable (w.finish a) := by
  obtain ⟨status, hstate, hleaves⟩ := h.leaving (by rw [hpoint]; rfl) (by rw [hpoint]; rfl)
  have hclosed : ∀ resolution ∈ w.entry.resolution, resolution.final = true →
      status = .uncertain := by
    intro resolution hin hfinal
    exact Option.some.inj (hstate.symm.trans (h.resolved resolution hin hfinal))
  simp only [World.finish]
  split
  · rename_i hresolution
    obtain rfl := hclosed .confirmSuccess hresolution rfl
    exact .of_leaving rfl hstate (show validateTransition .uncertain .confirmedSuccess from by decide)
      h.resolved
  · rename_i hresolution
    obtain rfl := hclosed .abandon hresolution rfl
    exact .of_leaving rfl hstate (show validateTransition .uncertain .abandoned from by decide)
      h.resolved
  · simp only [Leaves, hpoint] at hleaves
    split
    · rename_i hgone
      have hends : validateTransition status .expired ∧ validateTransition status .canceled := by
        rcases hleaves with ⟨heq, -⟩ | ⟨heq, -⟩ | ⟨-, hin | ⟨rfl, -⟩⟩
        · exact absurd heq hgone.1
        · exact absurd heq hgone.2.1
        · exact (validateTransition_of_failing status hin).2
        · decide
      split
      · exact .of_leaving rfl (by simpa using hstate) hends.1
          (h.resolved_of_same (by simp) (by simp))
      · exact .of_leaving rfl (by simpa using hstate) hends.2
          (h.resolved_of_same (by simp) (by simp))
    · rename_i hgoes
      refine .of_leaving rfl hstate ?_ h.resolved
      show validateTransition status w.handler.outcome
      rcases hleaves with ⟨houtcome, rfl⟩ | ⟨houtcome, rfl⟩ | ⟨houtcome, hstatus⟩
      · rw [houtcome]
        decide
      · rw [houtcome]
        decide
      · have hin : status ∈ [.forwarding, .buffering, .uncertain, .waiting, .delivering] := by
          refine hstatus.resolve_right fun hqueued => hgoes ⟨?_, ?_, hqueued.2⟩
          · rcases houtcome with heq | heq <;> simp [heq]
          · rcases houtcome with heq | heq <;> simp [heq]
        obtain ⟨hfailed, hexpired, -⟩ := validateTransition_of_failing status hin
        rcases houtcome with heq | heq
        · exact heq ▸ hfailed
        · exact heq ▸ hexpired

theorem Removable.remove (h : Removable w) (ht : Tracked w) (a : Answer)
    (hpersisted : a.persisted = true) (hpoint : w.handler.point = .remove) :
    Removable (w.remove a) := by
  obtain ⟨status, hstate, hleaves⟩ := h.leaving (by rw [hpoint]; rfl) (by rw [hpoint]; rfl)
  obtain ⟨hnone, hfinished, hresolution⟩ := Entry.remove_persisted hstate
    (by simpa [Leaves, hpoint] using hleaves) (ht.finished (by rw [hpoint]; rfl))
  simp only [World.remove, hpersisted]
  exact ⟨fun _ hremoved => by simp [Point.removed] at hremoved,
    fun resolution hin => by simp [hresolution] at hin, fun _ => ⟨hnone, hfinished⟩⟩

/-- After the removal nothing is left to do. -/
theorem Removable.of_removed (h : Removable w) (hremoved : w.handler.point.removed = true)
    (hto : w'.handler.point.removed = true) (hentry : w'.entry = w.entry)
    (houtcome : w'.handler.outcome = w.handler.outcome) : Removable w' where
  leaving _ hopen := absurd hto (by simp [hopen])
  resolved := hentry ▸ h.resolved
  removed _ := hentry ▸ houtcome ▸ h.removed hremoved

theorem Removable.handle (h : Removable w) (ht : Tracked w) (a : Answer)
    (hpersisted : a.persisted = true) (hclear : w.keepsClear (.handler a) = true) :
    Removable (w.handle a) := by
  by_cases hcalling : w.handler.point.calling = true
  · exact h.ahead ht (w.handle_ahead a hcalling) hcalling
  simp only [keepsClear] at hclear
  simp only [World.handle]
  cases hpoint : w.handler.point with
  | evaluatePolicy => exact h.evaluatePolicy ht a hpersisted hpoint
  | admitContext => exact h.admitContext ht a hpersisted hpoint
  | startDownstream => exact h.startDownstream a
  | acquire => exact h.acquire ht a hpoint
  | loop => exact h.of_same rfl rfl rfl
  | pauseWait => exact h.pauseWait ht hpoint
  | retryGate => exact h.retryGate ht a hpoint
  | forwarding =>
      exact .of_move rfl (h.not_final ht (by rw [hpoint]; rfl) (by simp [hpoint, Point.states]))
        fun resolution hin => Entry.mem_resolution_updateMessage hin
  | attemptStarted =>
      simp only [attemptStarted]
      split
      · exact h.of_same rfl (by simp) (by simp)
      · exact h.of_failure ht (by rw [hpoint]; rfl) (by simp) (by simp) rfl (by simp) (.inl rfl)
          (by simp [hpoint, Point.states])
  | buffering result =>
      exact .of_move rfl (h.not_final ht (by rw [hpoint]; rfl) (by simp [hpoint, Point.states]))
        fun resolution hin => Entry.mem_resolution_updateMessage hin
  | delivering result =>
      exact .of_move rfl (h.not_final ht (by rw [hpoint]; rfl) (by simp [hpoint, Point.states]))
        fun resolution hin => Entry.mem_resolution_updateMessage hin
  | deliver result => exact h.deliver ht a hpoint
  | completed => exact h.completed ht a hpoint
  | classify result => exact h.classify ht a hpoint
  | attemptFailed result => exact h.attemptFailed ht a hpoint
  | awaitRetry result => exact h.awaitRetry ht a hpoint
  | activatePolicy result cfg => exact h.activatePolicy a result cfg
  | holdUncertain result cfg policy => exact h.holdUncertain a result cfg policy
  | manualWait result cfg policy => exact h.manualWait ht a hpoint
  | schedule result cfg policy => exact h.schedule ht a hpoint (by
      intro hgoes
      simpa [hpoint, hgoes, Option.all_eq_true] using hclear)
  | retryWait result ready => exact h.retryWait ht a hpoint
  | checkDeadline result resumeReason => exact h.checkDeadline ht a hpoint
  | reacquire resumeReason => exact h.reacquire a resumeReason (by simpa [hpoint] using hclear)
  | fail message =>
      simp only [fail]
      split
      · exact h.of_exit (by rw [hpoint]; rfl) (by rw [hpoint]; rfl) (by simp [hpoint]) (by simp) rfl
          rfl rfl rfl rfl
      · exact h.of_exit (by rw [hpoint]; rfl) (by rw [hpoint]; rfl) (by simp [hpoint])
          (by simp [hpoint]) (by rw [hpoint]; rfl) rfl rfl rfl rfl
  | stopHeartbeat =>
      simp only [stopHeartbeat]
      split
      · exact h.of_exit (by rw [hpoint]; rfl) (by rw [hpoint]; rfl) (by simp [hpoint]) (by simp) rfl
          rfl rfl rfl rfl
      · exact h.of_exit (by rw [hpoint]; rfl) (by rw [hpoint]; rfl) (by simp [hpoint])
          (by simp [hpoint]) (by rw [hpoint]; rfl) rfl rfl rfl rfl
  | finish => exact h.finish a hpoint
  | remove => exact h.remove ht a hpersisted hpoint
  | releaseDeferred =>
      simp only [releaseDeferred]
      split
      · exact h.of_removed (by rw [hpoint]; rfl) rfl rfl rfl
      · exact h.of_removed (by rw [hpoint]; rfl) rfl rfl rfl
  | returned => exact h
  | select | bindUpstream _ | beginAttempt _ | refused _ _ | exchange _ | settle _ | judge _
  | releaseReservation _ => simp [hpoint, Point.calling] at hcalling

/-! ## Runs -/

theorem Removable.outside (h : Removable w) {event : Event} (hout : w.Outside w' event)
    (haloof : w.Aloof w' event) : Removable w' := by
  refine ⟨fun hexit hopen => ?_, fun resolution hin hfinal => ?_, fun hremoved => ?_⟩
  · rw [hout.handler] at hexit hopen
    obtain ⟨status, hstate, hleaves⟩ := h.leaving hexit hopen
    refine ⟨status, haloof.state.trans hstate, hleaves.mono hout.handler fun hgone => ?_⟩
    rcases hgone with hdone | hdisconnected
    · exact .inl (by rw [haloof.ctx hdone]; exact hdone)
    · exact .inr (haloof.disconnected hdisconnected)
  · rcases haloof.resolution with ⟨hsame, -⟩ | ⟨-, -, -, -, hstate, -, -, -⟩
    · exact haloof.state.trans (h.resolved resolution (hsame ▸ hin) hfinal)
    · exact haloof.state.trans hstate
  · rw [hout.handler] at hremoved ⊢
    obtain ⟨hnone, hfinished⟩ := h.removed hremoved
    exact ⟨haloof.state.trans hnone, haloof.finished.trans hfinished⟩

theorem Removable.step (h : Removable w) (ht : Tracked w) {event : Event}
    (hpersisted : event.persisted = true) (hclear : w.keepsClear event = true) :
    Removable (w.step event) := by
  by_cases hevent : ∃ answer, event = .handler answer
  · obtain ⟨answer, rfl⟩ := hevent
    exact h.handle ht answer hpersisted hclear
  · have hother : ∀ answer, event ≠ .handler answer := fun answer heq => hevent ⟨answer, heq⟩
    exact h.outside (w.step_outside event hother) (w.step_aloof event hother)

theorem removable_start (request : Request) (config : Config) (governance : Governance.Manager)
    (pool : Upstream.Pool) : Removable (start request config governance pool) where
  leaving hexit := absurd hexit (by simp [start, Point.exiting])
  resolved resolution hin := by simp [start, Entry.resolution] at hin
  removed hremoved := absurd hremoved (by simp [start, Point.removed])

/-- **No ghost requests.** In a run that keeps clear of the two places, and whose
journal takes every write, a handler that has returned has left nothing in the
registry and finished the record with its outcome. -/
theorem removed_of_returned {request : Request} {config : Config}
    {governance : Governance.Manager} {pool : Upstream.Pool} {events : List Event}
    (hpersisted : ∀ event ∈ events, event.persisted = true)
    (hclear : Along step (fun w event => w.keepsClear event = true)
      (start request config governance pool) events)
    (hreturned :
      ((start request config governance pool).run events).handler.point = .returned) :
    ((start request config governance pool).run events).entry.request = none ∧
      ((start request config governance pool).run events).entry.timeline.finished =
        some ((start request config governance pool).run events).handler.outcome := by
  have hend := Along.invariant (P := fun w => Removable w ∧ Tracked w)
    (fun w event hw hc => ⟨hw.1.step hw.2 hc.1 hc.2, hw.2.step event⟩)
    ⟨removable_start request config governance pool, tracked_start request config governance pool⟩
    ((Along.of_forall hpersisted).and hclear)
  obtain ⟨hnone, hfinished⟩ := hend.1.removed (by rw [run] at hreturned; rw [hreturned]; rfl)
  exact ⟨Option.map_eq_none_iff.1 hnone, hfinished⟩

/-- An uncertain request is retried too. -/
def unheld : Config := { everySecond with lifecycle := { allowUncertainRetry := true } }

/-- A first attempt that fails to connect, and a second that is delivered. -/
def deliveredAtLast : List Event :=
  usual 18 ++ stepsAt second 11 ++
    [.handler
      { now := second, exchange := .answered true ⟨200, 0⟩ [123, 34, 97, 34, 58, 49, 125] { success := true } }] ++
    stepsAt second 6 ++ [.heartbeatQuit] ++ stepsAt second 6

theorem removed_deliveredAtLast :
    ((before {} unheld).run deliveredAtLast).entry.request = none ∧
      ((before {} unheld).run deliveredAtLast).entry.timeline.finished =
        some ((before {} unheld).run deliveredAtLast).handler.outcome :=
  removed_of_returned (by decide) (by decide +kernel) rfl

/-- An attempt fails to connect, and the queue is full when its retry is due. -/
def refusedAfterWait : List Event :=
  usual 18 ++ stepsAt second 2 ++
    [.handler { now := second, acquired := .queueFull }, .handler { now := second },
      .heartbeatQuit] ++ stepsAt second 5

/-- An operator confirms an uncertain request while it is put to wait, and the
call that cancels it comes after. -/
def confirmedBeforeWait : List Event :=
  usual 10 ++ [.handler { exchange := .failed true false }] ++ usual 3 ++
    [.resolveUncertain 0 .confirmSuccess true] ++ usual 4 ++
    [.sendCancel, .handler { wake := .context }, .handler {}, .heartbeatQuit] ++ usual 4

/-- In both runs the handler returns and the request stays, waiting for ever. -/
theorem not_removed_refusedAfterWait :
    (∀ event ∈ refusedAfterWait ++ confirmedBeforeWait, event.persisted = true) ∧
      ((before {} unheld).run refusedAfterWait).handler.point = .returned ∧
      ((before {} unheld).run refusedAfterWait).entry.state = some .waiting ∧
      ((before {} unheld).run refusedAfterWait).entry.timeline.finished = none ∧
      ((before {} unheld).run confirmedBeforeWait).handler.point = .returned ∧
      ((before {} unheld).run confirmedBeforeWait).entry.state = some .waiting ∧
      ((before {} unheld).run confirmedBeforeWait).entry.timeline.finished = none :=
  ⟨by decide, rfl, by decide +kernel, by decide +kernel, rfl, by decide +kernel,
    by decide +kernel⟩

end World

end RelayLifeline.Proxy
