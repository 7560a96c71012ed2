import RelayLifeline.Proxy.Gateway

/-!
# Where the handler goes next

The points of the handler's program and the ways between them, read off the
steps once. What holds of a result between two points, and which points a run
can still reach, then follows from the ways alone.
-/

namespace RelayLifeline.Proxy

open Lib Lifecycle Registry Upstream

/-- A point that touches only the entry. -/
def Point.quiet : Point → Bool
  | .acquire | .pauseWait | .retryGate | .forwarding | .buffering _ | .delivering _ | .completed
  | .attemptFailed _ | .awaitRetry _ | .activatePolicy _ _ | .holdUncertain _ _ _
  | .manualWait _ _ _ | .schedule _ _ _ | .retryWait _ _ | .checkDeadline _ _ | .finish
  | .returned => true
  | _ => false

/-- The points of an attempt that is under way, from its selection to the
judgement on its result. -/
def Point.attempting : Point → Bool
  | .select | .bindUpstream _ | .beginAttempt _ | .refused _ _ | .exchange _ | .settle _ | .judge _
  | .releaseReservation _ | .classify _ => true
  | _ => false

theorem Point.not_attempting_of_quiet {point : Point} (h : point.quiet = true) :
    point.attempting = false := by
  cases point <;> first | rfl | exact absurd h (by simp [Point.quiet])

/-- The points of an attempt that call the pool or the governance manager, and
the judgement that follows. -/
def Point.calling : Point → Bool
  | .select | .bindUpstream _ | .beginAttempt _ | .refused _ _ | .exchange _ | .settle _ | .judge _
  | .releaseReservation _ => true
  | _ => false

/-- Where those points lead. -/
def Point.called : Point → Bool
  | .fail _ | .stopHeartbeat | .buffering _ | .classify _ => true
  | point => point.calling

/-- The points from which the handler only returns. -/
def Point.exiting : Point → Bool
  | .fail _ | .stopHeartbeat | .finish | .remove | .releaseDeferred | .returned => true
  | _ => false

/-- The points a point leads to in one step. The result a point carries is the
one the step before it carried, and it is drawn up at an exchange or where no
target could be selected. -/
inductive Point.Leads : Point → Point → Prop
  | allowed : Leads .evaluatePolicy .admitContext
  | denied : Leads .evaluatePolicy .returned
  | admitted : Leads .admitContext .startDownstream
  | rejected : Leads .admitContext .returned
  | started : Leads .startDownstream .acquire
  | granted : Leads .acquire .loop
  | queueFull : Leads .acquire (.fail queueFull)
  | canceled : Leads .acquire .stopHeartbeat
  | configured : Leads .loop .pauseWait
  | pauseCanceled : Leads .pauseWait .stopHeartbeat
  | spaced : Leads .pauseWait .retryGate
  | running : Leads .pauseWait .forwarding
  | gateCanceled : Leads .retryGate .stopHeartbeat
  | gateOpen : Leads .retryGate .forwarding
  | forwarding : Leads .forwarding .attemptStarted
  | recorded : Leads .attemptStarted .select
  | unrecorded : Leads .attemptStarted (.fail persistenceUnavailable)
  | unselected (err : SelectError) (targetID targetDomain : String) (wrote : Bool) :
      Leads .select (.settle (unselectedResult err targetID targetDomain wrote))
  | selected (lease : Nat) : Leads .select (.bindUpstream lease)
  | bound (lease : Nat) : Leads (.bindUpstream lease) (.exchange lease)
  | rebound (lease : Nat) : Leads (.bindUpstream lease) (.beginAttempt lease)
  | unbound (lease : Nat) (reason : Message) : Leads (.bindUpstream lease) (.refused lease reason)
  | begun (lease : Nat) : Leads (.beginAttempt lease) (.exchange lease)
  | unbegun (lease : Nat) (reason : Message) : Leads (.beginAttempt lease) (.refused lease reason)
  | refused (lease : Nat) (reason : Message) : Leads (.refused lease reason) (.fail reason)
  | exchanged (lease : Nat) (target : Target) (exchange : Exchange) :
      Leads (.exchange lease) (.settle (runAttemptForTarget target exchange))
  | settled (result : AttemptResult) : Leads (.settle result) (.judge result)
  | unsettled (result : AttemptResult) : Leads (.settle result) (.fail persistenceUnavailable)
  | abandoned (result : AttemptResult) : Leads (.judge result) .stopHeartbeat
  | success (result : AttemptResult) (h : result.validation.success = true) :
      Leads (.judge result) (.releaseReservation result)
  | failure (result : AttemptResult) (h : result.validation.success = false) :
      Leads (.judge result) (.classify result)
  | released (result : AttemptResult) : Leads (.releaseReservation result) (.buffering result)
  | unreleased (result : AttemptResult) :
      Leads (.releaseReservation result) (.fail persistenceUnavailable)
  | buffered (result : AttemptResult) : Leads (.buffering result) (.delivering result)
  | delivering (result : AttemptResult) : Leads (.delivering result) (.deliver result)
  | delivered (result : AttemptResult) : Leads (.deliver result) .completed
  | undelivered (result : AttemptResult) : Leads (.deliver result) .stopHeartbeat
  | completed : Leads .completed .stopHeartbeat
  | classified (result : AttemptResult) : Leads (.classify result) (.attemptFailed result)
  | failed (result : AttemptResult) : Leads (.attemptFailed result) (.awaitRetry result)
  | unfailed (result : AttemptResult) :
      Leads (.attemptFailed result) (.fail persistenceUnavailable)
  | elapsed (result : AttemptResult) : Leads (.awaitRetry result) (.fail (describeAttempt result))
  | awaited (result : AttemptResult) (cfg : Config) :
      Leads (.awaitRetry result) (.activatePolicy result cfg)
  | held (result : AttemptResult) (cfg : Config) (policy : Option RetryPolicy)
      (h : result.undelivered = true) :
      Leads (.activatePolicy result cfg) (.holdUncertain result cfg policy)
  | activated (result : AttemptResult) (cfg : Config) (policy : Option RetryPolicy) :
      Leads (.activatePolicy result cfg) (.schedule result cfg policy)
  | parked (result : AttemptResult) (cfg : Config) (policy : Option RetryPolicy) :
      Leads (.holdUncertain result cfg policy) (.manualWait result cfg policy)
  | parkCanceled (result : AttemptResult) (cfg : Config) (policy : Option RetryPolicy) :
      Leads (.manualWait result cfg policy) .stopHeartbeat
  | resumed (result : AttemptResult) (cfg : Config) (policy : Option RetryPolicy) :
      Leads (.manualWait result cfg policy) (.schedule result cfg policy)
  | parkChanged (result : AttemptResult) (cfg : Config) (policy : Option RetryPolicy) :
      Leads (.manualWait result cfg policy) (.awaitRetry result)
  | waiting (result : AttemptResult) (cfg : Config) (policy : Option RetryPolicy) (ready : Int) :
      Leads (.schedule result cfg policy) (.retryWait result ready)
  | stopped (result : AttemptResult) (cfg : Config) (policy : Option RetryPolicy) :
      Leads (.schedule result cfg policy) (.fail (describeAttempt result))
  | waitCanceled (result : AttemptResult) (ready : Int) :
      Leads (.retryWait result ready) .stopHeartbeat
  | woken (result : AttemptResult) (ready : Int) (resumeReason : String) :
      Leads (.retryWait result ready) (.checkDeadline result resumeReason)
  | waitChanged (result : AttemptResult) (ready : Int) :
      Leads (.retryWait result ready) (.awaitRetry result)
  | overdue (result : AttemptResult) (resumeReason : String) :
      Leads (.checkDeadline result resumeReason) (.fail (describeAttempt result))
  | due (result : AttemptResult) (resumeReason : String) :
      Leads (.checkDeadline result resumeReason) (.reacquire resumeReason)
  | again (resumeReason : String) : Leads (.reacquire resumeReason) .loop
  | requeueFull (resumeReason : String) : Leads (.reacquire resumeReason) (.fail queueFull)
  | answered (message : Message) : Leads (.fail message) .stopHeartbeat
  | quiet : Leads .stopHeartbeat .finish
  | finished : Leads .finish .remove
  | removed : Leads .remove .releaseDeferred
  | returned : Leads .releaseDeferred .returned

/-- No quiet point leads into an attempt; `attemptStarted` stands before it. -/
theorem Point.Leads.attempting {point point' : Point} (h : point.Leads point')
    (hquiet : point.quiet = true) : point'.attempting = false := by
  cases h <;> first | rfl | exact absurd hquiet (by simp [Point.quiet])

/-- A handler on its way out stays on it. -/
theorem Point.Leads.exiting {point point' : Point} (h : point.Leads point')
    (hexit : point.exiting = true) : point'.exiting = true := by
  cases h <;> first | rfl | exact absurd hexit (by simp [Point.exiting])

namespace World

attribute [simp] goto note cancel update record

/-! ## The ways an attempt takes -/

/-- Governance sends an attempt on or refuses it. -/
theorem governed_cases (w : World) (lease : Nat) (decision : Governance.Decision)
    (error : Option Governance.Error) :
    ∃ point, w.governed lease decision error = w.goto point ∧
      (point = .exchange lease ∨ ∃ reason, point = .refused lease reason) := by
  simp only [governed]
  split
  · exact ⟨_, rfl, .inl rfl⟩
  · split
    · exact ⟨_, rfl, .inr ⟨_, rfl⟩⟩
    · exact ⟨_, rfl, .inl rfl⟩

theorem bindUpstream_cases (w : World) (a : Answer) (lease : Nat) :
    ∃ governance log point, w.bindUpstream a lease =
        { w with governance := governance, log := log, handler.point := point } ∧
      (log = w.log ∨ log = w.log ++ [.begun w.handler.attempt]) ∧
      (point = .exchange lease ∨ point = .beginAttempt lease ∨
        ∃ reason, point = .refused lease reason) := by
  simp only [bindUpstream]
  split
  · exact ⟨_, _, _, rfl, .inl rfl, .inl rfl⟩
  · rename_i id _
    split
    · generalize w.governance.bindUpstreamWithDecision a.clock id (w.target lease).id = bound
      obtain ⟨point, heq, hpoint⟩ :=
        governed_cases { w with governance := bound.1 } lease bound.2.1 bound.2.2
      exact ⟨_, _, _, heq, .inl rfl, hpoint.imp_right .inr⟩
    · generalize (w.note (.begun w.handler.attempt)).governance.bindUpstreamWithDecision a.clock id
        ((w.note (.begun w.handler.attempt)).target lease).id = bound
      split
      · exact ⟨_, _, _, rfl, .inr rfl, .inr (.inl rfl)⟩
      · split
        · exact ⟨_, _, _, rfl, .inr rfl, .inr (.inl rfl)⟩
        · rename_i error _
          obtain ⟨point, heq, hpoint⟩ :=
            governed_cases { w.note (.begun w.handler.attempt) with governance := bound.1 } lease
              { allowed := false, reason := some .upstream } (some error)
          exact ⟨_, _, _, heq, .inr rfl, hpoint.imp_right .inr⟩

theorem beginAttempt_cases (w : World) (a : Answer) (lease : Nat) :
    ∃ governance point, w.beginAttempt a lease =
        { w with governance := governance, handler.point := point } ∧
      (point = .exchange lease ∨ ∃ reason, point = .refused lease reason) := by
  simp only [beginAttempt]
  split
  · exact ⟨_, _, rfl, .inl rfl⟩
  · rename_i id _
    generalize w.governance.begin a.clock id (trimSpace (attemptName w.handler.attempt)) = begun
    obtain ⟨point, heq, hpoint⟩ :=
      governed_cases { w with governance := begun.1 } lease begun.2.1 begun.2.2
    exact ⟨_, _, heq, hpoint⟩

/-- A settlement calls `Record` or not, and ends the request where that fails in
enforce mode. -/
theorem settle_cases (w : World) (a : Answer) (result : AttemptResult) :
    ∃ governance log point, w.settle a result =
        { w with governance := governance, log := log, handler.point := point } ∧
      (log = w.log ∨
        result.accountable = true ∧ log = w.log ++ [.recorded w.handler.attempt result.usage]) ∧
      (point = .judge result ∨ point = .fail persistenceUnavailable ∧
        w.handler.cfg.enforcing = true ∧ ∃ id, w.handler.reservation = some id ∧
          (w.governance.record a.clock id (attemptName w.handler.attempt)
            result.usage).2.2.isSome) := by
  simp only [settle]
  split
  · exact ⟨_, _, _, rfl, .inl rfl, .inl rfl⟩
  · rename_i id hid
    split
    · rename_i haccountable
      generalize hrecorded :
        w.governance.record a.clock id (attemptName w.handler.attempt) result.usage = recorded
      split
      · rename_i hfails
        simp only [note, Bool.and_eq_true] at hfails
        exact ⟨_, _, _, rfl, .inr ⟨haccountable, rfl⟩,
          .inr ⟨rfl, hfails.2, id, hid, by rw [hrecorded]; exact hfails.1⟩⟩
      · exact ⟨_, _, _, rfl, .inr ⟨haccountable, rfl⟩, .inl rfl⟩
    · exact ⟨_, _, _, rfl, .inl rfl, .inl rfl⟩

theorem onDisconnect_cases (w : World) :
    ∃ ctx, w.onDisconnect = { w with clientDisconnected := true, ctx := ctx } := by
  simp only [onDisconnect]
  split
  · exact ⟨_, rfl⟩
  · exact ⟨_, rfl⟩

/-! ## One step -/

theorem handle_leads (w : World) (a : Answer) :
    (w.handle a).handler.point = w.handler.point ∨
      w.handler.point.Leads (w.handle a).handler.point := by
  simp only [handle]
  cases hpoint : w.handler.point with
  | evaluatePolicy =>
      simp only [evaluatePolicy]
      split
      · exact .inr .denied
      · exact .inr .allowed
  | admitContext =>
      simp only [admitContext]
      generalize w.governance.admitWithContext a.clock a.requestCanceled a.reservationID
        { w.request.admission with upstream := w.handler.decision.targetID } = admitted
      split
      · exact .inr .admitted
      · split
        · exact .inr .rejected
        · exact .inr .admitted
  | startDownstream =>
      simp only [startDownstream]
      split
      · exact .inr .started
      · obtain ⟨ctx, heq⟩ := onDisconnect_cases { w with
          downstream := w.downstream.start, handler.started := a.now, handler.point := .acquire }
        rw [heq]
        exact .inr .started
  | acquire =>
      simp only [acquire]
      split
      · exact .inr .granted
      · exact .inr .queueFull
      · split
        · exact .inr .canceled
        · exact .inl hpoint
  | loop => exact .inr .configured
  | pauseWait =>
      simp only [pauseWait]
      split
      · split
        · exact .inr .pauseCanceled
        · exact .inl hpoint
      · split
        · exact .inr .spaced
        · exact .inr .running
  | retryGate =>
      simp only [retryGate]
      split
      · exact .inr .gateOpen
      · split
        · split
          · exact .inr .gateCanceled
          · exact .inl hpoint
        · exact .inr .gateOpen
        · exact .inl hpoint
  | forwarding => exact .inr .forwarding
  | attemptStarted =>
      simp only [attemptStarted]
      split
      · exact .inr .recorded
      · exact .inr .unrecorded
  | select =>
      simp only [select]
      split
      · exact .inr (.unselected _ _ _ _)
      · exact .inr (.selected _)
  | bindUpstream lease =>
      obtain ⟨governance, log, point, heq, -, hto⟩ := w.bindUpstream_cases a lease
      simp only [heq]
      rcases hto with rfl | rfl | ⟨reason, rfl⟩
      · exact .inr (.bound lease)
      · exact .inr (.rebound lease)
      · exact .inr (.unbound lease reason)
  | beginAttempt lease =>
      obtain ⟨governance, point, heq, hto⟩ := w.beginAttempt_cases a lease
      simp only [heq]
      rcases hto with rfl | ⟨reason, rfl⟩
      · exact .inr (.begun lease)
      · exact .inr (.unbegun lease reason)
  | refused lease reason => exact .inr (.refused lease reason)
  | exchange lease => exact .inr (.exchanged lease _ _)
  | settle result =>
      obtain ⟨governance, log, point, heq, -, hto⟩ := w.settle_cases a result
      simp only [heq]
      rcases hto with rfl | ⟨rfl, -⟩
      · exact .inr (.settled result)
      · exact .inr (.unsettled result)
  | judge result =>
      simp only [judge]
      split
      · exact .inr (.abandoned result)
      · split
        · exact .inr (.success result ‹_›)
        · rename_i hfailed
          exact .inr (.failure result (by simpa using hfailed))
  | releaseReservation result =>
      simp only [releaseReservation]
      split
      · exact .inr (.released result)
      · split
        · exact .inr (.unreleased result)
        · exact .inr (.released result)
  | buffering result => exact .inr (.buffered result)
  | delivering result => exact .inr (.delivering result)
  | deliver result =>
      simp only [deliver]
      split
      · split
        · exact .inr (.delivered result)
        · exact .inr (.undelivered result)
      · exact .inl hpoint
  | completed => exact .inr .completed
  | classify result =>
      simp only [classify]
      split
      · exact .inr (.classified result)
      · split
        · exact .inr (.classified result)
        · exact .inr (.classified result)
  | attemptFailed result =>
      simp only [attemptFailed]
      split
      · exact .inr (.failed result)
      · exact .inr (.unfailed result)
  | awaitRetry result =>
      simp only [awaitRetry]
      split
      · exact .inr (.elapsed result)
      · exact .inr (.awaited result _)
  | activatePolicy result cfg =>
      simp only [activatePolicy]
      split
      · rename_i hlost
        simp only [uncertainResult, Bool.and_eq_true] at hlost
        exact .inr (.held result cfg _ hlost.1.1.1)
      · exact .inr (.activated result cfg _)
  | holdUncertain result cfg policy => exact .inr (.parked result cfg policy)
  | manualWait result cfg policy =>
      simp only [manualWait]
      split
      · split
        · exact .inr (.parkCanceled result cfg policy)
        · exact .inl hpoint
      · split
        · exact .inr (.resumed result cfg policy)
        · exact .inl hpoint
      · split
        · exact .inr (.parkChanged result cfg policy)
        · exact .inl hpoint
      · exact .inl hpoint
  | schedule result cfg policy =>
      simp only [schedule]
      split
      · split
        · exact .inr (.stopped result cfg policy)
        · exact .inr (.waiting result cfg policy _)
      · split
        · exact .inr (.stopped result cfg policy)
        · exact .inr (.stopped result cfg policy)
        · exact .inr (.stopped result cfg policy)
  | retryWait result ready =>
      simp only [retryWait]
      split
      · split
        · exact .inr (.waitCanceled result ready)
        · exact .inl hpoint
      · split
        · exact .inr (.woken result ready _)
        · exact .inl hpoint
      · split
        · exact .inr (.waitChanged result ready)
        · exact .inl hpoint
      · split
        · exact .inr (.woken result ready _)
        · exact .inl hpoint
  | checkDeadline result resumeReason =>
      simp only [checkDeadline]
      split
      · exact .inr (.overdue result resumeReason)
      · exact .inr (.due result resumeReason)
  | reacquire resumeReason =>
      simp only [reacquire]
      split
      · exact .inr (.again resumeReason)
      · exact .inr (.requeueFull resumeReason)
      · split
        · exact .inr (.requeueFull resumeReason)
        · exact .inl hpoint
  | fail message =>
      simp only [fail]
      split
      · exact .inr (.answered message)
      · exact .inl hpoint
  | stopHeartbeat =>
      simp only [stopHeartbeat]
      split
      · exact .inr .quiet
      · exact .inl hpoint
  | finish =>
      simp only [finish]
      split
      · exact .inr .finished
      · exact .inr .finished
      · split
        · split
          · exact .inr .finished
          · exact .inr .finished
        · exact .inr .finished
  | remove => exact .inr .removed
  | releaseDeferred =>
      simp only [releaseDeferred]
      split
      · exact .inr .returned
      · exact .inr .returned
  | returned => exact .inl hpoint
theorem handle_attempting (w : World) (a : Answer) (h : w.handler.point.quiet = true) :
    (w.handle a).handler.point.attempting = false := by
  rcases w.handle_leads a with heq | hleads
  · rw [heq]
    exact Point.not_attempting_of_quiet h
  · exact hleads.attempting h

theorem handle_exiting (w : World) (a : Answer) (h : w.handler.point.exiting = true) :
    (w.handle a).handler.point.exiting = true := by
  rcases w.handle_leads a with heq | hleads
  · rw [heq]
    exact h
  · exact hleads.exiting h

end World

end RelayLifeline.Proxy
