import RelayLifeline.Proxy.Effects

/-!
# The retry window

A retry may be bounded twice: by the deadline of the request's own policy and by
`MaxElapsed` of the configuration. The loop looks at both windows before it
waits, and at the policy's once more after. From there on it looks at neither,
however long the slot, a pause and the spacing of retries take. So a retry
starts in its windows exactly when none of them closes behind the last look.
-/

namespace RelayLifeline.Proxy

open Lib Registry Upstream

/-- When the loop, or the operator who set the policy, last looked at each window. -/
structure Looks where
  policy : Int := 0
  elapsed : Int := 0

namespace World

/-! ## Windows and looks -/

/-- The end of the policy's window, where a policy is active. -/
def policyEnd (w : World) : Option Int :=
  (w.entry.retryPolicy.filter RetryPolicy.active).map RetryPolicy.deadline

/-- The end of the window the configuration sets. -/
def elapsedEnd (w : World) : Option Int :=
  if 0 < w.config.retry.maxElapsed then some (w.handler.started + w.config.retry.maxElapsed)
  else none

/-- The moment at which a retry begins with the event: the handler says that it
forwards an attempt after the first. -/
def retryBegins (w : World) : Event → Option Int
  | .handler a =>
      match w.handler.point with
      | .forwarding => if 1 < w.handler.attempt then some a.now else none
      | _ => none
  | _ => none

/-- A retry that begins with the event begins in its windows. -/
def Punctual (w : World) (event : Event) : Prop :=
  ∀ now ∈ w.retryBegins event, (∀ d ∈ w.policyEnd, now < d) ∧ ∀ d ∈ w.elapsedEnd, now < d

/-- `MaxElapsed` is looked at when the wait is settled, and the policy after the
wait. A policy that is set meanwhile counts from there. -/
def looked (w : World) (looks : Looks) : Event → Looks
  | .handler a =>
      match w.handler.point with
      | .schedule _ _ _ => { looks with elapsed := a.now }
      | .checkDeadline _ _ => { looks with policy := a.now }
      | _ => looks
  | .applyRetryPolicy now spec overwrite validate persisted =>
      if (w.entry.applyRetryPolicy now spec overwrite validate persisted).1.retryPolicy =
          w.entry.retryPolicy then looks
      else { looks with policy := now }
  | _ => looks

/-- The world together with the looks that were taken. -/
def watch (s : World × Looks) (event : Event) : World × Looks :=
  (s.1.step event, s.1.looked s.2 event)

/-- No window closes between the last look at it and the retry that begins. -/
def Unbroken (s : World × Looks) (event : Event) : Prop :=
  ∀ now ∈ s.1.retryBegins event,
    (∀ d ∈ s.1.policyEnd, ¬(s.2.policy < d ∧ d ≤ now)) ∧
      ∀ d ∈ s.1.elapsedEnd, ¬(s.2.elapsed < d ∧ d ≤ now)

instance (s : World × Looks) (event : Event) : Decidable (Unbroken s event) :=
  inferInstanceAs (Decidable (∀ now ∈ s.1.retryBegins event,
    (∀ d ∈ s.1.policyEnd, ¬(s.2.policy < d ∧ d ≤ now)) ∧
      ∀ d ∈ s.1.elapsedEnd, ¬(s.2.elapsed < d ∧ d ≤ now)))

/-- The configuration stays, and a policy is set for a positive time, as
`ApplyRetryPolicy` checks. -/
def Steady : Event → Prop
  | .configure _ => False
  | .applyRetryPolicy _ spec _ validate _ => validate = true ∨ 0 < spec.duration
  | _ => True

/-! ## What the looks saw -/

def PolicySeen (w : World) (looks : Looks) : Prop := ∀ d ∈ w.policyEnd, looks.policy < d

def ElapsedSeen (w : World) (looks : Looks) : Prop := ∀ d ∈ w.elapsedEnd, looks.elapsed < d

/-- What is known where the handler stands. Before the first attempt there is
nothing to retry. -/
def Seen (w : World) (looks : Looks) : Point → Prop
  | .evaluatePolicy | .admitContext | .startDownstream | .acquire => w.handler.attempt = 1
  | .activatePolicy _ cfg | .holdUncertain _ cfg _ | .manualWait _ cfg _ | .schedule _ cfg _ =>
      cfg = w.config
  | .retryWait _ _ | .checkDeadline _ _ => w.ElapsedSeen looks
  | .reacquire _ => w.PolicySeen looks ∧ w.ElapsedSeen looks
  | .loop | .pauseWait | .retryGate | .forwarding =>
      w.handler.attempt = 1 ∨ w.PolicySeen looks ∧ w.ElapsedSeen looks
  | _ => True

/-- The points of which nothing is known. -/
def plain : Point → Bool
  | .evaluatePolicy | .admitContext | .startDownstream | .acquire | .loop | .pauseWait
  | .retryGate | .forwarding | .awaitRetry _ | .activatePolicy _ _ | .holdUncertain _ _ _
  | .manualWait _ _ _ | .schedule _ _ _ | .retryWait _ _ | .checkDeadline _ _ | .reacquire _ =>
      false
  | _ => true

theorem seen_of_plain {point : Point} (h : plain point = true) (w : World) (looks : Looks) :
    w.Seen looks point := by
  cases point <;> trivial

/-- From an attempt the loop only comes back to `awaitRetry`. -/
theorem seen_of_leads {point point' : Point} (h : point.Leads point') (hplain : plain point = true)
    (w : World) (looks : Looks) : w.Seen looks point' := by
  cases h <;> first | exact Bool.noConfusion hplain | trivial

variable {w : World} {looks : Looks} {a : Answer}

theorem seen_evaluatePolicy (h : w.handler.attempt = 1) :
    (w.evaluatePolicy a).Seen looks (w.evaluatePolicy a).handler.point := by
  rw [evaluatePolicy]
  split
  · trivial
  · exact h

theorem seen_admitContext (h : w.handler.attempt = 1) :
    (w.admitContext a).Seen looks (w.admitContext a).handler.point := by
  rw [admitContext]
  extract_lets admitted w'
  split
  · exact h
  split
  · trivial
  · exact h

theorem seen_startDownstream (h : w.handler.attempt = 1) :
    (w.startDownstream a).Seen looks (w.startDownstream a).handler.point := by
  simp only [startDownstream]
  split
  · exact h
  · obtain ⟨ctx, heq⟩ := onDisconnect_cases { w with
      downstream := w.downstream.start, handler.started := a.now, handler.point := .acquire }
    rw [heq]
    exact h

theorem seen_acquire (hpoint : w.handler.point = .acquire) (h : w.handler.attempt = 1) :
    (w.acquire a).Seen looks (w.acquire a).handler.point := by
  rw [acquire]
  split
  · exact .inl h
  · trivial
  split
  · trivial
  · rw [hpoint]
    exact h

theorem seen_pauseWait (hpoint : w.handler.point = .pauseWait) (h : w.Seen looks .pauseWait) :
    w.pauseWait.Seen looks w.pauseWait.handler.point := by
  rw [pauseWait]
  split
  · split
    · trivial
    · rw [hpoint]
      exact h
  · split
    · exact h
    · exact h

theorem seen_retryGate (hpoint : w.handler.point = .retryGate) (h : w.Seen looks .retryGate) :
    (w.retryGate a).Seen looks (w.retryGate a).handler.point := by
  rw [retryGate]
  split
  · exact h
  split
  · split
    · trivial
    · rw [hpoint]
      exact h
  · exact h
  · rw [hpoint]
    exact h

theorem seen_awaitRetry_step (result : AttemptResult) :
    (w.awaitRetry a result).Seen looks (w.awaitRetry a result).handler.point := by
  rw [awaitRetry]
  split
  · trivial
  · rfl

theorem seen_activatePolicy (result : AttemptResult) :
    (w.activatePolicy a result w.config).Seen looks
      (w.activatePolicy a result w.config).handler.point := by
  rw [activatePolicy]
  split
  · rfl
  · rfl

theorem seen_manualWait {result : AttemptResult} {policy : Option RetryPolicy}
    (hpoint : w.handler.point = .manualWait result w.config policy) :
    (w.manualWait a result w.config policy).Seen looks
      (w.manualWait a result w.config policy).handler.point := by
  rw [manualWait]
  split
  · split
    · trivial
    · rw [hpoint]
      rfl
  · split
    · rfl
    · rw [hpoint]
      rfl
  · split
    · trivial
    · rw [hpoint]
      rfl
  · rw [hpoint]
    rfl

/-- A wait is settled only while `MaxElapsed` has not passed. -/
theorem remainingElapsed_of_retryWait {now : Int} {random : Nat} {cfg : Config} {started : Int}
    {attempt : Nat} {response : Option Response} {policy : Option RetryPolicy} {delay : Int}
    (h : Proxy.retryWait now random cfg started attempt response policy = some delay)
    (hmax : 0 < cfg.retry.maxElapsed) : now < started + cfg.retry.maxElapsed := by
  simp only [Proxy.retryWait, remainingElapsed, if_pos hmax] at h
  split at h
  · cases h
  · next heq => cases heq
  · next remaining _ heq =>
    cases heq
    split at h
    · cases h
    · omega

theorem seen_schedule {result : AttemptResult} {policy : Option RetryPolicy} :
    (w.schedule a result w.config policy).Seen { looks with elapsed := a.now }
      (w.schedule a result w.config policy).handler.point := by
  rw [schedule]
  split
  · split
    · trivial
    · next delay hwait =>
      intro d hd
      change d ∈ w.elapsedEnd at hd
      show a.now < d
      rw [elapsedEnd, Option.mem_def, Option.ite_none_right_eq_some, Option.some.injEq] at hd
      rw [← hd.2]
      exact remainingElapsed_of_retryWait hwait hd.1
  split
  · trivial
  · trivial
  · trivial

theorem seen_retryWait {result : AttemptResult} {ready : Int}
    (hpoint : w.handler.point = .retryWait result ready) (h : w.ElapsedSeen looks) :
    (w.retryWait a result ready).Seen looks (w.retryWait a result ready).handler.point := by
  rw [retryWait]
  split
  · split
    · trivial
    · rw [hpoint]
      exact h
  · split
    · exact h
    · rw [hpoint]
      exact h
  · split
    · trivial
    · rw [hpoint]
      exact h
  · split
    · exact h
    · rw [hpoint]
      exact h

theorem mem_policyEnd {d : Int} :
    d ∈ w.policyEnd ↔ ∃ policy ∈ w.entry.retryPolicy, policy.active = true ∧ policy.deadline = d := by
  simp only [policyEnd, Option.mem_def, Option.map_eq_some_iff, Option.filter_eq_some_iff,
    and_assoc]

theorem seen_checkDeadline {result : AttemptResult} {resumeReason : String}
    (h : w.ElapsedSeen looks) :
    (w.checkDeadline a result resumeReason).Seen { looks with policy := a.now }
      (w.checkDeadline a result resumeReason).handler.point := by
  rw [checkDeadline]
  split
  · trivial
  · next hopen =>
    refine ⟨fun d hd => ?_, h⟩
    obtain ⟨policy, hpolicy, hactive, rfl⟩ := mem_policyEnd.mp hd
    change policy ∈ w.entry.retryPolicy at hpolicy
    rw [Option.mem_def.mp hpolicy, Option.any_some, Bool.and_eq_true, decide_eq_true_eq] at hopen
    show a.now < policy.deadline
    by_contra hpast
    exact hopen ⟨hactive, Int.not_lt.mp hpast⟩

theorem seen_reacquire {resumeReason : String} (hpoint : w.handler.point = .reacquire resumeReason)
    (h : w.PolicySeen looks ∧ w.ElapsedSeen looks) :
    (w.reacquire a resumeReason).Seen looks (w.reacquire a resumeReason).handler.point := by
  rw [reacquire]
  split
  · refine .inr ⟨fun d hd => h.1 d ?_, h.2⟩
    rw [mem_policyEnd] at hd ⊢
    rwa [record, Entry.retryPolicy_recordEvent] at hd
  · trivial
  · split
    · trivial
    · rw [hpoint]
      exact h

/-- One step of the handler. -/
theorem seen_handle (h : w.Seen looks w.handler.point) :
    (w.handle a).Seen (w.looked looks (.handler a)) (w.handle a).handler.point := by
  have hrest (hplain : plain w.handler.point = true) :
      (w.handle a).Seen (w.looked looks (.handler a)) (w.handle a).handler.point := by
    rcases w.handle_leads a with heq | hleads
    · rw [heq]
      exact seen_of_plain hplain _ _
    · exact seen_of_leads hleads hplain _ _
  cases hpoint : w.handler.point with
  | evaluatePolicy =>
    simp only [handle, looked, hpoint] at h ⊢
    exact seen_evaluatePolicy h
  | admitContext =>
    simp only [handle, looked, hpoint] at h ⊢
    exact seen_admitContext h
  | startDownstream =>
    simp only [handle, looked, hpoint] at h ⊢
    exact seen_startDownstream h
  | acquire =>
    simp only [handle, looked, hpoint] at h ⊢
    exact seen_acquire hpoint h
  | loop =>
    simp only [handle, looked, hpoint] at h ⊢
    exact h
  | pauseWait =>
    simp only [handle, looked, hpoint] at h ⊢
    exact seen_pauseWait hpoint h
  | retryGate =>
    simp only [handle, looked, hpoint] at h ⊢
    exact seen_retryGate hpoint h
  | forwarding =>
    simp only [handle, looked, hpoint] at h ⊢
    trivial
  | awaitRetry result =>
    simp only [handle, looked, hpoint]
    exact seen_awaitRetry_step result
  | activatePolicy result cfg =>
    simp only [handle, looked, hpoint] at h ⊢
    obtain rfl : cfg = w.config := h
    exact seen_activatePolicy result
  | holdUncertain result cfg policy =>
    simp only [handle, looked, hpoint] at h ⊢
    exact h
  | manualWait result cfg policy =>
    simp only [handle, looked, hpoint] at h ⊢
    obtain rfl : cfg = w.config := h
    exact seen_manualWait hpoint
  | schedule result cfg policy =>
    simp only [handle, looked, hpoint] at h ⊢
    obtain rfl : cfg = w.config := h
    exact seen_schedule
  | retryWait result ready =>
    simp only [handle, looked, hpoint] at h ⊢
    exact seen_retryWait hpoint h
  | checkDeadline result resumeReason =>
    simp only [handle, looked, hpoint] at h ⊢
    exact seen_checkDeadline h
  | reacquire resumeReason =>
    simp only [handle, looked, hpoint] at h ⊢
    exact seen_reacquire hpoint h
  | attemptStarted | select | bindUpstream _ | beginAttempt _ | refused _ _ | exchange _
  | settle _ | judge _ | releaseReservation _ | buffering _ | delivering _ | deliver _
  | completed | classify _ | attemptFailed _ | fail _ | stopHeartbeat | finish | remove
  | releaseDeferred | returned => exact hrest (by rw [hpoint]; rfl)

/-! ## What others change -/

/-- What an event of someone else does to the policy: nothing, or drops it, or
sets one that counts from the operator's clock. -/
theorem retryPolicy_step (event : Event) (hsteady : Steady event)
    (h : ∀ answer, event ≠ .handler answer) :
    (w.step event).entry.retryPolicy = w.entry.retryPolicy ∧ w.looked looks event = looks ∨
      ((w.looked looks event).elapsed = looks.elapsed ∧
        ∀ policy ∈ (w.step event).entry.retryPolicy, policy.active = true →
          (w.looked looks event).policy < policy.deadline) := by
  have kept {w' : World} (hentry : w'.entry.retryPolicy = w.entry.retryPolicy) :
      w'.entry.retryPolicy = w.entry.retryPolicy ∧ looks = looks := ⟨hentry, rfl⟩
  match event with
  | .handler answer => exact absurd rfl (h answer)
  | .configure _ => exact hsteady.elim
  | .heartbeat beat =>
    left
    rw [step]
    split
    · exact kept rfl
    · obtain ⟨ctx, heq⟩ := onDisconnect_cases { w with downstream := (w.downstream.beat beat).1 }
      rw [heq]
      exact kept rfl
  | .retryNowChecked =>
    left
    rw [step]
    split
    · exact kept rfl
    · exact kept rfl
  | .sendRetry persisted =>
    left
    rw [step]
    split
    · exact kept rfl
    · refine kept ?_
      show (w.entry.sendRetry persisted).1.retryPolicy = _
      rw [Entry.sendRetry]
      split
      · rfl
      · rfl
  | .applyRetryPolicy now spec overwrite validate persisted =>
    obtain ⟨senders, heq⟩ := w.policyAction_cases
      (w.entry.applyRetryPolicy now spec overwrite validate persisted)
    have happlied := w.entry.retryPolicy_applyRetryPolicy now spec overwrite validate persisted
      hsteady
    rw [step, heq, looked]
    split
    · next hsame => exact .inl ⟨hsame, rfl⟩
    · next hother => exact .inr ⟨rfl, happlied.resolve_left hother⟩
  | .clearRetryPolicy persisted =>
    obtain ⟨senders, heq⟩ := w.policyAction_cases (w.entry.clearRetryPolicy persisted)
    rw [step, heq]
    rcases w.entry.retryPolicy_clearRetryPolicy persisted with hsame | hnone
    · exact .inl ⟨hsame, rfl⟩
    · refine .inr ⟨rfl, fun policy hpolicy => ?_⟩
      rw [hnone] at hpolicy
      cases hpolicy
  | .signalPolicy =>
    left
    rw [step]
    split
    · exact kept rfl
    · exact kept rfl
  | .resolveUncertain now resolution persisted =>
    left
    refine kept ?_
    show (w.resolveUncertain now resolution persisted).entry.retryPolicy = _
    have hentry := w.entry.retryPolicy_resolveUncertain now resolution persisted
    simp only [resolveUncertain]
    split
    · exact hentry
    · split
      · exact hentry
      · exact hentry
  | .sendCompensation =>
    left
    rw [step]
    split
    · exact kept rfl
    · exact kept rfl
  | .cancelChecked persisted =>
    left
    have hentry := w.entry.retryPolicy_cancelChecked persisted
    rw [step]
    extract_lets answer
    split
    · exact kept hentry
    · exact kept hentry
  | .sendCancel =>
    left
    rw [step]
    split
    · exact kept rfl
    · exact kept rfl
  | .disconnect =>
    left
    have hdisconnected := w.onDisconnect_cases
    rw [step, hdisconnected.choose_spec]
    exact kept rfl
  | .govern action =>
    left
    rw [step]
    split
    · exact kept rfl
    · exact kept rfl
  | .upstream op =>
    left
    rw [step]
    split
    · exact kept rfl
    · exact kept rfl
  | .heartbeatQuit | .contextDone _ | .pause | .resume | .reload _ _ => exact .inl ⟨rfl, rfl⟩

/-- What is known survives an event of someone else. -/
theorem seen_outside {event : Event} (hsteady : Steady event)
    (hother : ∀ answer, event ≠ .handler answer) {point : Point} (h : w.Seen looks point) :
    (w.step event).Seen (w.looked looks event) point := by
  have houtside := w.step_outside event hother
  have hconfig : (w.step event).config = w.config := by
    rcases houtside.config with heq | ⟨cfg, rfl, -⟩
    · exact heq
    · exact hsteady.elim
  have hpolicy : w.PolicySeen looks → (w.step event).PolicySeen (w.looked looks event) := by
    intro hseen d hd
    obtain ⟨policy, hin, hactive, rfl⟩ := mem_policyEnd.mp hd
    rcases @retryPolicy_step w looks event hsteady hother with ⟨heq, hlooks⟩ | ⟨-, hnew⟩
    · rw [heq] at hin
      rw [hlooks]
      exact hseen _ (mem_policyEnd.mpr ⟨policy, hin, hactive, rfl⟩)
    · exact hnew policy hin hactive
  have helapsed : w.ElapsedSeen looks → (w.step event).ElapsedSeen (w.looked looks event) := by
    intro hseen d hd
    rw [elapsedEnd, hconfig, houtside.handler] at hd
    rcases @retryPolicy_step w looks event hsteady hother with ⟨-, hlooks⟩ | ⟨hlooks, -⟩
    · rw [hlooks]
      exact hseen d hd
    · rw [hlooks]
      exact hseen d hd
  have hattempt : (w.step event).handler.attempt = w.handler.attempt := by rw [houtside.handler]
  cases point with
  | evaluatePolicy | admitContext | startDownstream | acquire => exact hattempt.trans h
  | activatePolicy _ _ | holdUncertain _ _ _ | manualWait _ _ _ | schedule _ _ _ =>
    exact Eq.trans h hconfig.symm
  | retryWait _ _ | checkDeadline _ _ => exact helapsed h
  | reacquire _ => exact ⟨hpolicy h.1, helapsed h.2⟩
  | loop | pauseWait | retryGate | forwarding =>
    exact h.imp hattempt.trans fun hseen => ⟨hpolicy hseen.1, helapsed hseen.2⟩
  | _ => trivial

/-! ## Runs -/

/-- The looks so far, as far as they matter where the handler stands. -/
def Watched (s : World × Looks) : Prop := s.1.Seen s.2 s.1.handler.point

theorem watched_watch {s : World × Looks} {event : Event} (h : Watched s) (hsteady : Steady event) :
    Watched (watch s event) := by
  by_cases hother : ∀ answer, event ≠ .handler answer
  · have hhandler := (s.1.step_outside event hother).handler
    show (s.1.step event).Seen _ (s.1.step event).handler.point
    rw [hhandler]
    exact seen_outside hsteady hother h
  · push Not at hother
    obtain ⟨a, rfl⟩ := hother
    exact seen_handle h

/-- Where the looks saw every window open, a retry is in time just when none
closed since. -/
theorem punctual_iff_unbroken {s : World × Looks} {event : Event} (h : Watched s) :
    Punctual s.1 event ↔ Unbroken s event := by
  refine forall₂_congr fun now hbegins => ?_
  have hseen : s.1.PolicySeen s.2 ∧ s.1.ElapsedSeen s.2 := by
    cases event with
    | handler a =>
      rw [retryBegins] at hbegins
      split at hbegins
      · next hpoint =>
        rw [Watched, hpoint] at h
        obtain ⟨hretry, -⟩ := Option.ite_none_right_eq_some.mp hbegins
        exact h.resolve_left fun hfirst => by omega
      · cases hbegins
    | _ => cases hbegins
  have hin {d look : Int} (hlook : look < d) : now < d ↔ ¬(look < d ∧ d ≤ now) := by omega
  exact and_congr
    (forall₂_congr fun d hd => hin (hseen.1 d hd)) (forall₂_congr fun d hd => hin (hseen.2 d hd))

theorem along_watch {C : World → Event → Prop} {s : World × Looks} {events : List Event} :
    Along watch (fun s event => C s.1 event) s events ↔ Along step C s.1 events := by
  induction events generalizing s with
  | nil => rfl
  | cons event rest ih => exact and_congr_right fun _ => ih

/-- **The retry window.** Under a fixed configuration, every retry of a run begins
before the deadline of the request's active policy and before `MaxElapsed` is
over, if and only if no window closes between the last look at it and the
beginning of the retry. -/
theorem retries_punctual_iff (request : Request) (cfg : Config) (governance : Governance.Manager)
    (pool : Pool) (events : List Event) (hsteady : ∀ event ∈ events, Steady event) :
    Along step Punctual (start request cfg governance pool) events ↔
      Along watch Unbroken (start request cfg governance pool, {}) events := by
  have hstart : Watched (start request cfg governance pool, {}) := rfl
  rw [← along_watch (s := (start request cfg governance pool, {}))]
  have hrun : Along watch (fun _ event => Steady event)
      (start request cfg governance pool, {}) events := .of_forall hsteady
  constructor
  · intro h
    exact (h.and hrun).of_invariant (fun _ _ hseen hc => watched_watch hseen hc.2)
      (fun _ _ hseen hc => (punctual_iff_unbroken hseen).mp hc.1) hstart
  · intro h
    exact (h.and hrun).of_invariant (fun _ _ hseen hc => watched_watch hseen hc.2)
      (fun _ _ hseen hc => (punctual_iff_unbroken hseen).mpr hc.1) hstart

/-! ## Retries past a window -/

/-- A minute between attempts, and ten seconds in all. -/
def hurried : Config where
  retry :=
    { minInterval := 60 * second
      maxInterval := 60 * second
      maxElapsed := 10 * second }

/-- The first attempt fails at once. Its wait is cut to the ten seconds, and the
timer fires when they are over. -/
def cutShort : List Event := usual 18 ++ stepsAt (10 * second) 6

/-- While the request waits, an operator sets a policy for five seconds. The wait
is over in time, but a slot comes free only after ten. -/
def queuedLong : List Event :=
  usual 18 ++
    [.applyRetryPolicy second
      { duration := 5 * second, schedule := { mode := .immediate }, maxAdditionalAttempts := 3 }
      false true true] ++
    stepsAt second 2 ++ stepsAt (10 * second) 4

/-- A second between attempts, and ten seconds in all. The second attempt begins
after five. -/
theorem retries_punctual_iff_inTime :
    let w := before {} { everySecond with retry := { everySecond.retry with maxElapsed := 10 * second } }
    Along step Punctual w (usual 18 ++ stepsAt (5 * second) 7) ∧
      (w.run (usual 18 ++ stepsAt (5 * second) 6)).retryBegins (.handler { now := 5 * second }) =
        some (5 * second) :=
  ⟨(retries_punctual_iff {} _ _ _ _ (by
      intro event hevent
      rw [usual, stepsAt, stepsAt] at hevent
      simp only [List.mem_append, List.mem_replicate] at hevent
      rcases hevent with ⟨-, rfl⟩ | ⟨-, rfl⟩ <;> trivial)).mpr (by decide +kernel),
    by decide +kernel⟩

/-- The second attempt begins when `MaxElapsed` is over, or when the deadline of
the policy has passed. -/
theorem not_punctual_cutShort :
    ¬Along step Punctual (before {} hurried) (cutShort ++ stepsAt (10 * second) 1) ∧
      ¬Along step Punctual (before {} everySecond) (queuedLong ++ stepsAt (10 * second) 1) := by
  constructor
  · intro h
    have hlast := (Along.append.mp h).2.1
    have hbegins : ((before {} hurried).run cutShort).retryBegins
        (.handler { now := 10 * second }) = some (10 * second) := by decide +kernel
    have hend : ((before {} hurried).run cutShort).elapsedEnd = some (10 * second) := by
      decide +kernel
    exact absurd ((hlast _ hbegins).2 _ hend) (by decide)
  · intro h
    have hlast := (Along.append.mp h).2.1
    have hbegins : ((before {} everySecond).run queuedLong).retryBegins
        (.handler { now := 10 * second }) = some (10 * second) := by decide +kernel
    have hend : ((before {} everySecond).run queuedLong).policyEnd = some (6 * second) := by
      decide +kernel
    exact absurd ((hlast _ hbegins).1 _ hend) (by decide)

end World

end RelayLifeline.Proxy
