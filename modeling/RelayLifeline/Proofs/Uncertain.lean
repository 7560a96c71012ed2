import Mathlib.Data.List.Induction
import RelayLifeline.Proofs.States

/-!
# When a request is uncertain

A request is uncertain where it was written and no response came back. The
handler reads that off the result in its hands, and the result of an attempt
that found no target carries what the attempts before it wrote. So the verdict
is exact as long as no selection fails after a written attempt, and as long as
the handler gets to judge its attempts at all.
-/

namespace RelayLifeline.Proxy

open Lib Lifecycle Registry

/-- The result the handler has not yet classified. -/
def Point.pending : Point → Option AttemptResult
  | .settle result | .judge result | .classify result => some result
  | _ => none

/-- The failed result the handler is about to retry or not. -/
def Point.held : Point → Option AttemptResult
  | .attemptFailed result | .awaitRetry result | .activatePolicy result _
  | .holdUncertain result _ _ | .manualWait result _ _ | .schedule result _ _ => some result
  | _ => none

theorem Point.pending_cases {point : Point} {result : AttemptResult}
    (h : point.pending = some result) :
    point = .settle result ∨ point = .judge result ∨ point = .classify result := by
  cases point <;> simp_all [Point.pending]

theorem Point.pending_idle {point : Point} (h : point.attempting = false) : point.pending = none := by
  cases point <;> first | rfl | exact absurd h (by simp [Point.attempting])

theorem Point.held_of_exiting {point : Point} (h : point.exiting = true) : point.held = none := by
  cases point <;> first | rfl | exact absurd h (by simp [Point.exiting])

/-- A result is held from its verdict on, or once more after a wait. -/
theorem Point.held_of_leads {point point' : Point} {result : AttemptResult} (h : point.Leads point')
    (hheld : point'.held = some result) :
    point.held = some result ∨ point = .classify result ∨
      ∃ ready, point = .retryWait result ready := by
  cases h <;> simp_all [Point.held]

/-- The request is held back only where the response was lost. -/
theorem Point.undelivered_of_leads {point : Point} {result : AttemptResult} {cfg : Config}
    {policy : Option RetryPolicy} (h : point.Leads (.holdUncertain result cfg policy)) :
    result.undelivered = true := by
  cases h with
  | held _ _ _ hlost => exact hlost

namespace World

/-- A step that keeps what an attempt wrote apart from what earlier ones did, and
that does not end the request between a lost response and the verdict on it. -/
def keepsApart (w : World) : Event → Bool
  | .handler a =>
      match w.handler.point with
      | .select =>
          !w.handler.route.everWroteRequest ||
            (w.pool.manager.select a.now w.selection w.ctx a.waited).2.isOk
      | .settle result =>
          !result.undelivered || !w.handler.cfg.enforcing || w.handler.reservation.all fun id =>
            (w.governance.record a.clock id (attemptName w.handler.attempt) result.usage).2.2.isNone
      | .judge result =>
          !result.undelivered || !(w.clientDisconnected &&
            w.handler.cfg.lifecycle.clientDisconnectPolicy = .finishAttempt)
      | .classify result => !result.undelivered || a.persisted
      | _ => true
  | _ => true

/-- Deliveries are tracked, now and whenever the configuration is read again. -/
def Tracks (w : World) : Prop :=
  w.config.lifecycle.trackUncertainDelivery = true ∧
    w.handler.cfg.lifecycle.trackUncertainDelivery = true

/-- The verdicts so far are those of the attempts themselves. -/
structure Exact (w : World) : Prop where
  own : ∀ n, .uncertain n ∈ w.log →
    ∃ target result, .ended n target result ∈ w.log ∧ result.undelivered = true
  entered : ∀ n target result, .ended n target result ∈ w.log → result.undelivered = true →
    .uncertain n ∈ w.log ∨ n = w.handler.attempt ∧ w.handler.point.pending = some result
  pending : ∀ result ∈ w.handler.point.pending, result.undelivered = true →
    result.validation.success = false ∧ ∃ target, .ended w.handler.attempt target result ∈ w.log

variable {w w' : World}

/-- A happening no verdict speaks of. -/
def Indifferent (x : Happening) : Prop :=
  (∀ n target result, x ≠ .ended n target result) ∧ ∀ n, x ≠ .uncertain n

/-- The log is as it was, but for an indifferent happening. -/
def LogKept (w w' : World) : Prop :=
  w'.log = w.log ∨ ∃ x, Indifferent x ∧ w'.log = w.log ++ [x]

theorem LogKept.mem_iff (h : w.LogKept w') {x : Happening} (hx : ¬Indifferent x) :
    x ∈ w'.log ↔ x ∈ w.log := by
  rcases h with heq | ⟨y, hy, heq⟩
  · rw [heq]
  · rw [heq, List.mem_append, List.mem_singleton]
    exact ⟨fun hin => hin.resolve_right fun hxy => hx (hxy ▸ hy), .inl⟩

theorem not_indifferent_ended {n : Nat} {target : Upstream.Target} {result : AttemptResult} :
    ¬Indifferent (.ended n target result) := fun h => h.1 n target result rfl

theorem not_indifferent_uncertain {n : Nat} : ¬Indifferent (.uncertain n) := fun h => h.2 n rfl

/-- A step that keeps the log keeps the verdicts, where what is pending stays
pending unless it is none of a lost response. -/
theorem Exact.of_kept (h : Exact w) (hlog : w.LogKept w')
    (hattempt : w.handler.point.pending.isSome → w'.handler.attempt = w.handler.attempt)
    (hpending : ∀ result ∈ w.handler.point.pending, result.undelivered = true →
      w'.handler.point.pending = some result)
    (hpending' : ∀ result ∈ w'.handler.point.pending, result.undelivered = true →
      w.handler.point.pending = some result) : Exact w' := by
  refine ⟨fun n hn => ?_, fun n target result hin hlost => ?_, fun result hin hlost => ?_⟩
  · obtain ⟨target, result, hin, hlost⟩ := h.own n ((hlog.mem_iff not_indifferent_uncertain).1 hn)
    exact ⟨target, result, (hlog.mem_iff not_indifferent_ended).2 hin, hlost⟩
  · rcases h.entered n target result ((hlog.mem_iff not_indifferent_ended).1 hin) hlost with
      huncertain | ⟨rfl, hpoint⟩
    · exact .inl ((hlog.mem_iff not_indifferent_uncertain).2 huncertain)
    · exact .inr ⟨(hattempt (by simp [hpoint])).symm, hpending result hpoint hlost⟩
  · have hpoint := hpending' result hin hlost
    obtain ⟨hfailed, target, hended⟩ := h.pending result hpoint hlost
    rw [hattempt (by simp [hpoint])]
    exact ⟨hfailed, target, (hlog.mem_iff not_indifferent_ended).2 hended⟩

/-- Nothing is pending before or after. -/
theorem Exact.of_idle (h : Exact w) (hlog : w.LogKept w') (hpending : w.handler.point.pending = none)
    (hpending' : w'.handler.point.pending = none) : Exact w' :=
  h.of_kept hlog (by simp [hpending]) (by simp [hpending]) (by simp [hpending'])

/-! ## A step of the handler -/

theorem Exact.select (h : Exact w) (a : Answer) (hpoint : w.handler.point = .select)
    (hapart : w.keepsApart (.handler a) = true) : Exact (w.select a) := by
  have hnone : w.handler.point.pending = none := by rw [hpoint]; rfl
  simp only [keepsApart, hpoint, Bool.or_eq_true, Bool.not_eq_true'] at hapart
  simp only [World.select]
  split
  · rename_i err herr
    have hunwritten : w.handler.route.everWroteRequest = false := by
      simpa [herr, Except.isOk, Except.toBool] using hapart
    refine h.of_kept (.inr ⟨_, ⟨by simp, by simp⟩, rfl⟩) (by simp [hnone]) (by simp [hnone]) ?_
    intro result hin hlost
    obtain rfl := Option.some.inj hin
    simp [AttemptResult.undelivered, unselectedResult, hunwritten] at hlost
  · exact h.of_idle (.inl rfl) hnone rfl

/-- The attempt's own end is what becomes pending. -/
theorem Exact.exchange (h : Exact w) (a : Answer) {lease : Nat}
    (hpoint : w.handler.point = .exchange lease) : Exact (w.exchange a lease) := by
  have hnone : w.handler.point.pending = none := by rw [hpoint]; rfl
  simp only [World.exchange]
  refine ⟨fun n hn => ?_, fun n target result hin hlost => ?_, fun result hin hlost => ?_⟩
  · obtain ⟨target, result, hin, hlost⟩ := h.own n (by simpa using hn)
    exact ⟨target, result, List.mem_append_left _ hin, hlost⟩
  · rcases List.mem_append.1 hin with hin | hin
    · refine .inl (List.mem_append_left _ ?_)
      simpa [hnone] using h.entered n target result hin hlost
    · obtain ⟨rfl, rfl, rfl⟩ : n = w.handler.attempt ∧ target = w.target lease ∧
          result = runAttemptForTarget (w.target lease) a.exchange := by simpa using hin
      exact .inr ⟨rfl, rfl⟩
  · obtain rfl := Option.some.inj hin
    exact ⟨not_success_of_undelivered hlost, w.target lease,
      List.mem_append_right _ List.mem_cons_self⟩

theorem Exact.settle (h : Exact w) (a : Answer) {result : AttemptResult}
    (hpoint : w.handler.point = .settle result) (hapart : w.keepsApart (.handler a) = true) :
    Exact (w.settle a result) := by
  simp only [keepsApart, hpoint] at hapart
  obtain ⟨governance, log, point, heq, hlog, hto⟩ := w.settle_cases a result
  have hkept : w.LogKept (w.settle a result) := by
    rw [heq]
    exact hlog.imp_right fun hlog => ⟨_, ⟨by simp, by simp⟩, hlog.2⟩
  refine h.of_kept hkept (fun _ => by rw [heq]) (fun other hin hlost => ?_)
    (fun other hin _ => ?_)
  · obtain rfl : result = other := by simpa [hpoint, Point.pending] using hin
    rcases hto with rfl | ⟨-, henforcing, id, hid, hfails⟩
    · rw [heq]
      rfl
    · obtain ⟨error, herror⟩ := Option.isSome_iff_exists.1 hfails
      simp [hlost, henforcing, hid, herror] at hapart
  · rw [heq] at hin
    rcases hto with rfl | ⟨rfl, -⟩
    · rw [hpoint]
      exact hin
    · simp [Point.pending] at hin

theorem Exact.judge (h : Exact w) (a : Answer) {result : AttemptResult}
    (hpoint : w.handler.point = .judge result) (hapart : w.keepsApart (.handler a) = true) :
    Exact (w.judge result) := by
  have hpending : w.handler.point.pending = some result := by rw [hpoint]; rfl
  simp only [keepsApart, hpoint] at hapart
  simp only [World.judge]
  split
  · rename_i hgone
    have hgiven : result.undelivered = false := by simpa [hgone] using hapart
    exact h.of_kept (.inl rfl) (fun _ => rfl) (by simp [hpending, hgiven]) (by simp [Point.pending])
  · split
    · rename_i hsuccess
      refine h.of_kept (.inl rfl) (fun _ => rfl) ?_ (by simp [Point.pending])
      intro other hin hlost
      obtain ⟨hfailed, -⟩ := h.pending other hin hlost
      obtain rfl := Option.some.inj (hpending.symm.trans hin)
      simp [hfailed] at hsuccess
    · exact h.of_kept (.inl rfl) (fun _ => rfl) (by simp [hpoint, Point.pending])
        (by simp [hpoint, Point.pending])

/-- The verdict: uncertain exactly where the pending response was lost. -/
theorem Exact.classify (h : Exact w) (a : Answer) {result : AttemptResult}
    (hpoint : w.handler.point = .classify result) (htracks : w.Tracks) :
    Exact (w.classify a result) := by
  have hpending : w.handler.point.pending = some result := by rw [hpoint]; rfl
  have hgiven {w' : World} (hlog : w'.log = w.log) (hgiven : result.undelivered = false)
      (hattempt : w'.handler.attempt = w.handler.attempt)
      (hto : w'.handler.point = .attemptFailed result) : Exact w' :=
    h.of_kept (.inl hlog) (fun _ => hattempt) (by simp [hpending, hgiven])
      (by simp [hto, Point.pending])
  simp only [World.classify]
  split
  · rename_i hresponse
    refine hgiven rfl ?_ rfl rfl
    simp [AttemptResult.undelivered, Option.isNone_iff_eq_none, Option.isSome_iff_ne_none.1 hresponse]
  · rename_i hresponse
    split
    · rename_i hwrote
      have hlost : result.undelivered = true := by
        simp [AttemptResult.undelivered, hwrote.1, Option.not_isSome_iff_eq_none.1 hresponse]
      obtain ⟨-, target, hended⟩ := h.pending result hpending hlost
      refine ⟨fun n hn => ?_, fun n target' result' hin hlost' => ?_, by simp [Point.pending]⟩
      · rcases List.mem_append.1 hn with hn | hn
        · obtain ⟨target', result', hin, hlost'⟩ := h.own n hn
          exact ⟨target', result', List.mem_append_left _ hin, hlost'⟩
        · obtain rfl : n = w.handler.attempt := by simpa using hn
          exact ⟨target, result, List.mem_append_left _ hended, hlost⟩
      · refine .inl ?_
        rcases List.mem_append.1 hin with hin | hin
        · rcases h.entered n target' result' hin hlost' with hn | ⟨rfl, -⟩
          · exact List.mem_append_left _ hn
          · exact List.mem_append_right _ List.mem_cons_self
        · simp at hin
    · rename_i hwrote
      refine hgiven rfl ?_ rfl rfl
      rw [htracks.2] at hwrote
      simp only [and_true, Bool.not_eq_true] at hwrote
      simp [AttemptResult.undelivered, hwrote]

theorem Exact.handle (h : Exact w) (htracks : w.Tracks) (a : Answer)
    (hapart : w.keepsApart (.handler a) = true) : Exact (w.handle a) := by
  refine attempt_elim w a (fun hbeside => h.of_idle (.inl hbeside.log)
      (Point.pending_idle hbeside.idle) (Point.pending_idle hbeside.idle'))
    (fun hpoint => ?_) (fun hpoint => ?_) (fun hpoint => h.select a hpoint hapart)
    (fun lease hpoint => ?_) (fun lease hpoint => ?_) (fun lease reason hpoint => ?_)
    (fun lease => h.exchange a) (fun result hpoint => h.settle a hpoint hapart)
    (fun result hpoint => h.judge a hpoint hapart) (fun result hpoint => ?_)
    (fun result hpoint => h.classify a hpoint htracks) (fun reason hpoint => ?_)
    (fun hpoint => ?_)
  case refine_1 =>
    simp only [World.admitContext]
    generalize w.governance.admitWithContext a.clock a.requestCanceled a.reservationID
      { w.request.admission with upstream := w.handler.decision.targetID } = admitted
    split
    · exact h.of_idle (.inl rfl) (by rw [hpoint]; rfl) rfl
    · split
      · exact h.of_idle (.inl rfl) (by rw [hpoint]; rfl) rfl
      · exact h.of_idle (.inl rfl) (by rw [hpoint]; rfl) rfl
  case refine_2 =>
    simp only [World.attemptStarted]
    split
    · exact h.of_idle (.inr ⟨_, ⟨by simp, by simp⟩, rfl⟩) (by rw [hpoint]; rfl) rfl
    · exact h.of_idle (.inl rfl) (by rw [hpoint]; rfl) rfl
  case refine_3 =>
    obtain ⟨governance, log, point, heq, hlog, hto⟩ := w.bindUpstream_cases a lease
    rw [heq]
    refine h.of_idle (hlog.imp_right fun hlog => ⟨_, ⟨by simp, by simp⟩, hlog⟩)
      (by rw [hpoint]; rfl) ?_
    rcases hto with rfl | rfl | ⟨reason, rfl⟩ <;> rfl
  case refine_4 =>
    obtain ⟨governance, point, heq, hto⟩ := w.beginAttempt_cases a lease
    rw [heq]
    refine h.of_idle (.inl rfl) (by rw [hpoint]; rfl) ?_
    rcases hto with rfl | ⟨reason, rfl⟩ <;> rfl
  case refine_5 => exact h.of_idle (.inl rfl) (by rw [hpoint]; rfl) rfl
  case refine_6 =>
    simp only [World.releaseReservation]
    split
    · exact h.of_idle (.inl rfl) (by rw [hpoint]; rfl) rfl
    · split
      · exact h.of_idle (.inl rfl) (by rw [hpoint]; rfl) rfl
      · exact h.of_idle (.inl rfl) (by rw [hpoint]; rfl) rfl
  case refine_7 =>
    simp only [World.reacquire]
    split
    · exact h.of_idle (.inl rfl) (by rw [hpoint]; rfl) rfl
    · exact h.of_idle (.inl rfl) (by rw [hpoint]; rfl) rfl
    · split
      · exact h.of_idle (.inl rfl) (by rw [hpoint]; rfl) rfl
      · exact h
  case refine_8 =>
    simp only [World.releaseDeferred]
    split
    · exact h.of_idle (.inl rfl) (by rw [hpoint]; rfl) rfl
    · exact h.of_idle (.inl rfl) (by rw [hpoint]; rfl) rfl

/-! ## The request while its retry is decided -/

theorem handle_held (w : World) (a : Answer) {result : AttemptResult}
    (h : (w.handle a).handler.point.held = some result) :
    w.handler.point.held = some result ∨ w.handler.point = .classify result ∨
      ∃ ready, w.handler.point = .retryWait result ready := by
  rcases w.handle_leads a with heq | hleads
  · rw [heq] at h
    exact .inl h
  · exact Point.held_of_leads hleads h

theorem moves_of_held {point : Point} {status : State} (hheld : point.held.isSome)
    (h : status ∈ point.moves) : status = .uncertain ∨ status = .waiting := by
  cases point <;> simp_all [Point.held, Point.moves]

/-- While its retry is decided, a request whose response was lost is uncertain,
or it waits already and has only been woken. -/
structure Parked (w : World) : Prop where
  held : ∀ result ∈ w.handler.point.held, result.undelivered = true →
    w.entry.state = some .uncertain ∨ w.entry.state = some .waiting
  hold : ∀ result cfg policy, w.handler.point = .holdUncertain result cfg policy →
    result.undelivered = true

theorem Parked.handle (h : Parked w) (ht : Tracked w) (htracks : w.Tracks) (a : Answer) :
    Parked (w.handle a) := by
  refine ⟨fun result hin hlost => ?_, fun result cfg policy hpoint => ?_⟩
  case refine_2 =>
    rcases w.handle_leads a with heq | hleads
    · exact h.hold result cfg policy (heq.symm.trans hpoint)
    · rw [hpoint] at hleads
      exact Point.undelivered_of_leads hleads
  have hopen : (w.handle a).entry.state ≠ none := by
    intro hnone
    by_cases hexit : (w.handle a).handler.point.exiting = true
    · simp [Point.held_of_exiting hexit] at hin
    · obtain ⟨status, -, hstatus⟩ := (ht.handle a).state (by simpa using hexit)
      simp [hnone] at hstatus
  rcases w.handle_held a hin with hheld | hpoint | ⟨ready, hpoint⟩
  · have hstate := h.held result hheld hlost
    rcases w.handle_state a with hsame | ⟨status, hmoves, hmoved⟩ | hremoved
    · rw [hsame]
      exact hstate
    · rw [hmoved]
      rcases moves_of_held (by simp [hheld]) hmoves with rfl | rfl
      · rcases hstate with hstate | hstate <;>
          simp [hstate, Entry.moveTo, validateTransition, transitions]
      · rcases hstate with hstate | hstate <;>
          simp [hstate, Entry.moveTo, validateTransition, transitions]
    · exact absurd hremoved hopen
  · obtain ⟨source, hsource, hstate⟩ := ht.state (by rw [hpoint]; rfl)
    obtain rfl : source = .forwarding := by simpa [hpoint, Point.states] using hsource
    simp only [AttemptResult.undelivered, Bool.and_eq_true, Option.isNone_iff_eq_none] at hlost
    left
    simp [World.handle, hpoint, World.classify, hlost.1, hlost.2, htracks.2,
      Entry.state_updateMessage, hstate, Entry.moveTo, validateTransition, transitions]
  · obtain ⟨source, hsource, hstate⟩ := ht.state (by rw [hpoint]; rfl)
    obtain rfl : source = .waiting := by simpa [hpoint, Point.states] using hsource
    rcases w.handle_state a with hsame | ⟨status, hmoves, -⟩ | hremoved
    · exact .inr (hsame.trans hstate)
    · simp [hpoint, Point.moves] at hmoves
    · exact absurd hremoved hopen

/-! ## Turning uncertain -/

/-- A step on which the request turns uncertain. -/
def Turns (w w' : World) : Prop :=
  w.entry.state ≠ some .uncertain ∧ w'.entry.state = some .uncertain

/-- The handler turns the request uncertain only by its verdict on a lost
response. -/
theorem Parked.of_turns (h : Parked w) {a : Answer}
    (hturns : Turns w (w.handle a)) :
    ∃ result, w.handler.point = .classify result ∧ result.undelivered = true := by
  obtain ⟨hbefore, hafter⟩ := hturns
  rcases w.handle_state a with hsame | ⟨status, hmoves, hmoved⟩ | hnone
  · exact absurd (hsame.symm.trans hafter) hbefore
  · have hstatus : status = .uncertain := by
      rw [hafter] at hmoved
      obtain ⟨source, hsource, hto⟩ := Option.map_eq_some_iff.1 hmoved.symm
      simp only [Entry.moveTo] at hto
      split at hto
      · exact hto
      · exact absurd (hto ▸ hsource) hbefore
    subst hstatus
    cases hpoint : w.handler.point with
    | classify result =>
        refine ⟨result, rfl, ?_⟩
        have hresponse : result.response = none := by
          by_contra hsome
          simp [hpoint, Point.moves, Option.isSome_iff_ne_none.2 hsome] at hmoves
        by_contra hgiven
        have hwrote : result.wroteRequest = false := by
          simpa [AttemptResult.undelivered, hresponse] using hgiven
        exact hbefore (by
          simpa [World.handle, hpoint, World.classify, hresponse, hwrote] using hafter)
    | holdUncertain result cfg policy =>
        rcases h.held result (by rw [hpoint]; rfl) (h.hold result cfg policy hpoint) with
          hstate | hstate
        · exact absurd hstate hbefore
        · simp [hmoved, hstate, Entry.moveTo, validateTransition, transitions] at hafter
    | forwarding | buffering _ | delivering _ | completed | schedule _ _ _ =>
        simp [hpoint, Point.moves] at hmoves
    | evaluatePolicy | admitContext | startDownstream | acquire | loop | pauseWait
    | retryGate | attemptStarted | select | bindUpstream _ | beginAttempt _
    | refused _ _ | exchange _ | settle _ | judge _ | releaseReservation _
    | deliver _ | attemptFailed _ | awaitRetry _ | activatePolicy _ _ | manualWait _ _ _
    | retryWait _ _ | checkDeadline _ _
    | reacquire _ | fail _ | stopHeartbeat | finish | remove | releaseDeferred | returned =>
        simp [hpoint, Point.moves] at hmoves
  · simp [hnone] at hafter

/-- The verdict on a lost response turns the request uncertain, and the event
says that it was written. -/
theorem Tracked.turns (ht : Tracked w) (a : Answer) {result : AttemptResult}
    (htracks : w.handler.cfg.lifecycle.trackUncertainDelivery = true)
    (hpoint : w.handler.point = .classify result) (hlost : result.undelivered = true) :
    Turns w (w.handle a) ∧ (a.persisted = true →
      ∃ event ∈ (w.handle a).entry.timeline.events, event.type = .uncertain ∧
        event.attempt = w.handler.attempt ∧ event.wroteRequest = true) := by
  obtain ⟨source, hsource, hstate⟩ := ht.state (by rw [hpoint]; rfl)
  obtain rfl : source = .forwarding := by simpa [hpoint, Point.states] using hsource
  have hopen := ht.finished (by rw [hpoint]; rfl)
  simp only [AttemptResult.undelivered, Bool.and_eq_true, Option.isNone_iff_eq_none] at hlost
  have hclassify : w.handle a = (((w.update a.now .uncertain (describeAttempt result) 0).record
      { w.attemptEvent .uncertain result with
        category := "duplicate_risk", messageCode := "timeline.uncertain", wroteRequest := true }
      a.persisted).note (.uncertain w.handler.attempt)).goto (.attemptFailed result) := by
    simp [World.handle, hpoint, World.classify, hlost.1, hlost.2, htracks]
  rw [hclassify]
  refine ⟨⟨by simp [hstate], ?_⟩, fun hpersisted => ⟨{ w.attemptEvent .uncertain result with
    category := "duplicate_risk", messageCode := "timeline.uncertain", wroteRequest := true }, ?_,
    rfl, rfl, rfl⟩⟩
  · simp [Entry.state_updateMessage, hstate, Entry.moveTo, validateTransition, transitions]
  · simp only [goto, note, record, hpersisted]
    exact Entry.mem_recordEvent _ hopen

/-! ## Runs -/

/-- The configuration that is stored tracks deliveries too. -/
def KeepsTracking : Event → Prop
  | .configure cfg => cfg.lifecycle.trackUncertainDelivery = true
  | _ => True

theorem Tracks.step (h : w.Tracks) {event : Event} (hkeeps : KeepsTracking event) :
    (w.step event).Tracks := by
  by_cases hevent : ∃ answer, event = .handler answer
  · obtain ⟨answer, rfl⟩ := hevent
    obtain ⟨-, hconfig, hcfg⟩ := w.handle_cfg answer
    refine ⟨by rw [show w.step (.handler answer) = w.handle answer from rfl, hconfig]; exact h.1, ?_⟩
    rcases hcfg with hcfg | hcfg
    · exact (congrArg (·.lifecycle.trackUncertainDelivery) hcfg).trans h.2
    · exact (congrArg (·.lifecycle.trackUncertainDelivery) hcfg).trans h.1
  · have hout := w.step_outside event fun answer heq => hevent ⟨answer, heq⟩
    refine ⟨?_, hout.handler ▸ h.2⟩
    rcases hout.config with hconfig | ⟨cfg, rfl, hconfig⟩
    · exact hconfig ▸ h.1
    · exact hconfig ▸ hkeeps

/-- What every reached state has, in a run that keeps an attempt's own result
apart. -/
structure Clear (w : World) : Prop where
  tracked : Tracked w
  tracks : Tracks w
  exact : Exact w
  parked : Parked w

theorem Clear.step (h : Clear w) {event : Event} (hkeeps : KeepsTracking event)
    (hapart : w.keepsApart event = true) : Clear (w.step event) := by
  refine ⟨h.tracked.step event, h.tracks.step hkeeps, ?_, ?_⟩
  · by_cases hevent : ∃ answer, event = .handler answer
    · obtain ⟨answer, rfl⟩ := hevent
      exact h.exact.handle h.tracks answer hapart
    · have hout := w.step_outside event fun answer heq => hevent ⟨answer, heq⟩
      refine h.exact.of_kept ?_ (fun _ => by rw [hout.handler]) (fun result hin _ => ?_)
        (fun result hin _ => ?_)
      · exact hout.log.imp_right fun hlog => ⟨_, ⟨by simp, by simp⟩, hlog⟩
      · rw [hout.handler]
        exact hin
      · rw [hout.handler] at hin
        exact hin
  · by_cases hevent : ∃ answer, event = .handler answer
    · obtain ⟨answer, rfl⟩ := hevent
      exact h.parked.handle h.tracked h.tracks answer
    · have hother : ∀ answer, event ≠ .handler answer := fun answer heq => hevent ⟨answer, heq⟩
      have hout := w.step_outside event hother
      have haloof := w.step_aloof event hother
      refine ⟨fun result hin hlost => ?_, fun result cfg policy hpoint => ?_⟩
      · rw [hout.handler] at hin
        rw [haloof.state]
        exact h.parked.held result hin hlost
      · exact h.parked.hold result cfg policy (hout.handler ▸ hpoint)

theorem clear_start (request : Request) {config : Config} (governance : Governance.Manager)
    (pool : Upstream.Pool) (htrack : config.lifecycle.trackUncertainDelivery = true) :
    Clear (start request config governance pool) where
  tracked := tracked_start request config governance pool
  tracks := ⟨htrack, htrack⟩
  exact := ⟨by simp [start], by simp [start], by simp [start, Point.pending]⟩
  parked := ⟨by simp [start, Point.held], by simp [start]⟩

@[simp] theorem run_concat (w : World) (events : List Event) (event : Event) :
    w.run (events ++ [event]) = (w.run events).step event := by
  simp [run, List.foldl_append]

/-- Every verdict in the log was given on a step that turned the request. -/
theorem exists_turn {w : World} (ht : Tracked w) (hlog : w.log = []) {events : List Event}
    {n : Nat} (h : .uncertain n ∈ (w.run events).log) :
    ∃ front event rest, events = front ++ event :: rest ∧ (w.run front).handler.attempt = n ∧
      Turns (w.run front) (w.run (front ++ [event])) := by
  have hearlier {front : List Event} (event : Event)
      (h : ∃ first e rest, front = first ++ e :: rest ∧ (w.run first).handler.attempt = n ∧
        Turns (w.run first) (w.run (first ++ [e]))) :
      ∃ first e rest, front ++ [event] = first ++ e :: rest ∧
        (w.run first).handler.attempt = n ∧ Turns (w.run first) (w.run (first ++ [e])) := by
    obtain ⟨first, e, rest, rfl, hturn⟩ := h
    exact ⟨first, e, rest ++ [event], by simp, hturn⟩
  induction events using List.reverseRecOn with
  | nil => simp [run, hlog] at h
  | append_singleton front event ih =>
      rw [run_concat] at h
      have htracked : Tracked (w.run front) := foldl_invariant (fun _ _ h => h.step _) ht front
      by_cases hevent : ∃ answer, event = .handler answer
      · obtain ⟨answer, rfl⟩ := hevent
        rcases (w.run front).handle_log answer with hsame | ⟨x, hnotes, hadded⟩
        · exact hearlier _ (ih (by rw [← hsame]; exact h))
        · rw [show (w.run front).step (.handler answer) = (w.run front).handle answer from rfl,
            hadded, List.mem_append, List.mem_singleton] at h
          rcases h with hin | rfl
          · exact hearlier _ (ih hin)
          · generalize hn : Happening.uncertain n = x at hnotes
            cases hnotes with
            | uncertain result hpoint hlost htracks =>
                obtain rfl := Happening.uncertain.inj hn
                refine ⟨front, _, [], rfl, rfl, ?_⟩
                rw [run_concat]
                exact (htracked.turns answer htracks hpoint hlost).1
            | started hpoint => simp at hn
            | unselected hpoint => simp at hn
            | begun lease hpoint => simp at hn
            | ended lease hpoint => simp at hn
            | recorded result hpoint haccountable => simp at hn
      · have hout := (w.run front).step_outside event fun answer heq => hevent ⟨answer, heq⟩
        refine hearlier _ (ih ?_)
        rcases hout.log with hlog | hlog
        · rw [hlog] at h
          exact h
        · rw [hlog] at h
          simpa using h

/-- In a run, the request turns uncertain after an attempt exactly when the
attempt itself was written and got no response headers, unless the handler has
not yet come to its verdict on it. -/
structure UncertainExactly (w : World) (events : List Event) : Prop where
  only : ∀ front event rest, events = front ++ event :: rest →
    Turns (w.run front) (w.run (front ++ [event])) →
      (∃ target result, .ended (w.run front).handler.attempt target result ∈ (w.run front).log ∧
        result.undelivered = true) ∧
      ∃ recorded ∈ (w.run (front ++ [event])).entry.timeline.events, recorded.type = .uncertain ∧
        recorded.attempt = (w.run front).handler.attempt ∧ recorded.wroteRequest = true
  always : ∀ n target result, .ended n target result ∈ (w.run events).log →
    result.undelivered = true →
      (n = (w.run events).handler.attempt ∧
        (w.run events).handler.point.pending = some result) ∨
      ∃ front event rest, events = front ++ event :: rest ∧ (w.run front).handler.attempt = n ∧
        Turns (w.run front) (w.run (front ++ [event]))

/-- **Uncertain is exact.** With deliveries tracked throughout, in a run that
keeps an attempt's own result apart from what came before. -/
theorem uncertain_exactly {request : Request} {config : Config}
    {governance : Governance.Manager} {pool : Upstream.Pool} {events : List Event}
    (htrack : config.lifecycle.trackUncertainDelivery = true)
    (hkeeps : ∀ event ∈ events, KeepsTracking event)
    (hapart : Along step (fun w event => w.keepsApart event = true)
      (start request config governance pool) events) :
    UncertainExactly (start request config governance pool) events := by
  have hstart := clear_start request governance pool htrack
  have hclear {front : List Event} (hfront : Along step (fun w event =>
      KeepsTracking event ∧ w.keepsApart event = true) (start request config governance pool)
      front) : Clear ((start request config governance pool).run front) :=
    Along.invariant (fun w event hw hc => hw.step hc.1 hc.2) hstart hfront
  have htracking : Along step (fun _ event => KeepsTracking event)
      (start request config governance pool) events := Along.of_forall hkeeps
  have hall := htracking.and hapart
  refine ⟨fun front event rest heq hturns => ?_, fun n target result hin hlost => ?_⟩
  · rw [heq, Along.append] at hall
    have hfront := hclear hall.1
    obtain ⟨-, hstep⟩ := hall.2.1
    change ((start request config governance pool).run front).keepsApart event = true at hstep
    rw [run_concat] at hturns ⊢
    generalize (start request config governance pool).run front = w at *
    by_cases hevent : ∃ answer, event = .handler answer
    · obtain ⟨answer, rfl⟩ := hevent
      obtain ⟨result, hpoint, hlost⟩ := hfront.parked.of_turns hturns
      obtain ⟨-, target, hended⟩ := hfront.exact.pending result (by rw [hpoint]; rfl) hlost
      have hpersisted : answer.persisted = true := by simpa [keepsApart, hpoint, hlost] using hstep
      exact ⟨⟨target, result, hended, hlost⟩,
        (hfront.tracked.turns answer hfront.tracks.2 hpoint hlost).2 hpersisted⟩
    · have haloof := w.step_aloof event fun answer heq => hevent ⟨answer, heq⟩
      exact absurd (haloof.state.symm.trans hturns.2) hturns.1
  · rcases (hclear hall).exact.entered n target result hin hlost with huncertain | hpending
    · exact .inr (exists_turn hstart.tracked rfl huncertain)
    · exact .inl hpending

/-- An attempt is written and gets no response. -/
def lostResponse : List Event :=
  usual 10 ++ [.handler { exchange := .failed true false }] ++ usual 7

theorem uncertain_exactly_lostResponse :
    UncertainExactly (before {} everySecond) lostResponse ∧
      ((before {} everySecond).run lostResponse).entry.state = some .uncertain :=
  ⟨uncertain_exactly rfl (by simp [lostResponse, usual, stepsAt, KeepsTracking]) (by decide +kernel),
    by decide +kernel⟩

/-- A pool that gives up on a target after one failure. -/
def fragile : Upstream.UpstreamPoolConfig where
  circuit :=
    { enabled := true, minimumRequests := 1, failurePercent := 1, openDuration := minute,
      halfOpenMax := 1 }

/-- An attempt gets an error in response, and the next one finds no target. -/
def errorThenNone : List Event :=
  usual 10 ++ [.handler { exchange := .answered true ⟨500, 0⟩ [] {} }] ++ usual 7 ++ stepsAt second 11

/-- The attempts of a run that ended at a target. -/
def endings (w : World) : List Nat :=
  w.log.filterMap fun
    | .ended n _ _ => some n
    | _ => none

theorem mem_endings {w : World} {n : Nat} {target : Upstream.Target} {result : AttemptResult}
    (h : .ended n target result ∈ w.log) : n ∈ w.endings :=
  List.mem_filterMap.2 ⟨_, h, rfl⟩

/-- The second attempt wrote nothing, and makes the request uncertain. -/
theorem not_uncertain_exactly_errorThenNone :
    (before fragile everySecond).config.lifecycle.trackUncertainDelivery = true ∧
      ¬UncertainExactly (before fragile everySecond) (errorThenNone ++ stepsAt second 1) := by
  refine ⟨rfl, fun h => ?_⟩
  obtain ⟨⟨target, result, hended, -⟩, -⟩ := h.only errorThenNone (.handler { now := second }) [] rfl
    ⟨by decide +kernel, by decide +kernel⟩
  have hsecond : ((before fragile everySecond).run errorThenNone).handler.attempt ∉
      ((before fragile everySecond).run errorThenNone).endings := by decide +kernel
  exact hsecond (mem_endings hended)

end World

end RelayLifeline.Proxy
