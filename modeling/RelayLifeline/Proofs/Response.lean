import RelayLifeline.Proxy.Effects

/-!
# One validated response

The heartbeat and the handler write to the same connection. The handler stops
the heartbeat and waits for it before every payload, and every exit that writes
one leaves no way back to a write. So the body is keepalives and then at most
one payload. Where a keepalive itself was cut short, nothing follows it, since
a writer that has failed takes no more.
-/

namespace RelayLifeline.Proxy

open Lib Lifecycle Registry

namespace Downstream

/-- Every turn of a delivery reads what it asks for, under a deadline that could
be set. -/
def Delivery.readable (delivery : Delivery) : Bool :=
  delivery.opened && delivery.reads.all fun read => !read.failed && read.deadline

/-- The keepalives of `n` beats. -/
def keepalives (streaming : Bool) (n : Nat) : List UInt8 :=
  (List.replicate n (keepalive streaming)).flatten

theorem keepalives_succ (streaming : Bool) (n : Nat) :
    keepalives streaming (n + 1) = keepalives streaming n ++ keepalive streaming := by
  simp [keepalives, List.replicate_succ']

variable {d : Downstream}

theorem copy_broken (rest : List UInt8) (reads : List Read) (h : d.broken = true) :
    (d.copy rest reads).1.broken = true := by
  induction reads generalizing d rest with
  | nil => simp [copy, write, h]
  | cons read reads ih =>
      simp only [copy]
      split
      · exact h
      · split
        · simp [write, h]
        · exact ih _ (by simp [write, h])

theorem deliver_broken (buffer : List UInt8) (delivery : Delivery) (h : d.broken = true) :
    (d.deliver buffer delivery).1.broken = true := by
  simp only [deliver]
  split
  · exact copy_broken buffer delivery.reads h
  · exact h

/-- A copy that stops early met a failed write, a failed read or a deadline that
could not be set. -/
theorem broken_of_copy {rest : List UInt8} {reads : List Read}
    (hreads : (reads.all fun read => !read.failed && read.deadline) = true)
    (h : (d.copy rest reads).2 = false) : (d.copy rest reads).1.broken = true := by
  induction reads generalizing d rest with
  | nil => simp [copy, write] at h
  | cons read reads ih =>
      simp only [List.all_cons, Bool.and_eq_true, Bool.not_eq_true'] at hreads
      obtain ⟨⟨hread, hdeadline⟩, hreads⟩ := hreads
      simp only [copy, hread, hdeadline, Bool.not_true, Bool.false_eq_true, and_false, if_false,
        Bool.or_false] at h ⊢
      split
      · rename_i hcut
        simp only [write, Bool.not_eq_true', decide_eq_false_iff_not, Nat.not_le] at hcut
        simp only [write, Bool.or_eq_true, decide_eq_true_eq]
        exact .inr hcut
      · rename_i hwhole
        rw [if_neg hwhole] at h
        exact ih hreads h

/-- What a delivery sends is the whole buffer, unless a write was cut short or
the buffer could not be read to its end. -/
theorem deliver_whole (buffer : List UInt8) (delivery : Delivery) :
    ∃ sent, sent <+: buffer ∧ (d.deliver buffer delivery).1.body = d.body ++ sent ∧
      (sent = buffer ∨ (d.deliver buffer delivery).1.broken = true ∨
        delivery.readable = false) := by
  obtain ⟨⟨sent, hsent, hbody, -⟩, -⟩ := d.deliver_spec buffer delivery
  refine ⟨sent, hsent, hbody, ?_⟩
  by_cases hreadable : delivery.readable = true
  · simp only [Delivery.readable, Bool.and_eq_true] at hreadable
    obtain ⟨hopened, hreads⟩ := hreadable
    simp only [deliver, hopened, if_true] at hbody ⊢
    obtain ⟨⟨copied, -, hcopied, hall⟩, -⟩ := d.copy_spec buffer delivery.reads
    obtain rfl : sent = copied := List.append_cancel_left (hbody.symm.trans hcopied)
    by_cases hend : (d.copy buffer delivery.reads).2 = true
    · exact .inl (hall hend)
    · exact .inr (.inl (broken_of_copy hreads (by simpa using hend)))
  · exact .inr (.inr (by simpa using hreadable))

/-! ## Framing -/

/-- Keepalives make no event of a stream. -/
theorem scanSSEData_keepalives (n : Nat) (rest : List UInt8) :
    scanSSEData (keepalives true n ++ rest) = scanSSEData rest := by
  induction n with
  | zero => rfl
  | succ n ih =>
      have hkeepalive : keepalive true = utf8 ": relay-lifeline keepalive" ++ [newline, newline] := by
        decide +kernel
      rw [keepalives, List.replicate_succ, List.flatten_cons, ← keepalives, hkeepalive,
        List.append_assoc, List.append_assoc]
      refine (scanSSEData_comment _ ?_ ?_ ?_).trans ih
      · decide +kernel
      · decide +kernel
      · decide +kernel

/-- Keepalives are whitespace before a JSON text. -/
theorem decodeJSON_keepalives {α : Type*} (value : List UInt8 → Option α) (n : Nat)
    (rest : List UInt8) : decodeJSON value (keepalives false n ++ rest) = decodeJSON value rest := by
  induction n with
  | zero => rfl
  | succ n ih =>
      have hkeepalive : keepalive false = [newline] := by decide +kernel
      rw [keepalives, List.replicate_succ, List.flatten_cons, ← keepalives, hkeepalive]
      exact (decodeJSON_newline value _).trans ih

/-- Neither does a keepalive that was cut short. -/
theorem scanSSEData_cut {cut : List UInt8} (h : cut <+: keepalive true) :
    scanSSEData cut = scanSSEData [] := by
  have hall : ∀ cut ∈ (keepalive true).inits, scanSSEData cut = scanSSEData [] := by
    decide +kernel
  exact hall cut ((List.mem_inits _ _).2 h)

theorem decodeJSON_cut {α : Type*} (value : List UInt8 → Option α) {cut : List UInt8}
    (h : cut <+: keepalive false) : decodeJSON value cut = decodeJSON value [] := by
  have hall : ∀ cut ∈ (keepalive false).inits, cut.dropWhile isJSONSpace = [] := by
    decide +kernel
  rw [decodeJSON, hall cut ((List.mem_inits _ _).2 h)]
  rfl

end Downstream

/-- The success a point is about to hand to the client, if nothing comes in
between. -/
def Point.success : Point → Option AttemptResult
  | .settle result | .judge result => if result.validation.success then some result else none
  | .releaseReservation result | .buffering result | .delivering result | .deliver result =>
      some result
  | _ => none

/-- The points that write to the client or open the connection to it. -/
def Point.speaking : Point → Bool
  | .evaluatePolicy | .admitContext | .startDownstream | .deliver _ | .fail _ | .stopHeartbeat =>
      true
  | _ => false

/-- The points before the connection is opened. -/
def Point.opening : Point → Bool
  | .evaluatePolicy | .admitContext | .startDownstream => true
  | _ => false

/-- The points after the last write. -/
def Point.answered : Point → Bool
  | .completed | .stopHeartbeat | .finish | .remove | .releaseDeferred | .returned => true
  | _ => false

/-- A success is the result of an exchange; an attempt without a target has
none. -/
theorem Point.success_of_leads {point point' : Point} {result : AttemptResult}
    (h : point.Leads point') (hsuccess : point'.success = some result) :
    point.success = some result ∨
      result.validation.success = true ∧ ∃ lease, point = .exchange lease := by
  cases h <;> simp_all [Point.success, unselectedResult]
  all_goals
    obtain ⟨hjudged, rfl⟩ := hsuccess
    exact hjudged

theorem Point.answered_of_leads {point point' : Point} (h : point.Leads point')
    (hanswered : point.answered = true) : point'.answered = true := by
  cases h <;> first | rfl | exact absurd hanswered (by simp [Point.answered])

theorem Point.opening_of_leads {point point' : Point} (h : point.Leads point')
    (hopen : point.opening = false) : point'.opening = false := by
  cases h <;> first | rfl | exact absurd hopen (by simp [Point.opening])

namespace World

/-! ## What a step does to the connection -/

/-- The points that do not speak leave the connection alone. -/
theorem handle_downstream (w : World) (a : Answer) (h : w.handler.point.speaking = false) :
    (w.handle a).downstream = w.downstream := by
  by_cases hcalling : w.handler.point.calling = true
  · obtain ⟨governance, pool, log, route, reservation, point, heq, -⟩ := w.handle_ahead a hcalling
    rw [heq]
  by_cases hquiet : w.handler.point.quiet = true
  · obtain ⟨entry, point, outcome, rescheduled, manual, heq⟩ := w.handle_aside a hquiet
    rw [heq]
  simp only [handle]
  cases hpoint : w.handler.point with
  | loop | remove => rfl
  | attemptStarted =>
      simp only [attemptStarted]
      split
      · rfl
      · rfl
  | classify result =>
      simp only [classify]
      split
      · rfl
      · split
        · rfl
        · rfl
  | reacquire resumeReason =>
      simp only [reacquire]
      split
      · rfl
      · rfl
      · split
        · rfl
        · rfl
  | releaseDeferred =>
      simp only [releaseDeferred]
      split
      · rfl
      · rfl
  | select | bindUpstream _ | beginAttempt _ | refused _ _ | exchange _ | settle _ | judge _
  | releaseReservation _ => simp [hpoint, Point.calling] at hcalling
  | acquire | pauseWait | retryGate | forwarding | buffering _ | delivering _ | completed
  | attemptFailed _ | awaitRetry _ | activatePolicy _ _ | holdUncertain _ _ _
  | manualWait _ _ _ | schedule _ _ _ | retryWait _ _ | checkDeadline _ _ | finish
  | returned => simp [hpoint, Point.quiet] at hquiet
  | evaluatePolicy | admitContext | startDownstream | deliver _ | fail _ | stopHeartbeat =>
      simp [hpoint, Point.speaking] at h

/-- Of everything else only the heartbeat touches the connection. -/
theorem step_downstream (w : World) (event : Event) (h : ∀ answer, event ≠ .handler answer) :
    (w.step event).downstream = w.downstream ∨
      (∃ beat, event = .heartbeat beat ∧
        (w.step event).downstream = (w.downstream.beat beat).1) ∨
      event = .heartbeatQuit ∧ (w.step event).downstream = w.downstream.quit := by
  cases event with
  | handler answer => exact absurd rfl (h answer)
  | heartbeat beat =>
      refine .inr (.inl ⟨beat, rfl, ?_⟩)
      simp only [step]
      split
      · rfl
      · obtain ⟨ctx, heq⟩ := onDisconnect_cases { w with downstream := (w.downstream.beat beat).1 }
        rw [heq]
  | heartbeatQuit => exact .inr (.inr ⟨rfl, rfl⟩)
  | disconnect =>
      obtain ⟨ctx, heq⟩ := w.onDisconnect_cases
      exact .inl (by simp only [step, heq])
  | applyRetryPolicy now spec overwrite validate persisted =>
      obtain ⟨senders, heq⟩ := w.policyAction_cases
        (w.entry.applyRetryPolicy now spec overwrite validate persisted)
      exact .inl (by simp only [step, heq])
  | clearRetryPolicy persisted =>
      obtain ⟨senders, heq⟩ := w.policyAction_cases (w.entry.clearRetryPolicy persisted)
      exact .inl (by simp only [step, heq])
  | resolveUncertain now resolution persisted =>
      simp only [step, resolveUncertain]
      split
      · exact .inl rfl
      · split <;> exact .inl rfl
  | retryNowChecked | sendRetry _ | signalPolicy | sendCompensation | cancelChecked _
  | sendCancel | govern _ | upstream _ =>
      simp only [step]
      split <;> exact .inl rfl
  | contextDone _ | pause | resume | configure _ | reload _ _ => exact .inl rfl

/-! ## The body -/

/-- A writer that failed a write takes no more. -/
def staysSilent (w : World) (event : Event) : Bool :=
  !w.downstream.broken || (w.step event).downstream.body = w.downstream.body

/-- The step delivers a buffer that it cannot read to the end. -/
def cutsDelivery (w : World) : Event → Bool
  | .handler a =>
      match w.handler.point with
      | .deliver _ => w.downstream.done && !a.delivery.readable
      | _ => false
  | _ => false

/-- What the client may get besides keepalives: nothing, the buffered bytes of an
attempt that was judged a success, or a failure envelope. Either may be cut short
by a failed write, and the bytes of an attempt also by `unread`. -/
inductive Answers (w : World) (unread : Prop) : List UInt8 → Prop
  | nothing : w.Answers unread []
  | response {n : Nat} {target : Upstream.Target} {result : AttemptResult}
      {buffer payload : List UInt8} (hended : .ended n target result ∈ w.log)
      (hsuccess : result.validation.success = true) (hbuffer : result.buffer = some buffer)
      (hsent : payload <+: buffer)
      (hwhole : payload = buffer ∨ w.downstream.broken = true ∨ unread) : w.Answers unread payload
  | failure (message : Message) {payload : List UInt8}
      (hsent : payload <+:
        Downstream.envelope w.downstream.streaming (w.request.quote (w.request.text message)))
      (hwhole : payload =
          Downstream.envelope w.downstream.streaming (w.request.quote (w.request.text message)) ∨
        w.downstream.broken = true) : w.Answers unread payload

/-- The success the handler holds came out of an attempt's exchange. -/
def Validated (w : World) : Prop :=
  ∀ result ∈ w.handler.point.success, result.validation.success = true ∧
    (∃ buffer, result.buffer = some buffer) ∧ ∃ n target, .ended n target result ∈ w.log

/-- The connection before it is opened, while the heartbeat runs, and after. -/
inductive Framed (unread : Prop) (w : World) : Prop
  | closed (hpoint : w.handler.point.opening = true)
      (hclosed : ∃ streaming, w.downstream = { streaming })
  | rejected (hpoint : w.handler.point = .returned) (hstarted : w.downstream.started = false)
  | alive (n : Nat) (hpoint : w.handler.point.opening = false)
      (hstarted : w.downstream.started = true) (hdone : w.downstream.done = false)
      (hbroken : w.downstream.broken = false)
      (hbody : w.downstream.body = Downstream.keepalives w.downstream.streaming n)
  | quiet (n : Nat) (cut payload : List UInt8) (hpoint : w.handler.point.opening = false)
      (hstarted : w.downstream.started = true) (hdone : w.downstream.done = true)
      (hbody : w.downstream.body =
        Downstream.keepalives w.downstream.streaming n ++ cut ++ payload)
      (hcut : cut = [] ∨ cut <+: Downstream.keepalive w.downstream.streaming ∧
        w.downstream.broken = true ∧ payload = [])
      (hpayload : payload = [] ∨ w.handler.point.answered = true)
      (hanswers : w.Answers unread payload)

variable {unread : Prop} {w w' : World}

theorem Answers.mono {payload : List UInt8} (h : w.Answers unread payload) (hlog : w.log ⊆ w'.log)
    (hrequest : w'.request = w.request) (hdown : w'.downstream = w.downstream) :
    w'.Answers unread payload := by
  cases h with
  | nothing => exact .nothing
  | response hended hsuccess hbuffer hsent hwhole =>
      exact .response (hlog hended) hsuccess hbuffer hsent (hdown ▸ hwhole)
  | failure message hsent hwhole =>
      rw [← hdown, ← hrequest] at hsent hwhole
      exact .failure message hsent hwhole

/-- A step that leaves the connection alone. -/
theorem Framed.of_same (h : Framed unread w) (hlog : w.log ⊆ w'.log)
    (hrequest : w'.request = w.request) (hdown : w'.downstream = w.downstream)
    (hopening : w'.handler.point.opening = w.handler.point.opening)
    (hanswered : w.handler.point.answered = true → w'.handler.point.answered = true)
    (hreturned : w.handler.point = .returned → w'.handler.point = .returned) :
    Framed unread w' := by
  cases h with
  | closed hpoint hclosed => exact .closed (hopening.trans hpoint) (hdown ▸ hclosed)
  | rejected hpoint hstarted => exact .rejected (hreturned hpoint) (hdown ▸ hstarted)
  | alive n hpoint hstarted hdone hbroken hbody =>
      rw [← hdown] at hstarted hdone hbroken hbody
      exact .alive n (hopening.trans hpoint) hstarted hdone hbroken hbody
  | quiet n cut payload hpoint hstarted hdone hbody hcut hpayload hanswers =>
      rw [← hdown] at hstarted hdone hbody hcut
      exact .quiet n cut payload (hopening.trans hpoint) hstarted hdone hbody hcut
        (hpayload.imp_right hanswered) (hanswers.mono hlog hrequest hdown)

/-- A beat sends a keepalive, or the heartbeat ends with it. -/
theorem Framed.beat (h : Framed unread w) (b : Downstream.Beat) (hlog : w.log ⊆ w'.log)
    (hrequest : w'.request = w.request) (hpoint : w'.handler.point = w.handler.point)
    (hdown : w'.downstream = (w.downstream.beat b).1) : Framed unread w' := by
  have hkept (heq : w'.downstream = w.downstream) : Framed unread w' :=
    h.of_same hlog hrequest heq (by rw [hpoint]) (by rw [hpoint]; exact id) (by rw [hpoint]; exact id)
  cases h with
  | closed _ hclosed =>
      obtain ⟨streaming, hclosed⟩ := hclosed
      exact hkept (by simp [hdown, hclosed, Downstream.beat])
  | rejected _ hstarted => exact hkept (by simp [hdown, hstarted, Downstream.beat])
  | quiet _ _ _ _ _ hdone => exact hkept (by simp [hdown, hdone, Downstream.beat])
  | alive n hopening hstarted hdone hbroken hbody =>
      simp only [Downstream.beat, hstarted, hdone, Bool.not_true, Bool.or_self,
        Bool.false_eq_true, if_false] at hdown
      by_cases hdeadline : b.deadline = true
      · simp only [hdeadline, if_true, Downstream.write] at hdown
        by_cases htaken : (Downstream.keepalive w.downstream.streaming).length ≤ b.taken
        · have hwhole : (Downstream.keepalive w.downstream.streaming).take b.taken =
              Downstream.keepalive w.downstream.streaming := List.take_of_length_le htaken
          have hbody' : w'.downstream.body =
              Downstream.keepalives w'.downstream.streaming (n + 1) := by
            rw [hdown, Downstream.keepalives_succ]
            simp only [hbody, hwhole]
          by_cases hok : (b.flushed && b.cleared) = true
          · refine .alive (n + 1) (hpoint ▸ hopening) ?_ ?_ ?_ hbody'
            · rw [hdown]
              exact hstarted
            · rw [hdown]
              simpa [htaken] using hok
            · rw [hdown]
              simpa [hbroken] using htaken
          · refine .quiet (n + 1) [] [] (hpoint ▸ hopening) ?_ ?_ ?_ (.inl rfl) (.inl rfl) .nothing
            · rw [hdown]
              exact hstarted
            · rw [Bool.not_eq_true] at hok
              simp only [hdown, htaken, decide_true, Bool.true_and, hok, Bool.not_false]
            · simpa using hbody'
        · refine .quiet n ((Downstream.keepalive w.downstream.streaming).take b.taken) []
            (hpoint ▸ hopening) ?_ ?_ ?_ (.inr ⟨?_, ?_, rfl⟩) (.inl rfl) .nothing
          · rw [hdown]
            exact hstarted
          · rw [hdown]
            simp [htaken]
          · rw [hdown]
            simp [hbody]
          · rw [hdown]
            exact List.take_prefix _ _
          · rw [hdown]
            simpa [hbroken] using htaken
      · simp only [hdeadline, Bool.false_eq_true, if_false, Bool.false_and, Bool.not_false] at hdown
        refine .quiet n [] [] (hpoint ▸ hopening) ?_ ?_ ?_ (.inl rfl) (.inl rfl) .nothing
        · rw [hdown]
          exact hstarted
        · rw [hdown]
        · rw [hdown]
          simpa using hbody

/-- The heartbeat sees the stop. -/
theorem Framed.quit (h : Framed unread w) (hlog : w.log ⊆ w'.log)
    (hrequest : w'.request = w.request) (hpoint : w'.handler.point = w.handler.point)
    (hdown : w'.downstream = w.downstream.quit) : Framed unread w' := by
  have hkept (heq : w'.downstream = w.downstream) : Framed unread w' :=
    h.of_same hlog hrequest heq (by rw [hpoint]) (by rw [hpoint]; exact id) (by rw [hpoint]; exact id)
  simp only [Downstream.quit] at hdown
  split at hdown
  · rename_i hstop
    cases h with
    | closed _ hclosed =>
        obtain ⟨streaming, hclosed⟩ := hclosed
        simp [hclosed] at hstop
    | rejected _ hstarted => simp [hstarted] at hstop
    | quiet _ _ _ _ _ hdone =>
        refine hkept (hdown.trans ?_)
        rw [← hdone]
    | alive n hopening hstarted hdone hbroken hbody =>
        refine .quiet n [] [] (hpoint ▸ hopening) ?_ ?_ ?_ (.inl rfl) (.inl rfl) .nothing
        · rw [hdown]
          exact hstarted
        · rw [hdown]
        · rw [hdown]
          simpa using hbody
  · exact hkept hdown

/-! ## A step of the handler -/

theorem Validated.handle (h : Validated w) (a : Answer) : Validated (w.handle a) := by
  intro result hresult
  have hlog : w.log ⊆ (w.handle a).log := w.log_subset_handle a
  have hkept (hheld : w.handler.point.success = some result) :
      result.validation.success = true ∧ (∃ buffer, result.buffer = some buffer) ∧
        ∃ n target, .ended n target result ∈ (w.handle a).log := by
    obtain ⟨hsuccess, hbuffer, n, target, hended⟩ := h result hheld
    exact ⟨hsuccess, hbuffer, n, target, hlog hended⟩
  rcases w.handle_leads a with heq | hleads
  · exact hkept (heq ▸ hresult)
  rcases Point.success_of_leads hleads hresult with hheld | ⟨hsuccess, lease, hpoint⟩
  · exact hkept hheld
  · simp only [World.handle, hpoint, World.exchange, note, goto, Option.mem_def, Point.success]
      at hresult ⊢
    split at hresult
    · obtain rfl := Option.some.inj hresult
      obtain ⟨wrote, response, body, validation, heq⟩ :=
        Exchange.answered_of_success hsuccess
      refine ⟨hsuccess, ⟨body, ?_⟩, w.handler.attempt, w.target lease,
        List.mem_append_right _ List.mem_cons_self⟩
      simp [runAttemptForTarget, runAttemptForBaseURL, heq]
    · simp at hresult

/-- The payload of a delivery, or what of it got out. -/
theorem Framed.deliver (h : Framed unread w) (hvalid : Validated w) (a : Answer)
    {result : AttemptResult} (hpoint : w.handler.point = .deliver result)
    (hunread : w.downstream.done = true → a.delivery.readable = false → unread)
    (hsilent : w.staysSilent (.handler a) = true) : Framed unread (w.deliver a result) := by
  have hsilent : w.downstream.broken = true →
      (w.deliver a result).downstream.body = w.downstream.body := by
    simpa [staysSilent, World.step, World.handle, hpoint, imp_iff_not_or] using hsilent
  cases h with
  | closed hopening => simp [hpoint, Point.opening] at hopening
  | rejected hreturned => simp [hpoint] at hreturned
  | alive n hopening hstarted hdone hbroken hbody =>
      simp only [World.deliver, hdone, Bool.false_eq_true, if_false]
      exact .alive n hopening hstarted hdone hbroken hbody
  | quiet n cut payload hopening hstarted hdone hbody hcut hpayload hanswers =>
      obtain rfl : payload = [] := hpayload.resolve_right (by simp [hpoint, Point.answered])
      obtain ⟨hsuccess, ⟨buffer, hbuffer⟩, k, target, hended⟩ := hvalid result (by rw [hpoint]; rfl)
      obtain ⟨-, hstreaming, hstarted', -, hdone'⟩ := w.downstream.deliver_spec buffer a.delivery
      obtain ⟨sent, hsent, hgrown, hwhole⟩ :=
        Downstream.deliver_whole (d := w.downstream) buffer a.delivery
      have hdown : (w.deliver a result).downstream =
          (w.downstream.deliver buffer a.delivery).1 := by
        simp only [World.deliver, hdone, hbuffer, Option.getD_some, if_true]
        split <;> rfl
      obtain ⟨hto, hopening', hlog⟩ : (w.deliver a result).handler.point.answered = true ∧
          (w.deliver a result).handler.point.opening = false ∧
          (w.deliver a result).log = w.log := by
        simp only [World.deliver, hdone, if_true]
        split
        · exact ⟨rfl, rfl, rfl⟩
        · exact ⟨rfl, rfl, rfl⟩
      rw [hdown] at hsilent
      by_cases hbroken : w.downstream.broken = true
      · obtain rfl : sent = [] := by simpa [hgrown] using hsilent hbroken
        refine .quiet n cut [] hopening' ?_ ?_ ?_ ?_ (.inl rfl) .nothing
        · rw [hdown, hstarted', hstarted]
        · rw [hdown, hdone', hdone]
        · rw [hdown, hgrown, hstreaming, hbody]
          simp
        · rw [hdown, hstreaming]
          exact hcut.imp_right fun hcut =>
            ⟨hcut.1, Downstream.deliver_broken buffer a.delivery hcut.2.1, rfl⟩
      · obtain rfl : cut = [] := hcut.resolve_right fun hcut => hbroken hcut.2.1
        refine .quiet n [] sent hopening' ?_ ?_ ?_ (.inl rfl) (.inr hto) ?_
        · rw [hdown, hstarted', hstarted]
        · rw [hdown, hdone', hdone]
        · rw [hdown, hgrown, hstreaming, hbody]
          simp
        · refine .response (hlog ▸ hended) hsuccess hbuffer hsent ?_
          rw [hdown]
          exact hwhole.imp_right (Or.imp_right (hunread hdone))

/-- A failure envelope, or what of it got out. -/
theorem Framed.fail (h : Framed unread w) (a : Answer) {message : Message}
    (hpoint : w.handler.point = .fail message)
    (hsilent : w.staysSilent (.handler a) = true) : Framed unread (w.fail a message) := by
  have hsilent : w.downstream.broken = true →
      (w.fail a message).downstream.body = w.downstream.body := by
    simpa [staysSilent, World.step, World.handle, hpoint, imp_iff_not_or] using hsilent
  cases h with
  | closed hopening => simp [hpoint, Point.opening] at hopening
  | rejected hreturned => simp [hpoint] at hreturned
  | alive n hopening hstarted hdone hbroken hbody =>
      simp only [World.fail, hdone, Bool.false_eq_true, if_false]
      exact .alive n hopening hstarted hdone hbroken hbody
  | quiet n cut payload hopening hstarted hdone hbody hcut hpayload hanswers =>
      obtain rfl : payload = [] := hpayload.resolve_right (by simp [hpoint, Point.answered])
      simp only [World.fail, if_pos hdone, Downstream.fail, Downstream.write] at hsilent ⊢
      generalize hquoted : w.request.quote (w.request.text message) = quoted at *
      by_cases hbroken : w.downstream.broken = true
      · refine .quiet n cut [] rfl hstarted hdone ((hsilent hbroken).trans hbody) ?_ (.inl rfl)
          .nothing
        · exact hcut.imp_right fun hcut => ⟨hcut.1, by simp [hbroken], rfl⟩
      · obtain rfl : cut = [] := hcut.resolve_right fun hcut => hbroken hcut.2.1
        refine .quiet n [] ((Downstream.envelope w.downstream.streaming quoted).take a.taken) rfl
          hstarted hdone ?_ (.inl rfl) (.inr rfl) ?_
        · simp [hbody]
        · refine .failure message (by simpa [hquoted] using List.take_prefix _ _) ?_
          by_cases hcut : a.taken < (Downstream.envelope w.downstream.streaming quoted).length
          · exact .inr (by simp [hcut])
          · exact .inl (by simpa [hquoted] using Nat.not_lt.1 hcut)

theorem Framed.stopHeartbeat (h : Framed unread w) (hpoint : w.handler.point = .stopHeartbeat) :
    Framed unread w.stopHeartbeat := by
  simp only [World.stopHeartbeat]
  split
  · exact h.of_same (List.Subset.refl _) rfl rfl (by simp [hpoint, Point.opening]) (fun _ => rfl)
      (by simp [hpoint])
  · rename_i hdone
    cases h with
    | closed hopening => simp [hpoint, Point.opening] at hopening
    | rejected hreturned => simp [hpoint] at hreturned
    | alive n hopening hstarted hdone hbroken hbody =>
        exact .alive n hopening hstarted hdone hbroken hbody
    | quiet n cut payload hopening hstarted hdone' => exact absurd hdone' hdone

/-- Nothing is written before the connection is opened, but to a request that is
turned away. -/
theorem Framed.open (h : Framed unread w) (a : Answer)
    (hpoint : w.handler.point.opening = true) : Framed unread (w.handle a) := by
  obtain ⟨streaming, hclosed⟩ : ∃ streaming, w.downstream = { streaming } := by
    cases h with
    | closed _ hclosed => exact hclosed
    | rejected hreturned => simp [hreturned, Point.opening] at hpoint
    | alive _ hopening => simp [hopening] at hpoint
    | quiet _ _ _ hopening => simp [hopening] at hpoint
  have hreject (status : Nat) (text : String) : Framed unread (w.reject a status text) :=
    .rejected rfl (by simp [World.reject, hclosed, Downstream.error])
  simp only [World.handle]
  cases hp : w.handler.point with
  | evaluatePolicy =>
      simp only [World.evaluatePolicy]
      split
      · exact hreject _ _
      · exact .closed rfl ⟨streaming, hclosed⟩
  | admitContext =>
      simp only [World.admitContext]
      generalize w.governance.admitWithContext a.clock a.requestCanceled a.reservationID
        { w.request.admission with upstream := w.handler.decision.targetID } = admitted
      split
      · exact .closed rfl ⟨streaming, hclosed⟩
      · split
        · exact .rejected rfl (by simp [World.reject, hclosed, Downstream.error])
        · exact .closed rfl ⟨streaming, hclosed⟩
  | startDownstream =>
      have halive {w' : World} (hopening : w'.handler.point = .acquire)
          (hdown : w'.downstream = w.downstream.start) : Framed unread w' :=
        .alive 0 (by rw [hopening]; rfl) (by rw [hdown]; rfl)
          (by rw [hdown, hclosed]; rfl) (by rw [hdown, hclosed]; rfl) (by rw [hdown, hclosed]; rfl)
      simp only [World.startDownstream]
      split
      · exact halive rfl rfl
      · obtain ⟨ctx, heq⟩ := onDisconnect_cases { w with
          downstream := w.downstream.start, handler.started := a.now, handler.point := .acquire }
        rw [heq]
        exact halive rfl rfl
  | acquire | loop | pauseWait | retryGate | forwarding | attemptStarted | select
  | bindUpstream _ | beginAttempt _ | refused _ _ | exchange _ | settle _ | judge _
  | releaseReservation _ | buffering _ | delivering _ | deliver _ | completed | classify _
  | attemptFailed _ | awaitRetry _ | activatePolicy _ _ | holdUncertain _ _ _
  | manualWait _ _ _ | schedule _ _ _ | retryWait _ _ | checkDeadline _ _ | reacquire _
  | fail _ | stopHeartbeat | finish | remove | releaseDeferred | returned =>
      simp [hp, Point.opening] at hpoint

theorem Framed.handle (h : Framed unread w) (hvalid : Validated w) (a : Answer)
    (hunread : w.cutsDelivery (.handler a) = true → unread)
    (hsilent : w.staysSilent (.handler a) = true) : Framed unread (w.handle a) := by
  have hlog : w.log ⊆ (w.handle a).log := w.log_subset_handle a
  by_cases hopening : w.handler.point.opening = true
  · exact h.open a hopening
  by_cases hspeaking : w.handler.point.speaking = true
  · match hpoint : w.handler.point with
    | .deliver result =>
        simp only [World.handle, hpoint]
        exact h.deliver hvalid a hpoint
          (fun hdone hcut => hunread (by simp [cutsDelivery, hpoint, hdone, hcut])) hsilent
    | .fail message =>
        simp only [World.handle, hpoint]
        exact h.fail a hpoint hsilent
    | .stopHeartbeat =>
        simp only [World.handle, hpoint]
        exact h.stopHeartbeat hpoint
    | .evaluatePolicy | .admitContext | .startDownstream => simp [hpoint, Point.opening] at hopening
    | .acquire | .loop | .pauseWait | .retryGate | .forwarding | .attemptStarted | .select
    | .bindUpstream _ | .beginAttempt _ | .refused _ _ | .exchange _ | .settle _ | .judge _
    | .releaseReservation _ | .buffering _ | .delivering _ | .completed | .classify _
    | .attemptFailed _ | .awaitRetry _ | .activatePolicy _ _ | .holdUncertain _ _ _
    | .manualWait _ _ _ | .schedule _ _ _ | .retryWait _ _ | .checkDeadline _ _ | .reacquire _
    | .finish | .remove | .releaseDeferred | .returned =>
        simp [hpoint, Point.speaking] at hspeaking
  · have hclosed : w.handler.point.opening = false := by simpa using hopening
    refine h.of_same hlog (w.handle_cfg a).1 (w.handle_downstream a (by simpa using hspeaking)) ?_ ?_
      fun hreturned => by simp [World.handle, hreturned]
    · rcases w.handle_leads a with heq | hleads
      · rw [heq]
      · rw [hclosed, Point.opening_of_leads hleads hclosed]
    · intro hanswered
      rcases w.handle_leads a with heq | hleads
      · rw [heq]
        exact hanswered
      · exact Point.answered_of_leads hleads hanswered

/-! ## Runs -/

theorem Framed.step (h : Framed unread w) (hvalid : Validated w) (event : Event)
    (hunread : w.cutsDelivery event = true → unread) (hsilent : w.staysSilent event = true) :
    Framed unread (w.step event) := by
  by_cases hevent : ∃ answer, event = .handler answer
  · obtain ⟨answer, rfl⟩ := hevent
    exact h.handle hvalid answer hunread hsilent
  · have hothers : ∀ answer, event ≠ .handler answer := fun answer heq => hevent ⟨answer, heq⟩
    have hout := w.step_outside event hothers
    have hlog : w.log ⊆ (w.step event).log := hout.log_subset
    have hpoint : (w.step event).handler.point = w.handler.point := by rw [hout.handler]
    rcases w.step_downstream event hothers with hdown | ⟨beat, -, hdown⟩ | ⟨-, hdown⟩
    · exact h.of_same hlog hout.request hdown (by rw [hpoint]) (by rw [hpoint]; exact id)
        (by rw [hpoint]; exact id)
    · exact h.beat beat hlog hout.request hpoint hdown
    · exact h.quit hlog hout.request hpoint hdown

theorem Validated.step (h : Validated w) (event : Event) : Validated (w.step event) := by
  by_cases hevent : ∃ answer, event = .handler answer
  · obtain ⟨answer, rfl⟩ := hevent
    exact h.handle answer
  · have hout := w.step_outside event fun answer heq => hevent ⟨answer, heq⟩
    intro result hresult
    rw [hout.handler] at hresult
    obtain ⟨hsuccess, hbuffer, n, target, hended⟩ := h result hresult
    exact ⟨hsuccess, hbuffer, n, target, hout.log_subset hended⟩

/-- Somewhere in the run a delivery could not read its buffer to the end. -/
def DeliveryCut (w : World) (events : List Event) : Prop :=
  ∃ front event rest, events = front ++ event :: rest ∧ (w.run front).cutsDelivery event = true

/-- Complete keepalives and at most one payload, which only a failed write cuts
short. -/
def SingleResponse (w : World) : Prop :=
  ∃ n payload, w.downstream.body = Downstream.keepalives w.downstream.streaming n ++ payload ∧
    w.Answers False payload

/-- The client reads the body as it reads the payload. -/
def ReadsAs (w : World) (payload : List UInt8) : Prop :=
  (w.downstream.streaming = false → ∀ (α : Type) (value : List UInt8 → Option α),
    decodeJSON value w.downstream.body = decodeJSON value payload) ∧
  (w.downstream.streaming = true → scanSSEData w.downstream.body = scanSSEData payload)

/-- Complete keepalives, and then either a last one that a failed write cut short
or at most one payload. -/
def Responds (w : World) (unread : Prop) : Prop :=
  ∃ n cut payload,
    w.downstream.body = Downstream.keepalives w.downstream.streaming n ++ cut ++ payload ∧
    (cut = [] ∨ cut <+: Downstream.keepalive w.downstream.streaming ∧
      w.downstream.broken = true ∧ payload = []) ∧
    w.Answers unread payload ∧ w.ReadsAs payload

/-- **Single validated response.** Once the connection is open, the body is
complete keepalives and at most one payload, or a last keepalive that a failed
write cut short, and the client reads the payload alone. A payload is cut short
only by a failed write, or by a delivery that could not read its buffer. -/
theorem responds {request : Request} {config : Config} {governance : Governance.Manager}
    {pool : Upstream.Pool} {events : List Event}
    (hsilent : Along step (fun w event => w.staysSilent event = true)
      (start request config governance pool) events)
    (hstarted : ((start request config governance pool).run events).downstream.started = true) :
    ((start request config governance pool).run events).Responds
      ((start request config governance pool).DeliveryCut events) := by
  have hcuts : Along step (fun w' event => w'.cutsDelivery event = true →
      (start request config governance pool).DeliveryCut events)
      (start request config governance pool) events :=
    Along.of_prefixes fun front event rest heq hcut => ⟨front, event, rest, heq, hcut⟩
  generalize (start request config governance pool).DeliveryCut events = unread at hcuts ⊢
  have hend : Validated ((start request config governance pool).run events) ∧
      Framed unread ((start request config governance pool).run events) :=
    Along.invariant (P := fun w => Validated w ∧ Framed unread w)
      (fun w event hw hc => ⟨hw.1.step event, hw.2.step hw.1 event hc.2 hc.1⟩)
      ⟨by simp [Validated, start, Point.success], .closed rfl ⟨_, rfl⟩⟩ (hsilent.and hcuts)
  generalize (start request config governance pool).run events = w at *
  have hframing (n : Nat) (payload : List UInt8) (hbody : w.downstream.body =
      Downstream.keepalives w.downstream.streaming n ++ payload) : w.ReadsAs payload := by
    refine ⟨fun hkind α value => ?_, fun hkind => ?_⟩
    · rw [hbody, hkind, Downstream.decodeJSON_keepalives]
    · rw [hbody, hkind, Downstream.scanSSEData_keepalives]
  cases hend.2 with
  | closed _ hclosed =>
      obtain ⟨streaming, hclosed⟩ := hclosed
      simp [hclosed] at hstarted
  | rejected _ hclosed => simp [hclosed] at hstarted
  | alive n _ _ _ _ hbody =>
      exact ⟨n, [], [], by simpa using hbody, .inl rfl, .nothing, hframing n [] (by simpa using hbody)⟩
  | quiet n cut payload _ _ _ hbody hcut _ hanswers =>
      refine ⟨n, cut, payload, hbody, hcut, hanswers, ?_⟩
      rcases hcut with rfl | ⟨hcontent, -, rfl⟩
      · exact hframing n payload (by simpa using hbody)
      · obtain ⟨hjson, hstream⟩ := hframing n cut (by simpa using hbody)
        refine ⟨fun hkind α value => ?_, fun hkind => ?_⟩
        · rw [hjson hkind, Downstream.decodeJSON_cut value (hkind ▸ hcontent)]
        · rw [hstream hkind, Downstream.scanSSEData_cut (hkind ▸ hcontent)]

/-- A streaming request before the relay. -/
def streamed : World :=
  start { streaming := true } everySecond { config := everySecond.governance }
    (Upstream.Pool.start ((Upstream.Manager.blank relay).apply {} relay).1)

/-- The stream `data: [DONE]`. -/
def doneStream : List UInt8 := [100, 97, 116, 97, 58, 32, 91, 68, 79, 78, 69, 93, 10, 10]

/-- A first attempt that is answered with that stream after these beats, up to
its delivery. -/
def answered (beats : List Event) : List Event :=
  usual 10 ++ beats ++
    [.handler { exchange := .answered true ⟨200, 0⟩ doneStream { success := true } }] ++
    usual 6 ++ [.heartbeatQuit]

theorem responds_answered :
    (streamed.run (answered [.heartbeat {}, .heartbeat {}] ++ usual 1)).Responds
        (streamed.DeliveryCut (answered [.heartbeat {}, .heartbeat {}] ++ usual 1)) ∧
      (streamed.run (answered [.heartbeat {}, .heartbeat {}] ++ usual 1)).downstream.body =
        Downstream.keepalives true 2 ++ doneStream :=
  ⟨responds (by decide +kernel) (by decide +kernel), by decide +kernel⟩

/-- The buffers of the attempts of a run. -/
def buffers (w : World) : List (Option (List UInt8)) :=
  w.log.filterMap fun
    | .ended _ _ result => some result.buffer
    | _ => none

/-- A body too short for a keepalive, which is neither the start of a failure
envelope nor a whole buffer, is no single response. -/
theorem not_singleResponse_of (hkind : w.downstream.streaming = true)
    (hne : w.downstream.body ≠ []) (hshort : w.downstream.body.length < 28)
    (hhead : w.downstream.body.head? ≠ some 101)
    (hbuffers : ∀ buffer ∈ w.buffers, buffer ≠ some w.downstream.body ∧ w.downstream.broken = false) :
    ¬w.SingleResponse := by
  intro hsingle
  obtain ⟨n, payload, hbody, hanswers⟩ := hsingle
  cases n with
  | succ n =>
      have hlong : (Downstream.keepalive true).length = 28 := by decide +kernel
      rw [hbody, hkind, Downstream.keepalives_succ] at hshort
      simp only [List.length_append, hlong] at hshort
      omega
  | zero =>
      obtain rfl : w.downstream.body = payload := by simpa [Downstream.keepalives] using hbody
      generalize hp : w.downstream.body = payload at *
      cases hanswers with
      | nothing => exact hne rfl
      | response hended hsuccess hbuffer hsent hwhole =>
          obtain ⟨hcut, hunbroken⟩ := hbuffers _ (List.mem_filterMap.2 ⟨_, hended, rfl⟩)
          rcases hwhole with rfl | hbroken | hfalse
          · exact hcut hbuffer
          · simp [hunbroken] at hbroken
          · exact hfalse
      | failure message hsent hwhole =>
          obtain ⟨rest, hrest⟩ := hsent
          refine hhead ?_
          have henvelope (quoted : String) :
              (Downstream.envelope true quoted).head? = some 101 := by
            simp only [Downstream.envelope, if_true, utf8_append, List.append_assoc]
            rw [List.head?_append_of_ne_nil _ (by decide +kernel)]
            decide +kernel
          rw [← henvelope, ← hkind, ← hrest, List.head?_append_of_ne_nil _ hne]

/-- A keepalive of which the connection takes five bytes. -/
def beatCutShort : List Event := usual 3 ++ [.heartbeat { taken := 5 }]

/-- A buffer whose reader fails after one byte. -/
def readCutShort : List Event :=
  answered [] ++ [.handler { delivery := { reads := [{ count := 1, failed := true }] } }]

/-- In both runs the writer takes nothing after a failed write, and the body is
no single response. -/
theorem not_singleResponse_cutShort :
    Along step (fun w event => w.staysSilent event = true) streamed beatCutShort ∧
      ¬(streamed.run beatCutShort).SingleResponse ∧
      Along step (fun w event => w.staysSilent event = true) streamed readCutShort ∧
      ¬(streamed.run readCutShort).SingleResponse :=
  ⟨by decide +kernel,
    not_singleResponse_of (by decide +kernel) (by decide +kernel) (by decide +kernel)
      (by decide +kernel) (by decide +kernel),
    by decide +kernel,
    not_singleResponse_of (by decide +kernel) (by decide +kernel) (by decide +kernel)
      (by decide +kernel) (by decide +kernel)⟩

end World

end RelayLifeline.Proxy
