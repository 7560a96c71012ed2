import RelayLifeline.Registry.Entry

/-!
# What the registry's methods change

A handler and its operators act on each other through five things: the state
and the resolution of the tracked request, the outcome its timeline is finished
with, and the two signals. Every method but a few leaves all five alone, and
the few are said here once.
-/

namespace RelayLifeline.Registry

open Lifecycle Timeline

namespace Entry

/-- Nothing a handler or an operator decides by has changed. -/
structure Alike (entry entry' : Entry) : Prop where
  state : entry'.state = entry.state
  resolution : entry'.resolution = entry.resolution
  finished : entry'.timeline.finished = entry.timeline.finished
  retryNow : entry'.retryNow = entry.retryNow
  policyChanged : entry'.policyChanged = entry.policyChanged

theorem Alike.refl (entry : Entry) : entry.Alike entry := ⟨rfl, rfl, rfl, rfl, rfl⟩

theorem Alike.trans {a b c : Entry} (h : a.Alike b) (h' : b.Alike c) : a.Alike c :=
  ⟨h'.state.trans h.state, h'.resolution.trans h.resolution, h'.finished.trans h.finished,
    h'.retryNow.trans h.retryNow, h'.policyChanged.trans h.policyChanged⟩

theorem addEvent_alike (entry : Entry) (event : Event) (persisted : Bool) :
    entry.Alike (entry.addEvent event persisted).1 :=
  ⟨rfl, rfl, by simp [addEvent], rfl, rfl⟩

/-- A change to what is tracked that keeps the state and the resolution. -/
theorem modifyInfo_alike (entry : Entry) {f : RequestInfo → RequestInfo}
    (hstate : ∀ info, (f info).state = info.state)
    (hresolution : ∀ info, (f info).uncertainResolution = info.uncertainResolution) :
    entry.Alike (entry.modifyInfo f) := by
  refine ⟨?_, ?_, rfl, rfl, rfl⟩
  · cases h : entry.request <;> simp [state, modifyInfo, h, hstate]
  · cases h : entry.request <;> simp [resolution, modifyInfo, h, hresolution]

theorem recordEvent_alike (entry : Entry) (event : Event) (persisted : Bool) :
    entry.Alike (entry.recordEvent event persisted).1 := by
  refine (entry.addEvent_alike event persisted).trans ?_
  simp only [recordEvent, degrade]
  split
  · exact .refl _
  · exact modifyInfo_alike _ (fun _ => rfl) fun _ => rfl

theorem setPolicy_alike (entry : Entry) (policy : Option RetryPolicy) :
    entry.Alike (entry.setPolicy policy) := by
  refine ⟨?_, ?_, rfl, rfl, rfl⟩
  · cases h : entry.request <;> simp [state, setPolicy, h]
  · cases h : entry.request <;> simp [resolution, setPolicy, h]

theorem activateRetryPolicy_alike (entry : Entry) (now : Int) (attempt : Nat) (persisted : Bool) :
    entry.Alike (entry.activateRetryPolicy now attempt persisted).1 := by
  simp only [activateRetryPolicy]
  split
  · exact .refl _
  · split
    · exact .refl _
    · exact (entry.setPolicy_alike _).trans (addEvent_alike _ _ _)

theorem applyRetryPolicy_alike (entry : Entry) (now : Int) (spec : RetryPolicySpec)
    (overwrite validate persisted : Bool) :
    entry.Alike (entry.applyRetryPolicy now spec overwrite validate persisted).1 := by
  simp only [applyRetryPolicy]
  split
  · exact .refl _
  · split
    · exact .refl _
    · split
      · exact .refl _
      · split
        · exact .refl _
        · exact (entry.setPolicy_alike _).trans (addEvent_alike _ _ _)

theorem clearRetryPolicy_alike (entry : Entry) (persisted : Bool) :
    entry.Alike (entry.clearRetryPolicy persisted).1 := by
  simp only [clearRetryPolicy]
  split
  · exact .refl _
  · split
    · exact .refl _
    · split
      · exact .refl _
      · exact (entry.setPolicy_alike _).trans (addEvent_alike _ _ _)

theorem cancelChecked_alike (entry : Entry) (persisted : Bool) :
    entry.Alike (entry.cancelChecked persisted).1 := by
  simp only [cancelChecked]
  split
  · exact .refl _
  · split
    · exact .refl _
    · split
      · exact recordEvent_alike _ _ _
      · exact .refl _

/-- `RetryNowChecked` passes its test only in the waiting state. -/
theorem retryable_ok {entry : Entry} {status : State} (h : entry.retryable = .ok status) :
    entry.state = some .waiting := by
  simp only [retryable] at h
  split at h
  · exact absurd h (by simp)
  · exact absurd h (by simp)
  · assumption
  · exact absurd h (by simp)

/-- `ResolveUncertain` is skipped and changes nothing that matters, or records a
first resolution of an uncertain request. -/
theorem resolveUncertain_cases (entry : Entry) (now : Int) (resolution : Resolution)
    (persisted : Bool) :
    let resolved := entry.resolveUncertain now resolution persisted
    (entry.Alike resolved.1 ∧ ∃ reason, resolved.2 = .error reason) ∨
      resolved.2 = .ok .uncertain ∧ entry.state = some .uncertain ∧ entry.resolution = none ∧
        resolved.1.state = some .uncertain ∧ resolved.1.resolution = some resolution ∧
        resolved.1.timeline.finished = entry.timeline.finished ∧
        resolved.1.retryNow = entry.retryNow ∧ resolved.1.policyChanged = entry.policyChanged := by
  simp only [resolveUncertain]
  cases hrequest : entry.request with
  | none => exact .inl ⟨.refl _, _, rfl⟩
  | some request =>
      dsimp only
      split
      · exact .inl ⟨.refl _, _, rfl⟩
      · split
        · exact .inl ⟨.refl _, _, rfl⟩
        · rename_i hstate hresolution
          have halike := entry.recordEvent_alike
            { type := resolution.event, attempt := request.info.attempt,
              category := "operator_decision", messageCode := resolution.messageCode } persisted
          split
          · have hsome : entry.state = some .uncertain := by
              simpa [state, hrequest] using hstate
            have hnone : entry.resolution = none := by
              simpa [Entry.resolution, hrequest] using hresolution
            refine .inr ⟨rfl, hsome, hnone, ?_, ?_, halike.finished, halike.retryNow,
              halike.policyChanged⟩
            · have := halike.state.trans hsome
              simpa [modifyInfo, state] using this
            · have := halike.state.trans hsome
              simp only [state, Option.map_eq_some_iff] at this
              obtain ⟨request', hrequest', -⟩ := this
              simp [modifyInfo, Entry.resolution, hrequest']
          · exact .inl ⟨halike, _, rfl⟩

/-- The state a request is in after a move to `status`, which may be refused. -/
def moveTo (status source : State) : State :=
  if validateTransition source status then status else source

theorem state_updateMessage (entry : Entry) (now : Int) (status : State) (attempt : Nat)
    (message : String) (nextRetry : Int) :
    (entry.updateMessage now status attempt message nextRetry).state =
      entry.state.map (moveTo status) := by
  cases hrequest : entry.request with
  | none => simp [state, updateMessage, modifyInfo, hrequest]
  | some request =>
      by_cases hvalid : validateTransition request.info.state status
      · simp [state, updateMessage, modifyInfo, hrequest, RequestInfo.updateMessage, hvalid, moveTo]
      · simp [state, updateMessage, modifyInfo, hrequest, RequestInfo.updateMessage, hvalid, moveTo]

/-- Only the way into `forwarding` touches a resolution, and only one that
asked for a compensation. -/
theorem resolution_updateMessage (entry : Entry) (now : Int) (status : State) (attempt : Nat)
    (message : String) (nextRetry : Int) :
    (entry.updateMessage now status attempt message nextRetry).resolution = entry.resolution ∨
      status = .forwarding ∧ entry.resolution = some .requestCompensation ∧
        (entry.updateMessage now status attempt message nextRetry).resolution = none := by
  cases hrequest : entry.request with
  | none => exact .inl (by simp [resolution, updateMessage, modifyInfo, hrequest])
  | some request =>
      by_cases hvalid : validateTransition request.info.state status
      · by_cases hforget : status = .forwarding ∧
            request.info.uncertainResolution = some .requestCompensation
        · obtain ⟨rfl, hcompensation⟩ := hforget
          refine .inr ⟨rfl, by simp [resolution, hrequest, hcompensation], ?_⟩
          simp [resolution, updateMessage, modifyInfo, hrequest, RequestInfo.updateMessage, hvalid,
            RequestInfo.forget, hcompensation]
        · refine .inl ?_
          simp [resolution, updateMessage, modifyInfo, hrequest, RequestInfo.updateMessage, hvalid,
            RequestInfo.forget, hforget]
      · refine .inl ?_
        simp [resolution, updateMessage, modifyInfo, hrequest, RequestInfo.updateMessage, hvalid]

/-- A move gives a request no resolution it did not have. -/
theorem mem_resolution_updateMessage {entry : Entry} {now : Int} {status : State} {attempt : Nat}
    {message : String} {nextRetry : Int} {resolution : Resolution}
    (h : resolution ∈
      (entry.updateMessage now status attempt message nextRetry).resolution) :
    resolution ∈ entry.resolution := by
  rcases entry.resolution_updateMessage now status attempt message nextRetry with heq |
    ⟨-, -, hnone⟩
  · exact heq ▸ h
  · simp [hnone] at h

@[simp] theorem timeline_updateMessage (entry : Entry) (now : Int) (status : State)
    (attempt : Nat) (message : String) (nextRetry : Int) :
    (entry.updateMessage now status attempt message nextRetry).timeline = entry.timeline := rfl

@[simp] theorem retryNow_updateMessage (entry : Entry) (now : Int) (status : State)
    (attempt : Nat) (message : String) (nextRetry : Int) :
    (entry.updateMessage now status attempt message nextRetry).retryNow = entry.retryNow := rfl

@[simp] theorem state_recordEvent (entry : Entry) (event : Event) (persisted : Bool) :
    (entry.recordEvent event persisted).1.state = entry.state :=
  (entry.recordEvent_alike event persisted).state

@[simp] theorem resolution_recordEvent (entry : Entry) (event : Event) (persisted : Bool) :
    (entry.recordEvent event persisted).1.resolution = entry.resolution :=
  (entry.recordEvent_alike event persisted).resolution

@[simp] theorem finished_recordEvent (entry : Entry) (event : Event) (persisted : Bool) :
    (entry.recordEvent event persisted).1.timeline.finished = entry.timeline.finished :=
  (entry.recordEvent_alike event persisted).finished

@[simp] theorem retryNow_recordEvent (entry : Entry) (event : Event) (persisted : Bool) :
    (entry.recordEvent event persisted).1.retryNow = entry.retryNow :=
  (entry.recordEvent_alike event persisted).retryNow

/-- An event that is written is found in the record of an open request. -/
theorem mem_recordEvent {entry : Entry} (event : Event) (hopen : entry.timeline.finished = none) :
    event ∈ (entry.recordEvent event true).1.timeline.events := by
  have hmem := entry.timeline.mem_applyEvent event
  simpa [recordEvent, addEvent, degrade, Record.add, hopen] using hmem

/-- `Remove` takes the request out or leaves its state alone. -/
theorem state_remove (entry : Entry) (outcome : State) (persisted : Bool) :
    (entry.remove outcome persisted).1.state = entry.state ∨
      (entry.remove outcome persisted).1.state = none := by
  simp only [remove]
  split
  · exact .inl rfl
  · split
    · exact .inr rfl
    · refine .inl ?_
      cases hrequest : entry.request <;> simp [state, modifyInfo, hrequest]

/-- A request that may go to the outcome is taken out, and its record is
finished with it. -/
theorem remove_persisted {entry : Entry} {status outcome : State}
    (hstate : entry.state = some status) (hvalid : validateTransition status outcome)
    (hfinished : entry.timeline.finished = none) :
    (entry.remove outcome true).1.state = none ∧
      (entry.remove outcome true).1.timeline.finished = some outcome ∧
      (entry.remove outcome true).1.resolution = none := by
  have hmoves : ¬∃ status ∈ entry.state, ¬validateTransition status outcome := by
    simp [hstate, hvalid]
  simp only [remove, if_neg hmoves, Record.finish, hfinished]
  exact ⟨rfl, rfl, rfl⟩

/-! ## The policy a request carries -/

@[simp] theorem retryPolicy_addEvent (entry : Entry) (event : Event) (persisted : Bool) :
    (entry.addEvent event persisted).1.retryPolicy = entry.retryPolicy := rfl

@[simp] theorem retryPolicy_modifyInfo (entry : Entry) (f : RequestInfo → RequestInfo) :
    (entry.modifyInfo f).retryPolicy = entry.retryPolicy := by
  cases h : entry.request <;> simp [retryPolicy, modifyInfo, h]

@[simp] theorem retryPolicy_recordEvent (entry : Entry) (event : Event)
    (persisted : Bool) : (entry.recordEvent event persisted).1.retryPolicy = entry.retryPolicy := by
  simp only [recordEvent, degrade]
  split
  · rfl
  · rw [retryPolicy_modifyInfo, retryPolicy_addEvent]

@[simp] theorem retryPolicy_updateMessage (entry : Entry) (now : Int) (status : State)
    (attempt : Nat) (message : String) (nextRetry : Int) :
    (entry.updateMessage now status attempt message nextRetry).retryPolicy = entry.retryPolicy :=
  retryPolicy_modifyInfo _ _

theorem retryPolicy_setPolicy (entry : Entry) (policy : Option RetryPolicy) :
    (entry.setPolicy policy).retryPolicy = policy ∨ (entry.setPolicy policy).retryPolicy = none := by
  cases h : entry.request with
  | none => exact .inr (by simp [retryPolicy, setPolicy, h])
  | some request => exact .inl (by simp [retryPolicy, setPolicy, h])

theorem retryPolicy_cancelChecked (entry : Entry) (persisted : Bool) :
    (entry.cancelChecked persisted).1.retryPolicy = entry.retryPolicy := by
  rw [cancelChecked]
  split
  · rfl
  split
  · rfl
  split
  · exact retryPolicy_recordEvent _ _ _
  · rfl

theorem retryPolicy_resolveUncertain (entry : Entry) (now : Int) (resolution : Resolution)
    (persisted : Bool) :
    (entry.resolveUncertain now resolution persisted).1.retryPolicy = entry.retryPolicy := by
  rw [resolveUncertain]
  split
  · rfl
  split
  · rfl
  split
  · rfl
  extract_lets event added
  split
  · rw [retryPolicy_modifyInfo, retryPolicy_recordEvent]
  · exact retryPolicy_recordEvent _ _ _

theorem retryPolicy_clearRetryPolicy (entry : Entry) (persisted : Bool) :
    (entry.clearRetryPolicy persisted).1.retryPolicy = entry.retryPolicy ∨
      (entry.clearRetryPolicy persisted).1.retryPolicy = none := by
  rw [clearRetryPolicy]
  split
  · exact .inl rfl
  split
  · exact .inl rfl
  split
  · exact .inl rfl
  · rw [retryPolicy_addEvent]
    exact .inr ((retryPolicy_setPolicy entry none).elim id id)

/-- A policy applied in good order counts from the operator's clock. -/
theorem retryPolicy_applyRetryPolicy (entry : Entry) (now : Int) (spec : RetryPolicySpec)
    (overwrite validate persisted : Bool) (hspec : validate = true ∨ 0 < spec.duration) :
    (entry.applyRetryPolicy now spec overwrite validate persisted).1.retryPolicy =
        entry.retryPolicy ∨
      ∀ policy ∈ (entry.applyRetryPolicy now spec overwrite validate persisted).1.retryPolicy,
        policy.active = true → now < policy.deadline := by
  rw [applyRetryPolicy]
  split
  · exact .inl rfl
  next hvalid =>
  have hduration : 0 < spec.duration := by
    rcases hspec with hvalidate | hduration
    · have hspec : spec.validate = true := by simpa [hvalidate] using hvalid
      simp only [RetryPolicySpec.validate, Bool.decide_and, Bool.and_eq_true,
        decide_eq_true_eq] at hspec
      exact Int.lt_of_lt_of_le (by decide) hspec.1
    · exact hduration
  split
  · exact .inl rfl
  next request _ =>
  split
  · exact .inl rfl
  split
  · exact .inl rfl
  right
  intro policy hpolicy hactive
  rw [retryPolicy_addEvent] at hpolicy
  have hset := retryPolicy_setPolicy entry (some (policyFor request.info spec now))
  rcases hset with hset | hset
  · rw [hset, Option.mem_some_iff] at hpolicy
    rw [← hpolicy, policyFor] at hactive ⊢
    split at hactive
    · next hwaiting =>
      rw [if_pos hwaiting]
      show now < now + spec.duration
      omega
    · cases hactive
  · rw [hset] at hpolicy
    cases hpolicy

end Entry

end RelayLifeline.Registry
