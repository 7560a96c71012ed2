import RelayLifeline.Registry.Effects

/-!
# The policy and the number of a request

A policy that an operator sets on a waiting request counts its attempts from
the number the registry shows at that moment, and one that the handler
activates from the handler's own. So what a bound on the attempts rests on is
how each method treats the policy and the number, and that is said here.
-/

namespace RelayLifeline.Registry

open Timeline

namespace Entry

/-- The number of the attempt the registry shows. -/
def attempt (entry : Entry) : Option Nat := entry.request.map fun request => request.info.attempt

@[simp] theorem attempt_addEvent (entry : Entry) (event : Event) (persisted : Bool) :
    (entry.addEvent event persisted).1.attempt = entry.attempt := rfl

@[simp] theorem attempt_setPolicy (entry : Entry) (policy : Option RetryPolicy) :
    (entry.setPolicy policy).attempt = entry.attempt := by
  cases h : entry.request <;> simp [attempt, setPolicy, h]

theorem attempt_modifyInfo (entry : Entry) {f : RequestInfo → RequestInfo}
    (h : ∀ info, (f info).attempt = info.attempt) :
    (entry.modifyInfo f).attempt = entry.attempt := by
  cases hrequest : entry.request <;> simp [attempt, modifyInfo, hrequest, h]

@[simp] theorem attempt_recordEvent (entry : Entry) (event : Event) (persisted : Bool) :
    (entry.recordEvent event persisted).1.attempt = entry.attempt := by
  simp only [recordEvent, degrade]
  split
  · rfl
  · rw [attempt_modifyInfo]
    · rfl
    · intro info
      rfl

/-! ## What an operator's call makes of it -/

/-- The entry after a method an operator may call, up to one hold of the lock. -/
inductive Visited (entry : Entry) : Entry → Prop
  | same : Visited entry entry
  | retried (persisted : Bool) : Visited entry (entry.sendRetry persisted).1
  | applied (now : Int) (spec : RetryPolicySpec) (overwrite validate persisted : Bool) :
      Visited entry (entry.applyRetryPolicy now spec overwrite validate persisted).1
  | cleared (persisted : Bool) : Visited entry (entry.clearRetryPolicy persisted).1
  | signaled : Visited entry entry.signalPolicy
  | resolved (now : Int) (resolution : Resolution) (persisted : Bool) :
      Visited entry (entry.resolveUncertain now resolution persisted).1
  | compensated : Visited entry entry.sendCompensation
  | canceled (persisted : Bool) : Visited entry (entry.cancelChecked persisted).1

theorem attempt_applyRetryPolicy (entry : Entry) (now : Int) (spec : RetryPolicySpec)
    (overwrite validate persisted : Bool) :
    (entry.applyRetryPolicy now spec overwrite validate persisted).1.attempt = entry.attempt := by
  rw [applyRetryPolicy]
  split
  · rfl
  split
  · rfl
  split
  · rfl
  split
  · rfl
  · rw [attempt_addEvent, attempt_setPolicy]

theorem attempt_clearRetryPolicy (entry : Entry) (persisted : Bool) :
    (entry.clearRetryPolicy persisted).1.attempt = entry.attempt := by
  rw [clearRetryPolicy]
  split
  · rfl
  split
  · rfl
  split
  · rfl
  · rw [attempt_addEvent, attempt_setPolicy]

theorem attempt_resolveUncertain (entry : Entry) (now : Int) (resolution : Resolution)
    (persisted : Bool) :
    (entry.resolveUncertain now resolution persisted).1.attempt = entry.attempt := by
  rw [resolveUncertain]
  split
  · rfl
  split
  · rfl
  split
  · rfl
  extract_lets event added
  split
  · rw [attempt_modifyInfo]
    · exact attempt_recordEvent _ _ _
    · intro info
      rfl
  · exact attempt_recordEvent _ _ _

theorem attempt_cancelChecked (entry : Entry) (persisted : Bool) :
    (entry.cancelChecked persisted).1.attempt = entry.attempt := by
  rw [cancelChecked]
  split
  · rfl
  split
  · rfl
  split
  · exact attempt_recordEvent _ _ _
  · rfl

theorem Visited.attempt {entry entry' : Entry} (h : entry.Visited entry') :
    entry'.attempt = entry.attempt := by
  cases h with
  | same | signaled | compensated => rfl
  | retried persisted =>
    rw [sendRetry]
    split
    · rfl
    · rfl
  | applied now spec overwrite validate persisted => exact attempt_applyRetryPolicy _ _ _ _ _ _
  | cleared persisted => exact attempt_clearRetryPolicy _ _
  | resolved now resolution persisted => exact attempt_resolveUncertain _ _ _ _
  | canceled persisted => exact attempt_cancelChecked _ _

/-- A policy that is applied is active only on a request that waits, and then
counts from the attempt the registry shows. -/
theorem baseline_applyRetryPolicy (entry : Entry) (now : Int) (spec : RetryPolicySpec)
    (overwrite validate persisted : Bool) :
    (entry.applyRetryPolicy now spec overwrite validate persisted).1.retryPolicy =
        entry.retryPolicy ∨
      ∀ policy ∈ (entry.applyRetryPolicy now spec overwrite validate persisted).1.retryPolicy,
        policy.active = true → ∃ n ∈ entry.attempt, policy.baselineAttempt = n := by
  rw [applyRetryPolicy]
  split
  · exact .inl rfl
  split
  · exact .inl rfl
  next request hrequest =>
  split
  · exact .inl rfl
  split
  · exact .inl rfl
  right
  intro policy hpolicy hactive
  rw [retryPolicy_addEvent] at hpolicy
  rcases retryPolicy_setPolicy entry (some (policyFor request.info spec now)) with hset | hset
  · rw [hset, Option.mem_some_iff] at hpolicy
    rw [← hpolicy, policyFor] at hactive ⊢
    split at hactive
    · next hwaiting =>
      rw [if_pos hwaiting]
      exact ⟨request.info.attempt, by rw [Entry.attempt, hrequest]; rfl, rfl⟩
    · cases hactive
  · rw [hset] at hpolicy
    cases hpolicy

theorem Visited.policy {entry entry' : Entry} (h : entry.Visited entry') :
    entry'.retryPolicy = entry.retryPolicy ∨
      ∀ policy ∈ entry'.retryPolicy, policy.active = true →
        ∃ n ∈ entry.attempt, policy.baselineAttempt = n := by
  cases h with
  | same | signaled | compensated => exact .inl rfl
  | retried persisted =>
    left
    rw [sendRetry]
    split
    · rfl
    · rfl
  | applied now spec overwrite validate persisted =>
    exact entry.baseline_applyRetryPolicy now spec overwrite validate persisted
  | cleared persisted =>
    refine (entry.retryPolicy_clearRetryPolicy persisted).imp_right fun hnone => ?_
    intro policy hpolicy
    rw [hnone] at hpolicy
    cases hpolicy
  | resolved now resolution persisted =>
    exact .inl (entry.retryPolicy_resolveUncertain now resolution persisted)
  | canceled persisted => exact .inl (entry.retryPolicy_cancelChecked persisted)

/-- What `ActivateRetryPolicy` answers is the policy it leaves, which counts
from the attempt it is called for where it was not active before. -/
theorem activateRetryPolicy_spec (entry : Entry) (now : Int) (attempt : Nat) (persisted : Bool) :
    let activated := entry.activateRetryPolicy now attempt persisted
    activated.2 = activated.1.retryPolicy ∧ activated.1.attempt = entry.attempt ∧
      (activated.1.retryPolicy = entry.retryPolicy ∨
        ∀ policy ∈ activated.1.retryPolicy, policy.baselineAttempt = attempt) := by
  intro activated
  show activated.2 = activated.1.retryPolicy ∧ _
  simp only [activated, activateRetryPolicy]
  split
  · next hnone => exact ⟨hnone.symm, rfl, .inl rfl⟩
  next policy hpolicy =>
  split
  · exact ⟨hpolicy.symm, rfl, .inl rfl⟩
  · obtain ⟨request, hrequest, -⟩ := Option.bind_eq_some_iff.mp hpolicy
    have hset : (entry.setPolicy (some (policy.activate attempt now))).retryPolicy =
        some (policy.activate attempt now) := by
      simp [retryPolicy, setPolicy, hrequest]
    refine ⟨?_, ?_, .inr ?_⟩
    · rw [retryPolicy_addEvent, hset]
    · rw [attempt_addEvent, attempt_setPolicy]
    · intro policy' hpolicy'
      rw [retryPolicy_addEvent, hset, Option.mem_some_iff] at hpolicy'
      rw [← hpolicy']
      rfl

/-! ## What the handler makes of the number -/

/-- The policy stays, as long as the request does, and the number shown stays or
becomes the handler's own. -/
structure Kept (attempt : Nat) (entry entry' : Entry) : Prop where
  policy : entry'.retryPolicy = entry.retryPolicy ∨ entry'.request = none
  attempt : ∀ n ∈ entry'.attempt, n ∈ entry.attempt ∨ n = attempt

theorem Kept.refl (attempt : Nat) (entry : Entry) : Kept attempt entry entry :=
  ⟨.inl rfl, fun _ => .inl⟩

/-- The signals and the timeline do not matter here. -/
theorem Kept.of_request {attempt : Nat} {entry entry' entry'' : Entry}
    (h : Kept attempt entry entry') (hrequest : entry''.request = entry'.request) :
    Kept attempt entry entry'' := by
  refine ⟨h.policy.imp (fun hpolicy => ?_) fun hgone => ?_, fun n hn => h.attempt n ?_⟩
  · rwa [retryPolicy, hrequest]
  · rwa [hrequest]
  · rwa [Entry.attempt, hrequest] at hn

theorem retryPolicy_of_gone {entry : Entry} (h : entry.request = none) : entry.retryPolicy = none := by
  rw [retryPolicy, h]
  rfl

theorem attempt_of_gone {entry : Entry} (h : entry.request = none) : entry.attempt = none := by
  rw [Entry.attempt, h]
  rfl

theorem Kept.of_gone {attempt : Nat} {entry entry' : Entry} (h : entry'.request = none) :
    Kept attempt entry entry' := by
  refine ⟨.inr h, fun n hn => ?_⟩
  rw [attempt_of_gone h] at hn
  cases hn

theorem Kept.modifyInfo {attempt : Nat} {entry entry' : Entry} (h : Kept attempt entry entry')
    {f : RequestInfo → RequestInfo} (hf : ∀ info, (f info).attempt = info.attempt) :
    Kept attempt entry (entry'.modifyInfo f) := by
  refine ⟨h.policy.imp (fun hpolicy => ?_) fun hgone => ?_, fun n hn => h.attempt n ?_⟩
  · rwa [retryPolicy_modifyInfo]
  · rw [Entry.modifyInfo, hgone]
    rfl
  · rwa [attempt_modifyInfo _ hf] at hn

theorem Kept.recordEvent {attempt : Nat} {entry entry' : Entry} (h : Kept attempt entry entry')
    (event : Event) (persisted : Bool) :
    Kept attempt entry (entry'.recordEvent event persisted).1 := by
  have hadded : Kept attempt entry (entry'.addEvent event persisted).1 := h.of_request rfl
  simp only [Entry.recordEvent, degrade]
  split
  · exact hadded
  · refine hadded.modifyInfo ?_
    intro info
    rfl

theorem kept_remove (attempt : Nat) (entry : Entry) (outcome : Lifecycle.State) (persisted : Bool) :
    Kept attempt entry (entry.remove outcome persisted).1 := by
  simp only [remove]
  split
  · exact .refl _ _
  split
  · exact .of_gone rfl
  · have hpending : Kept attempt entry (entry.modifyInfo fun info =>
        { info with persistenceDegraded := true, persistencePending := true }) :=
      (Kept.refl attempt entry).modifyInfo fun _ => rfl
    exact hpending.of_request rfl

theorem kept_updateMessage (entry : Entry) (now : Int) (status : Lifecycle.State) (attempt : Nat)
    (message : String) (nextRetry : Int) :
    Kept attempt entry (entry.updateMessage now status attempt message nextRetry) := by
  refine ⟨.inl (retryPolicy_updateMessage _ _ _ _ _ _), fun n hn => ?_⟩
  cases hrequest : entry.request with
  | none => simp [Entry.attempt, updateMessage, modifyInfo, hrequest] at hn
  | some request =>
    simp only [Entry.attempt, updateMessage, modifyInfo, hrequest, Option.map_some,
      Option.mem_some_iff, RequestInfo.updateMessage] at hn ⊢
    split at hn
    · exact .inr hn.symm
    · exact .inl hn

/-- A move the table lists shows the handler's number. -/
theorem attempt_updateMessage {entry : Entry} {source status : Lifecycle.State}
    (hstate : entry.state = some source) (hvalid : Lifecycle.validateTransition source status = true)
    (now : Int) (attempt : Nat) (message : String) (nextRetry : Int) :
    (entry.updateMessage now status attempt message nextRetry).attempt = some attempt := by
  obtain ⟨request, hrequest, hsource⟩ := Option.map_eq_some_iff.mp hstate
  simp [Entry.attempt, updateMessage, modifyInfo, hrequest, RequestInfo.updateMessage, hsource,
    hvalid]

end Entry

end RelayLifeline.Registry
