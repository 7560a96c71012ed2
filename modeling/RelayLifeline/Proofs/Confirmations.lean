import RelayLifeline.Admin.Uncertain
import RelayLifeline.Lib.Trace
import RelayLifeline.Registry.Effects

/-!
# A resolution is confirmed once

A token goes one way: it is issued, it is in the store, a call takes it out, and
the resolution of that call is accepted or not. It is never in two of these
places at once, and it does not come back, for a token is issued once. That is
the first invariant, over the tokens, the calls and what has happened; an expiry
sweep only takes tokens out.

The second is over the requests. While a request is uncertain nothing takes its
resolution from it, so an accepted one stands in the way of another until the
request has left the state.
-/

namespace RelayLifeline.Admin

open Lib Lifecycle Timeline Registry

/-! ## Tokens -/

/-- The token the call has taken out. -/
def Stage.token? : Stage → Option String
  | .resolving _ _ payload _ => some payload.confirmationToken
  | _ => none

/-- The tokens a resolution was accepted with. -/
def used (log : List Happening) : List String := log.filterMap Happening.token?

/-- Every accepted resolution used a token issued before, for the same request,
action and actor, which had not expired. -/
def Backed (log : List Happening) : Prop :=
  ∀ after a before, log = after ++ .accepted a :: before → ∃ expiresAt,
    .issued ⟨a.token, a.requestID, a.action, a.actor, expiresAt⟩ ∈ before ∧ a.now < expiresAt

theorem Backed.issue {log : List Happening} {c : UncertainConfirmation} (h : Backed log) :
    Backed (.issued c :: log) := by
  intro after a before heq
  cases after with
  | nil => cases heq
  | cons x after =>
      simp only [List.cons_append, List.cons.injEq] at heq
      exact h after a before heq.2

theorem Backed.accept {log : List Happening} {a : Acceptance} {expiresAt : Int} (h : Backed log)
    (hissued : .issued ⟨a.token, a.requestID, a.action, a.actor, expiresAt⟩ ∈ log)
    (hexpires : a.now < expiresAt) : Backed (.accepted a :: log) := by
  intro after b before heq
  cases after with
  | nil =>
      simp only [List.nil_append, List.cons.injEq, Happening.accepted.injEq] at heq
      obtain ⟨rfl, rfl⟩ := heq
      exact ⟨expiresAt, hissued, hexpires⟩
  | cons x after =>
      simp only [List.cons_append, List.cons.injEq] at heq
      exact h after b before heq.2

/-- Where the tokens are. -/
structure Kept (tokens : Table UncertainConfirmation) (calls : Table Call) (log : List Happening) :
    Prop where
  stored : ∀ c ∈ tokens.items, .issued c ∈ log ∧ c.token ∉ used log
  held : ∀ call ∈ calls.items, ∀ requestID actor payload now,
    call.stage = .resolving requestID actor payload now →
      payload.confirmationToken ∉ used log ∧ tokens.get? payload.confirmationToken = none ∧
        ∃ expiresAt, now < expiresAt ∧
          .issued ⟨payload.confirmationToken, requestID, payload.action, actor, expiresAt⟩ ∈ log
  apart : ∀ call ∈ calls.items, ∀ call' ∈ calls.items, ∀ token, call.stage.token? = some token →
    call'.stage.token? = some token → call = call'
  backed : Backed log
  once : (used log).Nodup

variable {tokens tokens' : Table UncertainConfirmation} {calls calls' : Table Call}
  {log : List Happening}

/-- Tokens and calls may go. -/
theorem Kept.mono (h : Kept tokens calls log) (htokens : ∀ c ∈ tokens'.items, c ∈ tokens.items)
    (hcalls : ∀ call ∈ calls'.items, call ∈ calls.items ∨ call.stage.token? = none) :
    Kept tokens' calls' log := by
  have hold : ∀ call ∈ calls'.items, ∀ token, call.stage.token? = some token →
      call ∈ calls.items := by
    intro call hcall token htoken
    refine (hcalls call hcall).resolve_right fun hnone => ?_
    rw [hnone] at htoken
    cases htoken
  refine ⟨fun c hc => h.stored c (htokens c hc), ?_, ?_, h.backed, h.once⟩
  · intro call hcall requestID actor payload now hstage
    obtain ⟨hused, hnone, hissued⟩ :=
      h.held call (hold call hcall _ (by rw [hstage]; rfl)) _ _ _ _ hstage
    refine ⟨hused, Table.get?_eq_none.2 fun c hc => ?_, hissued⟩
    exact Table.get?_eq_none.1 hnone c (htokens c hc)
  · intro call hcall call' hcall' token htoken htoken'
    exact h.apart call (hold call hcall _ htoken) call' (hold call' hcall' _ htoken') token htoken
      htoken'

theorem Kept.goOn (h : Kept tokens calls log) (call : Nat) {stage : Stage}
    (hstage : stage.token? = none) : Kept tokens (calls.set ⟨call, stage⟩) log := by
  refine h.mono (fun _ hc => hc) fun c hc => ?_
  rcases Table.mem_set.1 hc with rfl | ⟨hc, -⟩
  · exact .inr hstage
  · exact .inl hc

theorem Kept.answer (h : Kept tokens calls log) (call : Nat) :
    Kept tokens (calls.erase call) log :=
  h.mono (fun _ hc => hc) fun _ hc => .inl (Table.mem_erase.1 hc).1

/-- A token that was not drawn before is issued. -/
theorem Kept.issue (h : Kept tokens calls log) {c : UncertainConfirmation}
    (hnew : ∀ c', .issued c' ∈ log → c'.token ≠ c.token) (now : Int) :
    Kept ((tokens.filter fun confirmation => now < confirmation.expiresAt).set c) calls
      (.issued c :: log) := by
  have hused : c.token ∉ used log := by
    intro hmem
    obtain ⟨e, he, htoken⟩ := List.mem_filterMap.1 hmem
    cases e with
    | issued => cases htoken
    | accepted a =>
        obtain ⟨after, before, heq⟩ := List.append_of_mem he
        obtain ⟨expiresAt, hissued, -⟩ := h.backed after a before heq
        have hissued : .issued ⟨a.token, a.requestID, a.action, a.actor, expiresAt⟩ ∈ log := by
          rw [heq]
          simp [hissued]
        exact hnew _ hissued (Option.some.inj htoken)
  refine ⟨?_, ?_, h.apart, h.backed.issue, h.once⟩
  · intro c' hc'
    rcases Table.mem_set.1 hc' with rfl | ⟨hc', -⟩
    · exact ⟨by simp, hused⟩
    · obtain ⟨hissued, hused'⟩ := h.stored c' (Table.mem_filter.1 hc').1
      exact ⟨by simp [hissued], hused'⟩
  · intro call hcall requestID actor payload now' hstage
    obtain ⟨hused', hnone, expiresAt, hexpires, hissued⟩ := h.held call hcall _ _ _ _ hstage
    refine ⟨hused', ?_, expiresAt, hexpires, by simp [hissued]⟩
    refine Table.get?_eq_none.2 fun c' hc' => ?_
    rcases Table.mem_set.1 hc' with rfl | ⟨hc', -⟩
    · exact fun heq => hnew _ hissued heq.symm
    · exact Table.get?_eq_none.1 hnone c' (Table.mem_filter.1 hc').1

/-- A call takes a token out. -/
theorem Kept.take (h : Kept tokens calls log) {c : UncertainConfirmation} {call : Nat} {now : Int}
    {requestID actor : String} {payload : UncertainResolutionPayload} (hc : c ∈ tokens.items)
    (htoken : c.token = payload.confirmationToken) (hrequest : c.requestID = requestID)
    (haction : c.action = payload.action) (hactor : c.actor = actor) (hexpires : now < c.expiresAt) :
    Kept (tokens.erase payload.confirmationToken)
      (calls.set ⟨call, .resolving requestID actor payload now⟩) log := by
  obtain ⟨hissued, hused⟩ := h.stored c hc
  have hget : tokens.get? payload.confirmationToken = some c :=
    Table.get?_eq_some.2 ⟨hc, htoken⟩
  -- the token is in the store, so no other call has it
  have hfree : ∀ call' ∈ calls.items, call'.stage.token? ≠ some payload.confirmationToken := by
    intro call' hcall' heq
    cases hstage : call'.stage with
    | resolving requestID' actor' payload' now' =>
        obtain ⟨-, hnone, -⟩ := h.held call' hcall' _ _ _ _ hstage
        rw [hstage] at heq
        rw [show payload'.confirmationToken = payload.confirmationToken from Option.some.inj heq,
          hget] at hnone
        cases hnone
    | _ => rw [hstage] at heq; cases heq
  refine ⟨?_, ?_, ?_, h.backed, h.once⟩
  · exact fun c' hc' => h.stored c' (Table.mem_erase.1 hc').1
  · intro call' hcall' requestID' actor' payload' now' hstage
    rcases Table.mem_set.1 hcall' with rfl | ⟨hcall', -⟩
    · cases hstage
      refine ⟨htoken ▸ hused, Table.get?_erase_self, c.expiresAt, hexpires, ?_⟩
      rw [← htoken, ← hrequest, ← haction, ← hactor]
      exact hissued
    · obtain ⟨hused', hnone, hissued'⟩ := h.held call' hcall' _ _ _ _ hstage
      refine ⟨hused', Table.get?_eq_none.2 fun c' hc' => ?_, hissued'⟩
      exact Table.get?_eq_none.1 hnone c' (Table.mem_erase.1 hc').1
  · intro a ha b hb token htoken htoken'
    rcases Table.mem_set.1 ha with rfl | ⟨ha, -⟩
    · cases htoken
      rcases Table.mem_set.1 hb with rfl | ⟨hb, -⟩
      · rfl
      · exact absurd htoken' (hfree b hb)
    · rcases Table.mem_set.1 hb with rfl | ⟨hb, -⟩
      · cases htoken'
        exact absurd htoken (hfree a ha)
      · exact h.apart a ha b hb token htoken htoken'

/-- The resolution of a call is accepted, and the call no longer resolves. -/
theorem Kept.accept (h : Kept tokens calls log) {call : Call} {now : Int} {episode : Nat}
    {requestID actor : String} {payload : UncertainResolutionPayload} (hcall : call ∈ calls.items)
    (hstage : call.stage = .resolving requestID actor payload now)
    (hcalls : ∀ c ∈ calls'.items, (c ∈ calls.items ∧ c.id ≠ call.id) ∨ c.stage.token? = none) :
    Kept tokens calls' (.accepted
      ⟨payload.confirmationToken, requestID, payload.action, actor, now, episode⟩ :: log) := by
  obtain ⟨hused, hnone, expiresAt, hexpires, hissued⟩ := h.held call hcall _ _ _ _ hstage
  have hold : ∀ c ∈ calls'.items, ∀ token, c.stage.token? = some token →
      c ∈ calls.items ∧ c.id ≠ call.id := by
    intro c hc token htoken
    refine (hcalls c hc).resolve_right fun hnone => ?_
    rw [hnone] at htoken
    cases htoken
  refine ⟨?_, ?_, ?_, h.backed.accept hissued hexpires, ?_⟩
  · intro c hc
    obtain ⟨hissued', hused'⟩ := h.stored c hc
    refine ⟨by simp [hissued'], ?_⟩
    simp only [used, List.filterMap_cons, Happening.token?, List.mem_cons, not_or]
    exact ⟨Table.get?_eq_none.1 hnone c hc, hused'⟩
  · intro c hc requestID' actor' payload' now' hstage'
    obtain ⟨hmem, hne⟩ := hold c hc _ (by rw [hstage']; rfl)
    obtain ⟨hused', hnone', expiresAt', hexpires', hissued'⟩ := h.held c hmem _ _ _ _ hstage'
    refine ⟨?_, hnone', expiresAt', hexpires', by simp [hissued']⟩
    simp only [used, List.filterMap_cons, Happening.token?, List.mem_cons, not_or]
    refine ⟨fun heq => hne ?_, hused'⟩
    rw [h.apart c hmem call hcall _ (by rw [hstage']; rfl) (by rw [hstage, heq]; rfl)]
  · intro a ha b hb token htoken htoken'
    exact h.apart a (hold a ha _ htoken).1 b (hold b hb _ htoken').1 token htoken htoken'
  · exact List.nodup_cons.2 ⟨hused, h.once⟩

/-! ## Requests -/

/-- While a request is uncertain, no method takes its resolution from it. -/
theorem Method.keeps_resolution (now : Int) (entry : Entry) (method : Method)
    (hbefore : entry.state = some .uncertain)
    (hafter : (method.apply now entry).state = some .uncertain) :
    (method.apply now entry).resolution = entry.resolution := by
  cases method with
  | updateMessage status attempt message nextRetry =>
      rcases entry.resolution_updateMessage now status attempt message nextRetry with
        heq | ⟨rfl, hcompensation, hnone⟩
      · exact heq
      · -- a request does not go from uncertain to forwarding
        obtain ⟨request, hrequest, hstate⟩ := Option.map_eq_some_iff.1 hbefore
        simp [Method.apply, Entry.updateMessage, Entry.modifyInfo, Entry.resolution, hrequest,
          RequestInfo.updateMessage, hstate, validateTransition, transitions]
  | remove outcome persisted =>
      simp only [Method.apply, Entry.remove] at hafter ⊢
      split
      · rfl
      · next hmoves =>
          rw [if_neg hmoves] at hafter
          split
          · next hfinished =>
              rw [if_pos hfinished] at hafter
              cases hafter
          · cases hrequest : entry.request <;> simp [Entry.resolution, Entry.modifyInfo, hrequest]
  | recordEvent event persisted => exact (entry.recordEvent_alike event persisted).resolution
  | cancelChecked persisted => exact (entry.cancelChecked_alike persisted).resolution
  | sendRetry persisted =>
      simp only [Method.apply, Entry.sendRetry]
      split
      · rfl
      · exact (Entry.addEvent_alike _ _ _).resolution
  | applyRetryPolicy spec overwrite validate persisted =>
      exact (entry.applyRetryPolicy_alike now spec overwrite validate persisted).resolution
  | clearRetryPolicy persisted => exact (entry.clearRetryPolicy_alike persisted).resolution
  | activateRetryPolicy attempt persisted =>
      exact (entry.activateRetryPolicy_alike now attempt persisted).resolution
  | takeRetry => rfl
  | takePolicyChanged => rfl

/-- The requests and the times they were uncertain that a resolution was accepted
for. -/
def resolved (log : List Happening) : List (String × Nat) := log.filterMap Happening.episode?

/-- Accepted resolutions are of earlier times, or of this one and still there. -/
structure Apart (requests : Table Tracked) (log : List Happening) : Prop where
  past : ∀ e ∈ resolved log, ∃ tracked, requests.get? e.1 = some tracked ∧
    e.2 ≤ tracked.episode ∧ (e.2 = tracked.episode → tracked.entry.state = some .uncertain →
      tracked.entry.resolution ≠ none)
  once : (resolved log).Nodup

variable {requests : Table Tracked} {tracked : Tracked} {entry : Entry}

theorem Apart.set (h : Apart requests log) (tracked' : Tracked)
    (hget : requests.get? tracked'.id = some tracked)
    (hepisode : tracked.episode ≤ tracked'.episode)
    (hkeeps : tracked'.episode = tracked.episode → tracked'.entry.state = some .uncertain →
      tracked.entry.state = some .uncertain ∧
        (tracked.entry.resolution ≠ none → tracked'.entry.resolution ≠ none)) :
    Apart (requests.set tracked') log := by
  refine ⟨fun e he => ?_, h.once⟩
  obtain ⟨old, hold, hle, hlast⟩ := h.past e he
  by_cases heq : e.1 = tracked'.id
  · rw [heq, hget] at hold
    cases hold
    refine ⟨tracked', by rw [heq]; exact Table.get?_set_self, by omega, fun hnow huncertain => ?_⟩
    obtain ⟨hwas, hkeep⟩ := hkeeps (by omega) huncertain
    exact hkeep (hlast (by omega) hwas)
  · exact ⟨old, by rw [Table.get?_set_of_ne heq]; exact hold, hle, hlast⟩

/-- Something becomes of a request that leaves its resolution while it is
uncertain. -/
theorem Apart.change (h : Apart requests log) (hget : requests.get? tracked.id = some tracked)
    (hkeeps : tracked.entry.state = some .uncertain → entry.state = some .uncertain →
      tracked.entry.resolution ≠ none → entry.resolution ≠ none) :
    Apart (requests.set (tracked.change entry)) log := by
  refine h.set (tracked.change entry) hget ?_ ?_
  · simp only [Tracked.change]
    split
    · omega
    · exact Nat.le_refl _
  · intro hsame huncertain
    simp only [Tracked.change] at hsame huncertain ⊢
    split at hsame
    · omega
    · next hstays =>
        have hwas : tracked.entry.state = some .uncertain := by
          by_contra hnot
          exact hstays ⟨huncertain, hnot⟩
        exact ⟨hwas, hkeeps hwas huncertain⟩

/-- A first resolution of this time is accepted. -/
theorem Apart.accept (h : Apart requests log) (entry : Entry) (hget : requests.get? tracked.id = some tracked)
    (hbefore : tracked.entry.state = some .uncertain) (hnone : tracked.entry.resolution = none)
    (hafter : entry.state = some .uncertain) (hsome : entry.resolution ≠ none)
    (token action actor : String) (now : Int) :
    Apart (requests.set (tracked.change entry))
      (.accepted ⟨token, tracked.id, action, actor, now, tracked.episode⟩ :: log) := by
  have hepisode : (tracked.change entry).episode = tracked.episode := by
    simp [Tracked.change, hafter, hbefore]
  have hset : Apart (requests.set (tracked.change entry)) log :=
    h.change hget fun _ _ hne => absurd hnone hne
  refine ⟨?_, ?_⟩
  · intro e he
    simp only [resolved, List.filterMap_cons, Happening.episode?, List.mem_cons] at he
    rcases he with rfl | he
    · exact ⟨_, Table.get?_set_self, hepisode.symm.le, fun _ _ => hsome⟩
    · exact hset.past e he
  · refine List.nodup_cons.2 ⟨fun hmem => ?_, h.once⟩
    obtain ⟨old, hold, -, hlast⟩ := h.past _ hmem
    rw [show requests.get? tracked.id = some old from hold] at hget
    cases hget
    exact hlast rfl hbefore hnone

/-! ## Runs -/

namespace Desk

/-- What holds wherever a run has been. -/
structure Consistent (s : Desk) : Prop where
  kept : Kept s.tokens s.calls s.log
  apart : Apart s.requests s.log

theorem Consistent.goOn {s : Desk} (h : s.Consistent) (call : Nat) {stage : Stage}
    (hstage : stage.token? = none) : (s.goOn call stage).Consistent :=
  ⟨h.kept.goOn call hstage, h.apart⟩

theorem Consistent.answer {s : Desk} (h : s.Consistent) (call : Nat) : (s.answer call).Consistent :=
  ⟨h.kept.answer call, h.apart⟩

theorem Consistent.preview {s : Desk} (h : s.Consistent) (call : Nat) (requestID actor : String)
    (payload : UncertainResolutionPayload) : (s.preview call requestID actor payload).Consistent := by
  simp only [Desk.preview]
  split
  · exact h
  · split
    · exact h
    · split
      · exact h
      · exact h.goOn call rfl

theorem Consistent.resolve {s : Desk} (h : s.Consistent) (call : Nat) (requestID actor : String)
    (payload : UncertainResolutionPayload) : (s.resolve call requestID actor payload).Consistent := by
  simp only [Desk.resolve]
  split
  · exact h
  · exact h.goOn call rfl

/-- Where `Consume` lets a call pass, the token was there for it. -/
theorem consume_ok {tokens : Table UncertainConfirmation} {now : Int}
    {token requestID action actor : String}
    (h : (consume tokens now token requestID action actor).2 = .ok ()) :
    ∃ c ∈ tokens.items, c.token = token ∧ c.requestID = requestID ∧ c.action = action ∧
      c.actor = actor ∧ now < c.expiresAt := by
  simp only [consume] at h
  split at h
  · cases h
  · next c hc =>
      split at h
      · cases h
      · next hmatches =>
          split at h
          · cases h
          · next hexpires =>
              simp only [not_or, ne_eq, not_not] at hmatches
              exact ⟨c, Table.mem_of_get? hc, Table.key_of_get? hc, hmatches.2.1, hmatches.2.2.1,
                hmatches.2.2.2, by simpa using hexpires⟩

theorem Consistent.resolveRequest {s : Desk} (h : s.Consistent) {call : Call}
    {requestID actor : String} {payload : UncertainResolutionPayload} {now : Int}
    (hcall : call ∈ s.calls.items) (hstage : call.stage = .resolving requestID actor payload now)
    (persisted : Bool) :
    (s.resolveRequest call.id requestID actor payload now persisted).Consistent := by
  simp only [Desk.resolveRequest]
  split
  · next tracked resolution hget _ =>
      have hid : tracked.id = requestID := Table.key_of_get? hget
      subst hid
      rcases tracked.entry.resolveUncertain_cases s.clock resolution persisted with
        ⟨halike, reason, herror⟩ | ⟨hok, hbefore, hnone, hafter, hsome, -⟩
      · simp only [herror]
        refine Consistent.answer (s := { s with requests := s.requests.set (tracked.change _) })
          ⟨h.kept, h.apart.change hget fun _ _ hne => ?_⟩ call.id
        rw [halike.resolution]
        exact hne
      · simp only [hok]
        have hapart := h.apart.accept
          (tracked.entry.resolveUncertain s.clock resolution persisted).1 hget hbefore hnone hafter (by simp [hsome]) payload.confirmationToken
          payload.action actor now
        split
        · refine ⟨h.kept.accept hcall hstage fun c hc => ?_, hapart⟩
          rcases Table.mem_set.1 hc with rfl | ⟨hc, hne⟩
          · exact .inr rfl
          · exact .inl ⟨hc, hne⟩
        · refine ⟨h.kept.accept hcall hstage fun c hc => .inl ?_, hapart⟩
          exact Table.mem_erase.1 hc
  · exact h.answer call.id

theorem Consistent.advance {s : Desk} (h : s.Consistent) {call : Call} (hcall : call ∈ s.calls.items)
    (draw : Option String) (persisted : Bool) : (s.advance call draw persisted).Consistent := by
  simp only [Desk.advance]
  split
  · split
    · exact h.answer call.id
    · exact h.goOn call.id rfl
  · split
    · exact h
    · next token =>
        split
        · exact h
        · next hnew =>
            refine Consistent.answer ⟨h.kept.issue ?_ _, ?_⟩ call.id
            · intro c hc heq
              exact hnew (List.mem_filterMap.2 ⟨_, hc, congrArg some heq⟩)
            · exact ⟨h.apart.past, h.apart.once⟩
  · next requestID actor payload now hstage =>
      cases hconsumed : (consume s.tokens now payload.confirmationToken requestID payload.action
        actor).2 with
      | error error =>
          have hspent : Kept (consume s.tokens now payload.confirmationToken requestID
              payload.action actor).1 s.calls s.log :=
            h.kept.mono (fun c hc => (Table.mem_erase.1 hc).1) fun c hc => .inl hc
          exact ⟨hspent.answer call.id, h.apart⟩
      | ok =>
          obtain ⟨c, hc, htoken, hrequest, haction, hactor, hexpires⟩ := consume_ok hconsumed
          exact ⟨h.kept.take hc htoken hrequest haction hactor hexpires, h.apart⟩
  · next requestID actor payload now hstage =>
      exact h.resolveRequest hcall hstage persisted
  · next requestID _ =>
      split
      · exact h.answer call.id
      · next tracked hget =>
          refine ⟨h.kept.answer call.id, h.apart.change ?_ fun _ _ hne => hne⟩
          rw [show tracked.id = requestID from Table.key_of_get? hget]
          exact hget

theorem Consistent.step {s : Desk} (h : s.Consistent) (i : Input) : (s.step i).Consistent := by
  cases i with
  | tick elapsed => exact ⟨h.kept, h.apart⟩
  | start requestID =>
      simp only [Desk.step]
      split
      · exact h
      · next hnew =>
          refine ⟨h.kept, fun e he => ?_, h.apart.once⟩
          obtain ⟨tracked, hget, hlast⟩ := h.apart.past e he
          refine ⟨tracked, ?_, hlast⟩
          rw [Table.get?_set_of_ne]
          · exact hget
          · rintro (heq : e.1 = requestID)
            rw [heq] at hget
            simp [hget] at hnew
  | method requestID method =>
      simp only [Desk.step]
      split
      · exact h
      · next tracked hget =>
          refine ⟨h.kept, h.apart.change ?_ fun hbefore hafter hne => ?_⟩
          · rw [show tracked.id = requestID from Table.key_of_get? hget]
            exact hget
          · rw [method.keeps_resolution s.clock tracked.entry hbefore hafter]
            exact hne
  | preview call requestID actor payload =>
      simp only [Desk.step]
      split
      · exact h
      · exact h.preview call requestID actor payload
  | resolve call requestID actor payload =>
      simp only [Desk.step]
      split
      · exact h
      · exact h.resolve call requestID actor payload
  | advance call draw persisted =>
      simp only [Desk.step]
      split
      · exact h
      · next call hcall => exact h.advance (Table.mem_of_get? hcall) draw persisted

/-- Wherever a run has been, each resolution that was accepted took a token that
a preview had been given for the same request, action and actor and that had not
expired; no token was taken by two; and no request had two accepted for one time
it was uncertain. -/
theorem run_accepted (clock : Int) (is : List Input) :
    let s := run { clock := clock } is
    (∀ after a before, s.log = after ++ .accepted a :: before → ∃ expiresAt,
      .issued ⟨a.token, a.requestID, a.action, a.actor, expiresAt⟩ ∈ before ∧ a.now < expiresAt) ∧
    (s.log.filterMap Happening.token?).Nodup ∧
    (s.log.filterMap Happening.episode?).Nodup := by
  intro s
  have hstart : Consistent { clock := clock } := by
    refine ⟨⟨by simp, by simp, by simp, ?_, List.nodup_nil⟩, by simp [resolved], List.nodup_nil⟩
    intro after a before heq
    cases after <;> cases heq
  have hend : s.Consistent := foldl_invariant (P := Consistent) (fun _ i h => h.step i) hstart is
  exact ⟨hend.kept.backed, hend.kept.once, hend.apart.once⟩

end Desk

end RelayLifeline.Admin
