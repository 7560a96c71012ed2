import RelayLifeline.Proofs.Limiter

/-!
# The order of admission

A waiter is admitted from the head of the queue only, so nobody overtakes there.
A call that enters does not look at the queue: where a permit has been released
and the head has not come to it yet, the call takes it. These are the only
calls that overtake.
-/

namespace RelayLifeline.Proxy

open Lib
open scoped List

namespace Callers

variable {limits : Limits} {s s' : Callers} {op : LimiterOp} {id : Nat} {call call' : Acquire}
  {l : Limiter}

/-- The call was granted a permit, or its context is done. -/
def settled (s : Callers) (id : Nat) : Bool :=
  s.calls[id]?.any fun call => call.stage.granted || call.done

/-- Whoever has been granted a permit found nobody in the queue who has not. -/
def InOrder (s : Callers) : Prop :=
  ∀ call ∈ s.calls, call.stage.granted = true → ∀ waiter ∈ call.ahead, s.settled waiter = true

instance : Decidable s.InOrder := inferInstanceAs (Decidable (∀ call ∈ s.calls, _ → _))

/-- A call that enters to a free permit finds nobody in the queue whose context
is not done. -/
def passesNone (limits : Limits) (s : Callers) : LimiterOp → Bool
  | .enter id =>
      !(s.stage id = some .entering && s.limiter.active < limits.maxActive) ||
        s.limiter.waiters.all fun waiter => s.calls[waiter]?.any Acquire.done
  | _ => true

/-! ## Settled calls -/

theorem granted_of_waits {stage : Stage} (h : stage.waits = true) : stage.granted = false := by
  cases stage with
  | looping | asleep | canceling => rfl
  | _ => cases h

theorem settled_iff : s.settled id = true ↔
    ∃ call ∈ s.calls[id]?, call.stage.granted = true ∨ call.done = true := by
  rw [settled, Option.any_eq_true]
  simp

/-- A call that is settled stays so. -/
theorem settled_move (hcall : s.calls[id]? = some call)
    (hmove : Moves limits id call s.limiter op call' l) {other : Nat}
    (h : s.settled other = true) : (⟨l, s.calls.set id call'⟩ : Callers).settled other = true := by
  obtain ⟨found, hfound, hsettled⟩ := settled_iff.1 h
  refine settled_iff.2 ?_
  show ∃ now ∈ (s.calls.set id call')[other]?, _
  rw [getElem?_set_call hcall]
  split
  · next heq =>
    rw [heq, hcall] at hfound
    rw [← Option.some.inj hfound] at hsettled
    refine ⟨call', rfl, ?_⟩
    cases hmove with
    | cancel => exact .inr rfl
    | grant | advance | release => exact .inl rfl
    | refuse hstage | queue hstage | sleep hstage | wake _ hstage | quit _ hstage
      | remove _ hstage =>
        rw [hstage] at hsettled
        exact .inr (hsettled.resolve_left Bool.false_ne_true)
  · exact ⟨found, hfound, hsettled⟩

theorem settled_push {other : Nat} (h : s.settled other = true) :
    (⟨s.limiter, s.calls ++ [({} : Acquire)]⟩ : Callers).settled other = true := by
  obtain ⟨found, hfound, hsettled⟩ := settled_iff.1 h
  refine settled_iff.2 ⟨found, ?_, hsettled⟩
  show (s.calls ++ _)[other]? = some found
  rw [List.getElem?_append_left (List.getElem?_eq_some_iff.1 hfound).1]
  exact hfound

/-! ## The line -/

/-- Whoever a waiter found in the queue is settled or in front of it still. -/
structure Lined (s : Callers) : Prop where
  canceling : ∀ call ∈ s.calls, ∀ changed, call.stage = .canceling changed → call.done = true
  ahead : ∀ id, ∀ call ∈ s.calls[id]?, call.stage.waits = true → ∀ waiter ∈ call.ahead,
    s.settled waiter = true ∨ [waiter, id] <+ s.limiter.waiters

/-- A pair in a queue whose head leaves it. -/
theorem pair_tail {first second head : Nat} {rest : List Nat}
    (h : [first, second] <+ head :: rest) :
    (first = head ∧ second ∈ rest) ∨ [first, second] <+ rest := by
  cases h with
  | cons _ hrest => exact .inr hrest
  | cons_cons _ hrest => exact .inl ⟨rfl, List.singleton_sublist.1 hrest⟩

theorem pair_erase {first second gone : Nat} {queue : List Nat} (h : [first, second] <+ queue)
    (hfirst : first ≠ gone) (hsecond : second ≠ gone) : [first, second] <+ queue.erase gone := by
  have herase : [first, second].erase gone = [first, second] :=
    List.erase_of_not_mem (by simp [hfirst.symm, hsecond.symm])
  rw [← herase]
  exact h.erase gone

/-- The line after a move, where the calls in it keep their places and the one
that moves takes the last, if any. -/
theorem Lined.set (h : s.Lined) (hcall : s.calls[id]? = some call)
    (hmove : Moves limits id call s.limiter op call' l)
    (hcanceling : ∀ changed, call'.stage = .canceling changed → call'.done = true)
    (hplace : ∀ waiter other, other ≠ id → [waiter, other] <+ s.limiter.waiters →
      (⟨l, s.calls.set id call'⟩ : Callers).settled waiter = true ∨ [waiter, other] <+ l.waiters)
    (hmoved : call'.stage.waits = true → ∀ waiter ∈ call'.ahead,
      (⟨l, s.calls.set id call'⟩ : Callers).settled waiter = true ∨ [waiter, id] <+ l.waiters) :
    (⟨l, s.calls.set id call'⟩ : Callers).Lined := by
  constructor
  · intro found hfound
    rcases mem_set_call hfound with rfl | hfound
    · exact hcanceling
    · exact h.canceling found hfound
  · intro other found hfound hwaits waiter hwaiter
    rw [getElem?_set_call hcall] at hfound
    split at hfound
    · next heq =>
      rw [heq]
      rw [← Option.some.inj hfound] at hwaits hwaiter
      exact hmoved hwaits waiter hwaiter
    · next hne =>
      rcases h.ahead other found hfound hwaits waiter hwaiter with hsettled | hpair
      · exact .inl (settled_move hcall hmove hsettled)
      · exact hplace waiter other hne hpair

/-- A move that changes neither the queue nor who the call found in it. -/
theorem Lined.keep (h : s.Lined) (hcall : s.calls[id]? = some call)
    (hmove : Moves limits id call s.limiter op call' l) (hwaiters : l.waiters = s.limiter.waiters)
    (hcanceling : ∀ changed, call'.stage = .canceling changed → call'.done = true)
    (hwaits : call'.stage.waits = true → call.stage.waits = true ∧ call'.ahead = call.ahead) :
    (⟨l, s.calls.set id call'⟩ : Callers).Lined := by
  refine h.set hcall hmove hcanceling ?_ ?_
  · intro waiter other _ hpair
    rw [hwaiters]
    exact .inr hpair
  · intro hnow waiter hwaiter
    obtain ⟨hwaited, hahead⟩ := hwaits hnow
    rw [hahead] at hwaiter
    rw [hwaiters]
    exact (h.ahead id call hcall hwaited waiter hwaiter).imp_left (settled_move hcall hmove)

theorem Lined.move (h : s.Lined) (htidy : s.Tidy) (hcall : s.calls[id]? = some call)
    (hmove : Moves limits id call s.limiter op call' l) :
    (⟨l, s.calls.set id call'⟩ : Callers).Lined := by
  have hcanceling := h.canceling call (List.mem_of_getElem? hcall)
  have hsettled : call'.stage.granted = true ∨ call'.done = true →
      (⟨l, s.calls.set id call'⟩ : Callers).settled id = true := by
    intro hcases
    refine settled_iff.2 ⟨call', ?_, hcases⟩
    show (s.calls.set id call')[id]? = some call'
    rw [getElem?_set_call hcall, if_pos rfl]
  have hkeep := h.keep hcall hmove
  have hset := h.set hcall hmove
  cases hmove with
  | cancel =>
      exact hkeep rfl (fun _ _ => rfl) fun hwaits => ⟨hwaits, rfl⟩
  | grant | refuse | release =>
      refine hkeep rfl ?_ ?_
      · intro _ heq
        cases heq
      · intro hwaits
        cases hwaits
  | sleep hstage _ | wake _ hstage =>
      refine hkeep rfl ?_ ?_
      · intro _ heq
        cases heq
      · intro _
        rw [hstage]
        exact ⟨rfl, rfl⟩
  | quit _ hstage hdone =>
      refine hkeep rfl (fun _ _ => hdone) ?_
      intro _
      rw [hstage]
      exact ⟨rfl, rfl⟩
  | queue hstage _ =>
      refine hset ?_ ?_ ?_
      · intro _ heq
        cases heq
      · intro waiter other _ hpair
        exact .inr (hpair.trans (List.sublist_append_left _ _))
      · intro _ waiter hwaiter
        exact .inr ((List.singleton_sublist.2 hwaiter).append (List.Sublist.refl [id]))
  | advance _ hhead _ =>
      refine hset ?_ ?_ ?_
      · intro _ heq
        cases heq
      · intro waiter other _ hpair
        rw [waiters_of_head hhead] at hpair
        rcases pair_tail hpair with ⟨rfl, -⟩ | hrest
        · exact .inl (hsettled (.inl rfl))
        · exact .inr hrest
      · intro hwaits
        cases hwaits
  | remove changed hstage =>
      have hmem : id ∈ s.limiter.waiters := by
        rw [htidy.mem_iff hcall, hstage]
        rfl
      refine hset ?_ ?_ ?_
      · intro _ heq
        cases heq
      · intro waiter other hne hpair
        rw [removeWaiter_of_mem hmem]
        by_cases heq : waiter = id
        · rw [heq]
          exact .inl (hsettled (.inr (hcanceling changed hstage)))
        · exact .inr (pair_erase hpair heq hne)
      · intro hwaits
        cases hwaits

/-! ## One step -/

/-- The first of the queue has nobody in front of it. -/
theorem settled_of_head (h : s.Lined) (htidy : s.Tidy) (hcall : s.calls[id]? = some call)
    (hwaits : call.stage.waits = true) (hhead : s.limiter.waiters.head? = some id) :
    ∀ waiter ∈ call.ahead, s.settled waiter = true := by
  intro waiter hwaiter
  rcases h.ahead id call hcall hwaits waiter hwaiter with hsettled | hpair
  · exact hsettled
  · exfalso
    have hnodup := htidy.nodup
    rw [waiters_of_head hhead] at hpair hnodup
    have hnot := (List.nodup_cons.1 hnodup).1
    rcases pair_tail hpair with ⟨-, hmem⟩ | hrest
    · exact hnot hmem
    · exact hnot (hrest.subset (by simp))

theorem InOrder.move (h : s.InOrder) (hlined : s.Lined) (htidy : s.Tidy)
    (hpasses : s.passesNone limits op = true) (hcall : s.calls[id]? = some call)
    (hmove : Moves limits id call s.limiter op call' l) :
    (⟨l, s.calls.set id call'⟩ : Callers).InOrder := by
  have hold : call.stage.granted = true → ∀ waiter ∈ call.ahead, s.settled waiter = true :=
    h call (List.mem_of_getElem? hcall)
  intro found hfound hgranted waiter hwaiter
  refine settled_move hcall hmove ?_
  rcases mem_set_call hfound with rfl | hfound
  · cases hmove with
    | cancel => exact hold hgranted waiter hwaiter
    | grant hstage hfree =>
        have hdone : s.calls[waiter]?.any Acquire.done = true := by
          have hentering : s.stage id = some .entering := by
            rw [stage, hcall, Option.map_some, hstage]
          simp only [passesNone, hentering, hfree, decide_true, Bool.and_self, Bool.not_true,
            Bool.false_or, List.all_eq_true] at hpasses
          exact hpasses waiter hwaiter
        obtain ⟨other, hother, hdone⟩ := (Option.any_eq_true _ _).1 hdone
        exact settled_iff.2 ⟨other, hother, .inr hdone⟩
    | advance hstage hhead _ =>
        refine settled_of_head hlined htidy hcall ?_ hhead waiter hwaiter
        rw [hstage]
        rfl
    | release hstage =>
        refine hold ?_ waiter hwaiter
        rw [hstage]
        rfl
    | refuse | queue | sleep | wake | quit | remove => cases hgranted
  · exact h found hfound hgranted waiter hwaiter

/-- What a run keeps whose calls pass nobody. -/
structure Served (s : Callers) : Prop where
  tidy : s.Tidy
  lined : s.Lined
  inOrder : s.InOrder

theorem served_start : ({} : Callers).Served := by
  refine ⟨tidy_start, ⟨?_, ?_⟩, ?_⟩
  · intro call hcall
    cases hcall
  · intro id call hcall
    cases hcall
  · intro call hcall
    cases hcall

theorem Served.push (h : s.Served) :
    (⟨s.limiter, s.calls ++ [({} : Acquire)]⟩ : Callers).Served := by
  refine ⟨h.tidy.push, ⟨?_, ?_⟩, ?_⟩
  · intro call hcall changed hstage
    rcases List.mem_append.1 hcall with hcall | hcall
    · exact h.lined.canceling call hcall changed hstage
    · rw [List.mem_singleton.1 hcall] at hstage
      cases hstage
  · intro id call hcall hwaits waiter hwaiter
    rcases getElem?_push_call id hcall with hcall | rfl
    · exact (h.lined.ahead id call hcall hwaits waiter hwaiter).imp_left settled_push
    · cases hwaits
  · intro call hcall hgranted waiter hwaiter
    rcases List.mem_append.1 hcall with hcall | hcall
    · exact settled_push (h.inOrder call hcall hgranted waiter hwaiter)
    · rw [List.mem_singleton.1 hcall] at hgranted
      cases hgranted

theorem Served.step (h : s.Served) (hpasses : s.passesNone limits op = true) :
    (s.step limits op).Served := by
  have hstep := steps_step limits s op
  revert hstep
  generalize s.step limits op = s'
  intro hstep
  cases hstep with
  | idle => exact h
  | call => exact h.push
  | move hcall hmove =>
      exact ⟨h.tidy.move hcall hmove, h.lined.move h.tidy hcall hmove,
        h.inOrder.move h.lined h.tidy hpasses hcall hmove⟩

/-- The call that enters, and the waiter it passes. -/
theorem exists_passed (h : s.passesNone limits op = false) :
    ∃ id call, op = .enter id ∧ s.calls[id]? = some call ∧ call.stage = .entering ∧
      s.limiter.active < limits.maxActive ∧
      ∃ waiter ∈ s.limiter.waiters, s.calls[waiter]?.any Acquire.done = false := by
  cases op with
  | enter id =>
      simp only [passesNone, Bool.or_eq_false_iff, Bool.not_eq_false', Bool.and_eq_true,
        decide_eq_true_eq, List.all_eq_false, Bool.not_eq_true] at h
      obtain ⟨⟨hstage, hfree⟩, hpassed⟩ := h
      rw [stage, Option.map_eq_some_iff] at hstage
      obtain ⟨call, hcall, hstage⟩ := hstage
      exact ⟨id, call, rfl, hcall, hstage, hfree, hpassed⟩
  | _ => cases h

theorem step_grant (hcall : s.calls[id]? = some call) (hstage : call.stage = .entering)
    (hfree : s.limiter.active < limits.maxActive) :
    s.step limits (.enter id) =
      ⟨{ s.limiter with active := s.limiter.active + 1 },
        s.calls.set id { call with ahead := s.limiter.waiters, stage := .holding }⟩ := by
  simp only [step, LimiterOp.id, hcall, act, if_pos hstage, enter, Limiter.enter, if_pos hfree,
    move]

/-- Whoever passes a waiter is granted a permit before it. -/
theorem not_inOrder_step (h : s.Served) (hpasses : s.passesNone limits op = false) :
    ¬(s.step limits op).InOrder := by
  obtain ⟨id, call, rfl, hcall, hstage, hfree, waiter, hwaiter, hdone⟩ := exists_passed hpasses
  obtain ⟨hlt, -⟩ := List.getElem?_eq_some_iff.1 hcall
  rw [step_grant hcall hstage hfree]
  intro hinOrder
  have hsettled := hinOrder _ (List.mem_set hlt _) rfl waiter hwaiter
  obtain ⟨found, hfound, hcases⟩ := settled_iff.1 hsettled
  obtain ⟨waiting, hwaiting, hwaits⟩ := (h.tidy.queued waiter).1 hwaiter
  rw [getElem?_set_call hcall] at hfound
  split at hfound
  · next heq =>
    rw [heq, hcall] at hwaiting
    rw [← Option.some.inj hwaiting, hstage] at hwaits
    cases hwaits
  · rw [Option.mem_def.1 hwaiting] at hfound hdone
    rw [Option.some.inj hfound] at hwaits
    rw [Option.some.inj hfound] at hdone
    rcases hcases with hgranted | hnow
    · rw [granted_of_waits hwaits] at hgranted
      cases hgranted
    · rw [Option.any_some, hnow] at hdone
      cases hdone

/-- Permits are granted in the order of the queue, in every state of a run,
exactly where no call of it enters to a free permit past a waiter whose context
is not done. -/
theorem inOrder_iff (limits : Limits) (ops : List LimiterOp) :
    (∀ front, front <+: ops → (run limits front).InOrder) ↔
      Along (step limits) (fun s op => s.passesNone limits op = true) {} ops := by
  refine Along.iff_prefixes (I := Served) ?_ ?_ ?_ served_start
  · intro s op h hpasses
    exact h.step hpasses
  · intro s op h hpasses
    exact not_inOrder_step h (Bool.eq_false_iff.2 hpasses)
  · intro s h
    exact h.inOrder

/-- The permit that is released goes to a call that comes after the waiter. -/
theorem overtaken :
    ¬(run ⟨1, 3⟩
      [.call, .call, .call, .enter 0, .enter 1, .loop 1, .release 0, .enter 2]).InOrder := by
  decide

end Callers

end RelayLifeline.Proxy
