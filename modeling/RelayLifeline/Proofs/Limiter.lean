import RelayLifeline.Proxy.Limiter

/-!
# Permits and wakeups

A step moves one call from a stage to another and changes the limiter to match.
Wherever it could make a permit free for the head of the queue, or another
waiter the head, it closes the channel that every sleeper has sampled. So a
waiter that could be admitted is never asleep for good.
-/

namespace RelayLifeline.Proxy

open Lib

/-- The moves of a call `id` whose stage allows them. -/
inductive Moves (limits : Limits) (id : Nat) (call : Acquire) (l : Limiter) :
    LimiterOp → Acquire → Limiter → Prop where
  | cancel : Moves limits id call l (.cancel id) { call with done := true } l
  | grant (hstage : call.stage = .entering) (hfree : l.active < limits.maxActive) :
      Moves limits id call l (.enter id) { call with ahead := l.waiters, stage := .holding }
        { l with active := l.active + 1 }
  | refuse (hstage : call.stage = .entering) (hfull : limits.maxActive ≤ l.active) :
      Moves limits id call l (.enter id) { call with ahead := l.waiters, stage := .refused } l
  | queue (hstage : call.stage = .entering) (hfull : limits.maxActive ≤ l.active) :
      Moves limits id call l (.enter id) { call with ahead := l.waiters, stage := .looping }
        { l with waiters := l.waiters ++ [id] }
  | advance (hstage : call.stage = .looping) (hhead : l.waiters.head? = some id)
      (hfree : l.active < limits.maxActive) :
      Moves limits id call l (.loop id) { call with stage := .holding }
        ⟨l.active + 1, l.waiters.tail, l.changed + 1⟩
  | sleep (hstage : call.stage = .looping)
      (hwaits : l.active < limits.maxActive → l.waiters.head? ≠ some id) :
      Moves limits id call l (.loop id) { call with stage := .asleep l.changed } l
  | wake (changed : Nat) (hstage : call.stage = .asleep changed) :
      Moves limits id call l (.wake id) { call with stage := .looping } l
  | quit (changed : Nat) (hstage : call.stage = .asleep changed) (hdone : call.done = true) :
      Moves limits id call l (.quit id) { call with stage := .canceling changed } l
  | remove (changed : Nat) (hstage : call.stage = .canceling changed) :
      Moves limits id call l (.remove id) { call with stage := .canceled } (l.removeWaiter id)
  | release (hstage : call.stage = .holding) :
      Moves limits id call l (.release id) { call with stage := .released } l.release

/-- Everything a step can do. -/
inductive Steps (limits : Limits) (s : Callers) : LimiterOp → Callers → Prop where
  | idle (op : LimiterOp) : Steps limits s op s
  | call : Steps limits s .call ⟨s.limiter, s.calls ++ [({} : Acquire)]⟩
  | move {id : Nat} {call call' : Acquire} {op : LimiterOp} {l : Limiter}
      (hcall : s.calls[id]? = some call) (hmove : Moves limits id call s.limiter op call' l) :
      Steps limits s op ⟨l, s.calls.set id call'⟩

namespace Callers

variable {limits : Limits} {s s' : Callers} {op : LimiterOp} {id : Nat} {call call' : Acquire}
  {l : Limiter}

theorem steps_enter (hcall : s.calls[id]? = some call) (hstage : call.stage = .entering) :
    Steps limits s (.enter id) (s.enter limits id call) := by
  rw [enter, Limiter.enter]
  split
  · next hfree => exact .move hcall (.grant hstage hfree)
  · next hfull =>
    split
    · exact .move hcall (.refuse hstage (Int.not_lt.1 hfull))
    · exact .move hcall (.queue hstage (Int.not_lt.1 hfull))

theorem steps_loop (hcall : s.calls[id]? = some call) (hstage : call.stage = .looping) :
    Steps limits s (.loop id) (s.loop limits id call) := by
  rw [loop, Limiter.loop]
  split
  · next hadmit => exact .move hcall (.advance hstage hadmit.1 hadmit.2)
  · next hwaits =>
    exact .move hcall (.sleep hstage fun hfree hhead => hwaits ⟨hhead, hfree⟩)

theorem steps_act (hcall : s.calls[id]? = some call) (hid : op.id = some id) :
    Steps limits s op (s.act limits id call op) := by
  cases op with
  | call => cases hid
  | cancel =>
      cases hid
      exact .move hcall .cancel
  | enter =>
      cases hid
      rw [act]
      split
      · next hstage => exact steps_enter hcall hstage
      · exact .idle _
  | loop =>
      cases hid
      rw [act]
      split
      · next hstage => exact steps_loop hcall hstage
      · exact .idle _
  | wake =>
      cases hid
      rw [act]
      split
      · next changed hstage =>
        split
        · exact .move hcall (.wake changed hstage)
        · exact .idle _
      · exact .idle _
  | quit =>
      cases hid
      rw [act]
      split
      · next changed hstage =>
        split
        · next hdone => exact .move hcall (.quit changed hstage hdone)
        · exact .idle _
      · exact .idle _
  | remove =>
      cases hid
      rw [act]
      split
      · next changed hstage => exact .move hcall (.remove changed hstage)
      · exact .idle _
  | release =>
      cases hid
      rw [act]
      split
      · next hstage => exact .move hcall (.release hstage)
      · exact .idle _

theorem steps_step (limits : Limits) (s : Callers) (op : LimiterOp) :
    Steps limits s op (s.step limits op) := by
  rw [step]
  split
  · next hid =>
    cases op with
    | call => exact .call
    | _ => cases hid
  · next id hid =>
    split
    · exact .idle op
    · next call hcall => exact steps_act hcall hid

/-! ## The calls after a step -/

theorem getElem?_set_call (hcall : s.calls[id]? = some call) (call' : Acquire) (other : Nat) :
    (s.calls.set id call')[other]? = if other = id then some call' else s.calls[other]? := by
  obtain ⟨hlt, -⟩ := List.getElem?_eq_some_iff.1 hcall
  rw [List.getElem?_set, if_pos hlt]
  simp only [eq_comm]

theorem mem_set_call (h : call ∈ s.calls.set id call') : call = call' ∨ call ∈ s.calls :=
  (List.mem_or_eq_of_mem_set h).symm

theorem getElem?_push_call (other : Nat) (h : (s.calls ++ [({} : Acquire)])[other]? = some call) :
    s.calls[other]? = some call ∨ call = {} := by
  rw [List.getElem?_append] at h
  split at h
  · exact .inl h
  · rw [List.getElem?_singleton] at h
    split at h
    · exact .inr (Option.some.inj h).symm
    · cases h

/-- The permits held after a call has moved. -/
theorem holders_set (hcall : s.calls[id]? = some call) (call' : Acquire) (l : Limiter) :
    (⟨l, s.calls.set id call'⟩ : Callers).holders + (if call.stage = .holding then 1 else 0) =
      s.holders + if call'.stage = .holding then 1 else 0 := by
  obtain ⟨hlt, hget⟩ := List.getElem?_eq_some_iff.1 hcall
  have hpos : call.stage = .holding → 0 < s.holders := fun hholding =>
    List.countP_pos_iff.2 ⟨call, List.mem_of_getElem? hcall, by simpa using hholding⟩
  rw [holders, holders] at *
  rw [List.countP_set hlt, hget]
  simp only [decide_eq_true_eq]
  split
  · next hholding =>
    have := hpos hholding
    omega
  · omega

/-! ## The queue -/

/-- The queue holds each waiting call once, and no other. -/
structure Tidy (s : Callers) : Prop where
  nodup : s.limiter.waiters.Nodup
  queued : ∀ id, id ∈ s.limiter.waiters ↔ ∃ call ∈ s.calls[id]?, call.stage.waits = true

theorem Tidy.mem_iff (h : s.Tidy) (hcall : s.calls[id]? = some call) :
    id ∈ s.limiter.waiters ↔ call.stage.waits = true := by
  rw [h.queued, hcall]
  simp

/-- A queue that holds the waiting calls after one of them has moved. -/
theorem Tidy.set (h : s.Tidy) (hcall : s.calls[id]? = some call) (hnodup : l.waiters.Nodup)
    (hmoved : id ∈ l.waiters ↔ call'.stage.waits = true)
    (hothers : ∀ other, other ≠ id → (other ∈ l.waiters ↔ other ∈ s.limiter.waiters)) :
    (⟨l, s.calls.set id call'⟩ : Callers).Tidy := by
  refine ⟨hnodup, ?_⟩
  intro other
  show other ∈ l.waiters ↔ ∃ found ∈ (s.calls.set id call')[other]?, _
  rw [getElem?_set_call hcall]
  split
  · next heq =>
    rw [heq, hmoved]
    simp
  · next hne => rw [hothers other hne, h.queued]

/-- A move that changes neither the queue nor whether the call waits. -/
theorem Tidy.keep (h : s.Tidy) (hcall : s.calls[id]? = some call)
    (hwaiters : l.waiters = s.limiter.waiters)
    (hwaits : call'.stage.waits = call.stage.waits) :
    (⟨l, s.calls.set id call'⟩ : Callers).Tidy := by
  refine h.set hcall ?_ ?_ ?_
  · rw [hwaiters]
    exact h.nodup
  · rw [hwaiters, hwaits]
    exact h.mem_iff hcall
  · intro other _
    rw [hwaiters]

theorem Tidy.push (h : s.Tidy) : (⟨s.limiter, s.calls ++ [({} : Acquire)]⟩ : Callers).Tidy := by
  refine ⟨h.nodup, ?_⟩
  intro id
  rw [h.queued]
  constructor
  · rintro ⟨call, hcall, hwaits⟩
    refine ⟨call, ?_, hwaits⟩
    show (s.calls ++ _)[id]? = some call
    rw [List.getElem?_append_left (List.getElem?_eq_some_iff.1 hcall).1]
    exact hcall
  · rintro ⟨call, hcall, hwaits⟩
    rcases getElem?_push_call id hcall with hcall | rfl
    · exact ⟨call, hcall, hwaits⟩
    · cases hwaits

theorem removeWaiter_of_mem (h : id ∈ l.waiters) :
    l.removeWaiter id = ⟨l.active, l.waiters.erase id, l.changed + 1⟩ := by
  rw [Limiter.removeWaiter, if_pos h]
  rfl

/-- The waiter at the head is in front of the rest. -/
theorem waiters_of_head (h : l.waiters.head? = some id) : l.waiters = id :: l.waiters.tail := by
  cases hwaiters : l.waiters with
  | nil =>
      rw [hwaiters] at h
      cases h
  | cons head rest =>
      rw [hwaiters] at h
      rw [Option.some.inj h]
      rfl

theorem Tidy.move (h : s.Tidy) (hcall : s.calls[id]? = some call)
    (hmove : Moves limits id call s.limiter op call' l) :
    (⟨l, s.calls.set id call'⟩ : Callers).Tidy := by
  cases hmove with
  | cancel => exact h.keep hcall rfl rfl
  | grant hstage _ | refuse hstage _ =>
      refine h.keep hcall rfl ?_
      rw [hstage]
      rfl
  | queue hstage _ =>
      have hnot : id ∉ s.limiter.waiters := by
        rw [h.mem_iff hcall, hstage]
        exact Bool.false_ne_true
      refine h.set hcall ?_ ?_ ?_
      · exact List.nodup_append.2 ⟨h.nodup, by simp, by
          intro a ha b hb hab
          rw [List.mem_singleton.1 hb] at hab
          exact hnot (hab ▸ ha)⟩
      · simp [Stage.waits]
      · intro other hne
        simp [hne]
  | advance hstage hhead _ =>
      have hwaiters := waiters_of_head hhead
      have hnodup := h.nodup
      rw [hwaiters, List.nodup_cons] at hnodup
      refine h.set hcall hnodup.2 ?_ ?_
      · simpa [Stage.waits] using hnodup.1
      · intro other hne
        rw [hwaiters]
        simp [hne]
  | sleep hstage _ | wake _ hstage | quit _ hstage _ =>
      refine h.keep hcall rfl ?_
      rw [hstage]
      rfl
  | remove _ hstage =>
      have hmem : id ∈ s.limiter.waiters := by
        rw [h.mem_iff hcall, hstage]
        rfl
      rw [removeWaiter_of_mem hmem]
      refine h.set hcall (h.nodup.erase id) ?_ ?_
      · simpa [Stage.waits] using h.nodup.not_mem_erase
      · intro other hne
        exact List.mem_erase_of_ne hne
  | release hstage =>
      refine h.keep hcall rfl ?_
      rw [hstage]
      rfl

theorem Tidy.steps (h : s.Tidy) (hstep : Steps limits s op s') : s'.Tidy := by
  cases hstep with
  | idle => exact h
  | call => exact h.push
  | move hcall hmove => exact h.move hcall hmove

theorem tidy_start : ({} : Callers).Tidy := by
  refine ⟨List.nodup_nil, ?_⟩
  intro id
  simp

/-! ## The permits -/

/-- The limiter counts the permits that are held, and there are no more than it
may grant. -/
structure Counted (limits : Limits) (s : Callers) : Prop where
  active : s.limiter.active = s.holders
  active_le : s.limiter.active ≤ limits.maxActive

theorem Counted.move (h : s.Counted limits) (hcall : s.calls[id]? = some call)
    (hmove : Moves limits id call s.limiter op call' l) :
    (⟨l, s.calls.set id call'⟩ : Callers).Counted limits := by
  have hactive := h.active
  have hactive_le := h.active_le
  have hcount := holders_set hcall call' l
  have hkeep : l.active = s.limiter.active →
      (⟨l, s.calls.set id call'⟩ : Callers).holders = s.holders →
      (⟨l, s.calls.set id call'⟩ : Callers).Counted limits := by
    intro heq hholders
    refine ⟨?_, ?_⟩
    · rw [hholders, ← hactive]
      exact heq
    · rw [← heq] at hactive_le
      exact hactive_le
  cases hmove with
  | cancel => exact hkeep rfl (Nat.add_right_cancel hcount)
  | grant hstage hfree | advance hstage _ hfree =>
      simp only [hstage, reduceCtorEq, if_false, if_true] at hcount
      exact ⟨by dsimp only; omega, by dsimp only; omega⟩
  | refuse hstage _ | queue hstage _ | sleep hstage _ | wake _ hstage | quit _ hstage _ =>
      simp only [hstage, reduceCtorEq, if_false] at hcount
      exact hkeep rfl (by omega)
  | remove _ hstage =>
      simp only [hstage, reduceCtorEq, if_false] at hcount
      refine hkeep ?_ (by omega)
      rw [Limiter.removeWaiter]
      split
      · rfl
      · rfl
  | release hstage =>
      simp only [hstage, reduceCtorEq, if_false, if_true] at hcount
      have hdown : s.limiter.release.active = s.limiter.active - 1 := by
        show (if 0 < s.limiter.active then _ else _) = _
        rw [if_pos (by omega)]
      exact ⟨by rw [hdown]; omega, by rw [hdown]; omega⟩

theorem Counted.steps (h : s.Counted limits) (hstep : Steps limits s op s') :
    s'.Counted limits := by
  cases hstep with
  | idle => exact h
  | call =>
      refine ⟨?_, h.active_le⟩
      rw [h.active, holders, holders, List.countP_append]
      rfl
  | move hcall hmove => exact h.move hcall hmove

/-! ## The wakeups -/

/-- No waiter has sampled a channel to come, and where a permit is free for the
head of the queue, the channel it has sampled is closed. -/
structure Awake (limits : Limits) (s : Callers) : Prop where
  sampled : ∀ call ∈ s.calls, call.stage.sampledBefore (s.limiter.changed + 1) = true
  head : s.limiter.active < limits.maxActive → ∀ id, s.limiter.waiters.head? = some id →
    ∀ call ∈ s.calls[id]?, call.stage.sampledBefore s.limiter.changed = true

theorem sampledBefore_succ {stage : Stage} {changed : Nat}
    (h : stage.sampledBefore changed = true) : stage.sampledBefore (changed + 1) = true := by
  cases stage with
  | asleep sampled | canceling sampled =>
      simp only [Stage.sampledBefore, decide_eq_true_eq] at h ⊢
      omega
  | _ => rfl

/-- A move that closes the channel wakes every waiter. -/
theorem Awake.signal (h : s.Awake limits) (hchanged : l.changed = s.limiter.changed + 1)
    (hmoved : call'.stage.sampledBefore l.changed = true) :
    (⟨l, s.calls.set id call'⟩ : Callers).Awake limits := by
  have hall : ∀ found ∈ s.calls.set id call', found.stage.sampledBefore l.changed = true := by
    intro found hfound
    rcases mem_set_call hfound with rfl | hfound
    · exact hmoved
    · rw [hchanged]
      exact h.sampled found hfound
  refine ⟨fun found hfound => sampledBefore_succ (hall found hfound), ?_⟩
  intro _ other _ found hfound
  exact hall found (List.mem_of_getElem? hfound)

/-- A move that leaves the channel open makes no permit free and no other waiter
the head. -/
theorem Awake.keep (h : s.Awake limits) (hcall : s.calls[id]? = some call)
    (hchanged : l.changed = s.limiter.changed)
    (hfree : l.active < limits.maxActive → s.limiter.active < limits.maxActive ∧
      l.waiters.head? = s.limiter.waiters.head?)
    (hmoved : call'.stage.sampledBefore (l.changed + 1) = true)
    (hhead : l.active < limits.maxActive → l.waiters.head? = some id →
      call'.stage.sampledBefore l.changed = true) :
    (⟨l, s.calls.set id call'⟩ : Callers).Awake limits := by
  constructor
  · intro found hfound
    show found.stage.sampledBefore (l.changed + 1) = true
    rcases mem_set_call hfound with rfl | hfound
    · exact hmoved
    · rw [hchanged]
      exact h.sampled found hfound
  · intro hlt other hother found hfound
    rw [getElem?_set_call hcall] at hfound
    split at hfound
    · next heq =>
      rw [heq] at hother
      rw [← Option.some.inj hfound]
      exact hhead hlt hother
    · show found.stage.sampledBefore l.changed = true
      rw [hchanged]
      obtain ⟨hlt, hsame⟩ := hfree hlt
      exact h.head hlt other (hsame ▸ hother) found hfound

theorem Awake.move (h : s.Awake limits) (htidy : s.Tidy) (hcall : s.calls[id]? = some call)
    (hmove : Moves limits id call s.limiter op call' l) :
    (⟨l, s.calls.set id call'⟩ : Callers).Awake limits := by
  have hsampled := h.sampled call (List.mem_of_getElem? hcall)
  cases hmove with
  | cancel =>
      exact h.keep hcall rfl (fun hfree => ⟨hfree, rfl⟩) hsampled
        fun hfree hhead => h.head hfree id hhead call hcall
  | grant _ hfree => exact h.keep hcall rfl (fun _ => ⟨hfree, rfl⟩) rfl fun _ _ => rfl
  | refuse _ _ | wake _ _ =>
      exact h.keep hcall rfl (fun hfree => ⟨hfree, rfl⟩) rfl fun _ _ => rfl
  | queue _ hfull =>
      exact h.keep hcall rfl (fun hfree => absurd hfree (Int.not_lt.2 hfull)) rfl fun _ _ => rfl
  | advance _ _ _ => exact h.signal rfl rfl
  | sleep _ hwaits =>
      refine h.keep hcall rfl (fun hfree => ⟨hfree, rfl⟩) ?_ ?_
      · simp [Stage.sampledBefore]
      · intro hfree hhead
        exact absurd hhead (hwaits hfree)
  | quit changed hstage _ =>
      rw [hstage] at hsampled
      refine h.keep hcall rfl (fun hfree => ⟨hfree, rfl⟩) hsampled ?_
      intro hfree hhead
      have hclosed := h.head hfree id hhead call hcall
      rw [hstage] at hclosed
      exact hclosed
  | remove changed hstage =>
      have hmem : id ∈ s.limiter.waiters := by
        rw [htidy.mem_iff hcall, hstage]
        rfl
      rw [removeWaiter_of_mem hmem]
      exact h.signal rfl rfl
  | release _ => exact h.signal rfl rfl

theorem Awake.steps (h : s.Awake limits) (htidy : s.Tidy) (hstep : Steps limits s op s') :
    s'.Awake limits := by
  cases hstep with
  | idle => exact h
  | call =>
      constructor
      · intro call hcall
        rcases List.mem_append.1 hcall with hcall | hcall
        · exact h.sampled call hcall
        · rw [List.mem_singleton.1 hcall]
          rfl
      · intro hfree id hhead call hcall
        rcases getElem?_push_call id hcall with hcall | rfl
        · exact h.head hfree id hhead call hcall
        · rfl
  | move hcall hmove => exact h.move htidy hcall hmove

/-! ## Every run -/

/-- A waiter that moves goes on waiting, is admitted or is cancelled. -/
theorem waits_move {l' : Limiter} (hmove : Moves limits id call l op call' l')
    (hwaits : call.stage.waits = true) :
    call'.stage.waits = true ∨ call'.stage = .holding ∨ call'.stage = .canceled := by
  cases hmove with
  | cancel => exact .inl hwaits
  | advance => exact .inr (.inl rfl)
  | remove => exact .inr (.inr rfl)
  | sleep | wake | quit => exact .inl rfl
  | grant hstage | refuse hstage | queue hstage | release hstage =>
      rw [hstage] at hwaits
      cases hwaits

theorem stage_waiter (h : s.Tidy) (hstep : Steps limits s op s') (hid : id ∈ s.limiter.waiters) :
    ∃ stage ∈ s'.stage id, stage.waits = true ∨ stage = .holding ∨ stage = .canceled := by
  obtain ⟨found, hfound, hwaits⟩ := (h.queued id).1 hid
  cases hstep with
  | idle => exact ⟨found.stage, Option.mem_map_of_mem _ hfound, .inl hwaits⟩
  | call =>
      refine ⟨found.stage, Option.mem_map_of_mem _ ?_, .inl hwaits⟩
      show (s.calls ++ _)[id]? = some found
      rw [List.getElem?_append_left (List.getElem?_eq_some_iff.1 hfound).1]
      exact hfound
  | @move mover call call' _ l hcall hmove =>
      by_cases heq : id = mover
      · rw [heq, hcall] at hfound
        rw [← Option.some.inj hfound] at hwaits
        refine ⟨call'.stage, Option.mem_map_of_mem _ ?_, waits_move hmove hwaits⟩
        show (s.calls.set mover call')[id]? = some call'
        rw [getElem?_set_call hcall, if_pos heq]
      · refine ⟨found.stage, Option.mem_map_of_mem _ ?_, .inl hwaits⟩
        show (s.calls.set mover call')[id]? = some found
        rw [getElem?_set_call hcall, if_neg heq]
        exact hfound

theorem Tidy.mem_waiters_iff (h : s.Tidy) (id : Nat) :
    id ∈ s.limiter.waiters ↔ ∃ stage ∈ s.stage id, stage.waits = true := by
  rw [h.queued, stage]
  simp

/-- A waiter leaves the queue as it is admitted or cancelled. -/
theorem leaves_iff (h : s.Tidy) (hstep : Steps limits s op s') (hid : id ∈ s.limiter.waiters) :
    id ∉ s'.limiter.waiters ↔ s'.stage id = some .holding ∨ s'.stage id = some .canceled := by
  obtain ⟨stage, hstage, hcases⟩ := stage_waiter h hstep hid
  rw [(h.steps hstep).mem_waiters_iff, Option.mem_def.1 hstage]
  rcases hcases with hwaits | rfl | rfl
  · constructor
    · intro hnot
      exact absurd ⟨stage, rfl, hwaits⟩ hnot
    · rintro (heq | heq) <;> rw [Option.some.inj heq] at hwaits <;> cases hwaits
  · simp [Stage.waits]
  · simp [Stage.waits]

/-- What holds of the limiter and its callers in every state of a run. -/
structure Sound (limits : Limits) (s : Callers) : Prop where
  tidy : s.Tidy
  counted : s.Counted limits
  awake : s.Awake limits

theorem Sound.step (h : s.Sound limits) (op : LimiterOp) : (s.step limits op).Sound limits := by
  have hstep := steps_step limits s op
  exact ⟨h.tidy.steps hstep, h.counted.steps hstep, h.awake.steps h.tidy hstep⟩

theorem sound_run (hmax : 0 ≤ limits.maxActive) (ops : List LimiterOp) :
    (run limits ops).Sound limits := by
  refine foldl_invariant (P := Sound limits) (fun _ op h => h.step op) ?_ ops
  refine ⟨tidy_start, ⟨rfl, hmax⟩, ⟨?_, ?_⟩⟩
  · intro call hcall
    cases hcall
  · intro _ id hhead
    cases hhead

/-- In every state of every run the limiter counts the permits that are held,
at most `maxActive`, and queues each waiter once, from where it enters to where
it is admitted or cancelled. Where a permit is free for the head of the queue,
it is about to look, or the channel it has sampled is closed. -/
theorem run_limited (hmax : 0 ≤ limits.maxActive) (ops : List LimiterOp) :
    let s := run limits ops
    s.limiter.active = s.holders ∧ s.limiter.active ≤ limits.maxActive ∧
      s.limiter.waiters.Nodup ∧
      (∀ id, id ∈ s.limiter.waiters ↔ ∃ stage ∈ s.stage id, stage.waits = true) ∧
      (∀ op id, id ∈ s.limiter.waiters →
        (id ∉ (s.step limits op).limiter.waiters ↔
          (s.step limits op).stage id = some .holding ∨
            (s.step limits op).stage id = some .canceled)) ∧
      (s.limiter.active < limits.maxActive → ∀ id, s.limiter.waiters.head? = some id →
        s.stage id = some .looping ∨
          ∃ sampled < s.limiter.changed,
            s.stage id = some (.asleep sampled) ∨ s.stage id = some (.canceling sampled)) := by
  intro s
  have hsound : s.Sound limits := sound_run hmax ops
  refine ⟨hsound.counted.active, hsound.counted.active_le, hsound.tidy.nodup,
    hsound.tidy.mem_waiters_iff, ?_, ?_⟩
  · intro op id hid
    exact leaves_iff hsound.tidy (steps_step limits s op) hid
  · intro hfree id hhead
    obtain ⟨call, hcall, hwaits⟩ := (hsound.tidy.queued id).1 (List.mem_of_head? hhead)
    have hclosed := hsound.awake.head hfree id hhead call hcall
    have hstage : s.stage id = some call.stage := by
      rw [stage, Option.mem_def.1 hcall]
      rfl
    rw [hstage]
    cases hcase : call.stage with
    | looping => exact .inl rfl
    | asleep sampled | canceling sampled =>
        rw [hcase] at hclosed
        exact .inr ⟨sampled, of_decide_eq_true hclosed, by simp⟩
    | _ =>
        rw [hcase] at hwaits
        cases hwaits

/-- A permit is freed while the one waiter sleeps: the channel it sleeps on is
closed. -/
theorem run_limited_released :
    let s := run ⟨1, 3⟩ [.call, .call, .enter 0, .enter 1, .loop 1, .release 0]
    s.limiter.active = s.holders ∧ s.limiter.waiters = [1] ∧
      (s.stage 1 = some .looping ∨ ∃ sampled < s.limiter.changed,
        s.stage 1 = some (.asleep sampled) ∨ s.stage 1 = some (.canceling sampled)) := by
  obtain ⟨hactive, -, -, -, -, hhead⟩ := @run_limited ⟨1, 3⟩ (by decide)
    [.call, .call, .enter 0, .enter 1, .loop 1, .release 0]
  exact ⟨hactive, rfl, hhead (by decide) 1 rfl⟩

end Callers

end RelayLifeline.Proxy
