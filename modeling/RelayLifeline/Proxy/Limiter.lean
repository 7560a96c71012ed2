import RelayLifeline.Lib.Trace

/-!
# The limiter of concurrent requests

A call of `Acquire` is granted a permit as it enters where one is free, and
waits in a queue otherwise. A waiter looks whether it is at the head and a
permit is free, and if not sleeps on the channel that the next change closes.
What lies between two locks of the mutex is one step, so the steps of the calls
may come in any order.
-/

namespace RelayLifeline.Proxy

open Lib

/-- What `limits` answers. -/
structure Limits where
  maxActive : Int
  maxWaiting : Int

/-- Where a call of `Acquire` is. -/
inductive Stage where
  | entering
  /-- Before the lock that the loop takes. -/
  | looping
  /-- On the channel it has sampled. -/
  | asleep (changed : Nat)
  /-- Woken by its context, before `removeWaiter`. -/
  | canceling (changed : Nat)
  | holding
  | released
  | refused
  | canceled
  deriving DecidableEq

/-- A waiter is known by its call, and the channel `changed` by how many were
closed before it. -/
structure Limiter where
  active : Int := 0
  waiters : List Nat := []
  changed : Nat := 0

namespace Limiter

/-- `signalLocked`. -/
def signal (l : Limiter) : Limiter := { l with changed := l.changed + 1 }

/-- What `Acquire` does before its loop. -/
def enter (l : Limiter) (limits : Limits) (waiter : Nat) : Limiter × Stage :=
  if l.active < limits.maxActive then ({ l with active := l.active + 1 }, .holding)
  else if limits.maxWaiting ≤ l.waiters.length then (l, .refused)
  else ({ l with waiters := l.waiters ++ [waiter] }, .looping)

/-- What `Acquire` does under the lock of its loop. -/
def loop (l : Limiter) (limits : Limits) (waiter : Nat) : Limiter × Stage :=
  if l.waiters.head? = some waiter ∧ l.active < limits.maxActive then
    (signal { l with active := l.active + 1, waiters := l.waiters.tail }, .holding)
  else (l, .asleep l.changed)

def release (l : Limiter) : Limiter :=
  signal { l with active := if 0 < l.active then l.active - 1 else l.active }

def removeWaiter (l : Limiter) (target : Nat) : Limiter :=
  if target ∈ l.waiters then signal { l with waiters := l.waiters.erase target } else l

end Limiter

namespace Stage

/-- A call that is granted a permit. -/
def granted : Stage → Bool
  | holding | released => true
  | _ => false

/-- A call that waits in the queue. -/
def waits : Stage → Bool
  | looping | asleep _ | canceling _ => true
  | _ => false

/-- The channel the waiter has sampled, if any, comes before `changed`. -/
def sampledBefore (changed : Nat) : Stage → Bool
  | asleep sampled | canceling sampled => sampled < changed
  | _ => true

end Stage

/-- A call of `Acquire`: whether its context is done, and the queue it found as
it entered, which the source does not remember. -/
structure Acquire where
  stage : Stage := .entering
  done : Bool := false
  ahead : List Nat := []

/-- The limiter and every call, in the order they were made. -/
structure Callers where
  limiter : Limiter := {}
  calls : List Acquire := []

/-- One atomic step of the call with a number. -/
inductive LimiterOp where
  | call
  | cancel (id : Nat)
  | enter (id : Nat)
  | loop (id : Nat)
  | wake (id : Nat)
  | quit (id : Nat)
  | remove (id : Nat)
  | release (id : Nat)

namespace Callers

/-- The call `id` goes on with the lock: it is at `stage` then. -/
def move (s : Callers) (id : Nat) (call : Acquire) (limiter : Limiter) (stage : Stage) :
    Callers :=
  ⟨limiter, s.calls.set id { call with stage := stage }⟩

def enter (s : Callers) (limits : Limits) (id : Nat) (call : Acquire) : Callers :=
  let entered := s.limiter.enter limits id
  s.move id { call with ahead := s.limiter.waiters } entered.1 entered.2

def loop (s : Callers) (limits : Limits) (id : Nat) (call : Acquire) : Callers :=
  let looped := s.limiter.loop limits id
  s.move id call looped.1 looped.2

/-- What a call does next, where it is at the stage for it. -/
def act (s : Callers) (limits : Limits) (id : Nat) (call : Acquire) : LimiterOp → Callers
  | .call => s
  | .cancel _ => ⟨s.limiter, s.calls.set id { call with done := true }⟩
  | .enter _ => if call.stage = .entering then s.enter limits id call else s
  | .loop _ => if call.stage = .looping then s.loop limits id call else s
  | .wake _ =>
      match call.stage with
      | .asleep changed =>
          if changed < s.limiter.changed then s.move id call s.limiter .looping else s
      | _ => s
  | .quit _ =>
      match call.stage with
      | .asleep changed =>
          if call.done then s.move id call s.limiter (.canceling changed) else s
      | _ => s
  | .remove _ =>
      match call.stage with
      | .canceling _ => s.move id call (s.limiter.removeWaiter id) .canceled
      | _ => s
  | .release _ =>
      if call.stage = .holding then s.move id call s.limiter.release .released else s

end Callers

/-- The call an operation is of. -/
def LimiterOp.id : LimiterOp → Option Nat
  | .call => none
  | .cancel id | .enter id | .loop id | .wake id | .quit id | .remove id | .release id => some id

namespace Callers

def step (limits : Limits) (s : Callers) (op : LimiterOp) : Callers :=
  match op.id with
  | none => { s with calls := s.calls ++ [{}] }
  | some id =>
      match s.calls[id]? with
      | none => s
      | some call => s.act limits id call op

def run (limits : Limits) (ops : List LimiterOp) : Callers := ops.foldl (step limits) {}

/-- The stage of a call that was made. -/
def stage (s : Callers) (id : Nat) : Option Stage := s.calls[id]?.map Acquire.stage

/-- The permits that are held. -/
def holders (s : Callers) : Nat := s.calls.countP fun call => call.stage = .holding

end Callers

end RelayLifeline.Proxy
