import RelayLifeline.Lib.Trace

/-!
# The controller of the gateway

Operators pause and resume the gateway, drain it or put it into maintenance,
and a request that is about to be sent waits while it is paused. All the waits
of one pause sleep on one channel, which is made by the pause and closed by
whatever leaves it.

What lies between two locks of the mutex is one step, so the steps of the calls
may come in any order. A channel is known by its number, in the order they were
made, and closing one that is closed panics.
-/

namespace RelayLifeline.Registry

open Lib

inductive ControlMode where
  | running
  | paused
  | draining
  | maintenance
  deriving DecidableEq, Repr

/-- The controller, with the channels it has made: whether each is closed. -/
structure Controller where
  mode : ControlMode
  resumeCh : Nat
  channels : List Bool
  deriving DecidableEq

namespace Controller

/-- `NewController`. -/
def new : Controller := ⟨.running, 0, [false]⟩

/-- `close(c.resumeCh)`, which panics where the channel is closed. -/
def closeResume (c : Controller) : Option Controller :=
  if c.channels[c.resumeCh]? = some false then
    some { c with channels := c.channels.set c.resumeCh true }
  else none

def pause (c : Controller) : Controller × Bool :=
  if c.mode ≠ .running then (c, false)
  else (⟨.paused, c.channels.length, c.channels ++ [false]⟩, true)

def resume (c : Controller) : Option (Controller × Bool) :=
  if c.mode = .running then some (c, false)
  else
    let wasPaused := c.mode = .paused
    let c := { c with mode := .running }
    if wasPaused then c.closeResume.map fun c => (c, true) else some (c, true)

def setNonAccepting (c : Controller) (mode : ControlMode) : Option (Controller × Bool) :=
  if c.mode = mode then some (c, false)
  else
    let wasPaused := c.mode = .paused
    let c := { c with mode := mode }
    if wasPaused then c.closeResume.map fun c => (c, true) else some (c, true)

def drain (c : Controller) : Option (Controller × Bool) := c.setNonAccepting .draining

def maintenance (c : Controller) : Option (Controller × Bool) := c.setNonAccepting .maintenance

/-- A receive from the channel goes on. -/
def closed (c : Controller) (channel : Nat) : Bool := c.channels[channel]? = some true

end Controller

/-- Where a call of `Wait` is. -/
inductive WaitStage where
  /-- Before the lock that its loop takes. -/
  | looping
  /-- At the `select`, on the channel it has sampled. -/
  | asleep (resumeCh : Nat)
  /-- It has returned `nil`. -/
  | returned
  /-- It has returned the error of its context. -/
  | canceled
  deriving DecidableEq

/-- A call of `Wait`, and the mode it saw last, which the source does not
remember. -/
structure WaitCall where
  stage : WaitStage := .looping
  done : Bool := false
  observed : Option ControlMode := none
  deriving DecidableEq

/-- A channel that a call sampled as it saw the gateway paused, and which pause
that was. -/
structure Sample where
  channel : Nat
  episode : Nat
  deriving DecidableEq

/-- The controller and every call of `Wait`. The pauses so far and the samples
are for what is proved only. -/
structure Gate where
  controller : Controller := .new
  calls : List WaitCall := []
  panicked : Bool := false
  episode : Nat := 0
  samples : List Sample := []

/-- One atomic step: a call of the operators, or what the call of `Wait` with a
number does next. -/
inductive ControlOp where
  | pause
  | resume
  | drain
  | maintenance
  | wait
  | cancel (id : Nat)
  | sample (id : Nat)
  | wake (id : Nat)
  | quit (id : Nat)

namespace Gate

/-- The end of a call of an operator, which may have panicked. -/
def finish (g : Gate) : Option (Controller × Bool) → Gate
  | some (c, _) => { g with controller := c }
  | none => { g with panicked := true }

def pause (g : Gate) : Gate :=
  let paused := g.controller.pause
  { g with controller := paused.1, episode := if paused.2 then g.episode + 1 else g.episode }

/-- What `Wait` does under the lock, and the return where it is not paused. -/
def sample (g : Gate) (id : Nat) (call : WaitCall) : Gate :=
  let c := g.controller
  if c.mode = .paused then
    { g with
      calls := g.calls.set id { call with stage := .asleep c.resumeCh, observed := some c.mode }
      samples := ⟨c.resumeCh, g.episode⟩ :: g.samples }
  else { g with calls := g.calls.set id { call with stage := .returned, observed := some c.mode } }

/-- What a call of `Wait` does next, where it is at the stage for it. -/
def act (g : Gate) (id : Nat) (call : WaitCall) : ControlOp → Gate
  | .cancel _ => { g with calls := g.calls.set id { call with done := true } }
  | .sample _ => if call.stage = .looping then g.sample id call else g
  | .wake _ =>
      match call.stage with
      | .asleep resumeCh =>
          if g.controller.closed resumeCh then
            { g with calls := g.calls.set id { call with stage := .looping } }
          else g
      | _ => g
  | .quit _ =>
      match call.stage with
      | .asleep _ =>
          if call.done then { g with calls := g.calls.set id { call with stage := .canceled } }
          else g
      | _ => g
  | _ => g

def turn (g : Gate) (id : Nat) (op : ControlOp) : Gate :=
  match g.calls[id]? with
  | none => g
  | some call => g.act id call op

/-- One step of a process that lives. -/
def serve (g : Gate) : ControlOp → Gate
  | .pause => g.pause
  | .resume => g.finish g.controller.resume
  | .drain => g.finish g.controller.drain
  | .maintenance => g.finish g.controller.maintenance
  | .wait => { g with calls := g.calls ++ [{}] }
  | .cancel id => g.turn id (.cancel id)
  | .sample id => g.turn id (.sample id)
  | .wake id => g.turn id (.wake id)
  | .quit id => g.turn id (.quit id)

/-- A process that has panicked does nothing more. -/
def step (g : Gate) (op : ControlOp) : Gate := if g.panicked then g else g.serve op

def run (ops : List ControlOp) : Gate := ops.foldl step {}

end Gate

end RelayLifeline.Registry
