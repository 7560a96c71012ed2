import Mathlib.Data.List.Sort
import RelayLifeline.Clock
import RelayLifeline.Journal.Log
import RelayLifeline.Lib.Table

/-!
# Continuous tasks

`repeat.Manager` keeps the tasks and the journal it restores them from. Every
method holds the manager's lock from beginning to end, so each is a function
from the manager to the manager, and each snapshot a method appends to the
journal comes with what the journal makes of it. A method whose append fails
puts a previous copy of the task back, in some places with fields of its own.

The template a task sends, its method and its path are read by nothing here
and are left out, and a source is its identifier. A method reads the clock
once; the zero time is 0, which no clock shows. A token count is a signed
word, as the source has it.
-/

namespace RelayLifeline.Repeat

open Lib Journal

inductive State where
  | running
  | paused
  | stopped
  | expired
  | interrupted
  deriving DecidableEq

/-- `terminal`. -/
def State.terminal : State → Bool
  | .stopped | .expired | .interrupted => true
  | .running | .paused => false

structure CreateInput where
  interval : Int
  duration : Int
  idempotency : String
  confirmForever : Bool
  maxExecutions : Int
  maxFailures : Int
  failureThreshold : Int
  maxTokens : Int64

/-- What the executor reports. -/
structure Execution where
  id : String
  success : Bool
  statusCode : Int
  errorCode : String
  completed : Int
  durationMilliseconds : Int
  usageTokens : Int64
  usageAvailable : Bool

structure ExecutionAudit where
  id : String
  startedAt : Int
  completed : Int
  success : Bool
  statusCode : Int
  errorCode : String
  durationMilliseconds : Int
  usageTokens : Int64
  usageAvailable : Bool
  deriving DecidableEq

structure Task where
  id : String
  sourceRequestID : String
  state : State
  idempotency : String
  intervalMilliseconds : Int
  durationMilliseconds : Int
  startedAt : Int
  deadline : Int := 0
  nextRunAt : Int := 0
  lastRunAt : Int := 0
  stoppedAt : Int := 0
  executions : Int := 0
  successes : Int := 0
  failures : Int := 0
  lastOutcome : String := ""
  lastStatusCode : Int := 0
  lastErrorCode : String := ""
  lastExecutionID : String := ""
  inFlight : Bool := false
  maxExecutions : Int
  maxFailures : Int
  failureThreshold : Int
  consecutiveFailures : Int := 0
  circuitOpen : Bool := false
  stopReason : String := ""
  maxTokens : Int64
  tokensUsed : Int64 := 0
  lastUsageTokens : Int64 := 0
  tokenUsageMissing : Bool := false
  executionAudit : List ExecutionAudit := []
  deriving DecidableEq

/-- Where the goroutine of a task is: about to call `next`, in `waitFor`, about
to call `beginExecution`, in the executor, or gone. A task restored from the
journal has none. -/
inductive Routine where
  | deciding
  | waiting (deadline : Int)
  | beginning
  | executing
  | gone
  deriving DecidableEq

/-- `runtimeTask`: the task, whether its context is canceled, whether its wake
channel holds a signal, and its goroutine. -/
structure RuntimeTask where
  task : Task
  canceled : Bool := false
  wake : Bool := false
  routine : Routine := .gone
  deriving DecidableEq

instance : Keyed RuntimeTask String := ⟨fun runtime => runtime.task.id⟩

inductive Error where
  | sourceNotFound
  | taskNotFound
  | taskExists
  | invalidInput
  | persistence
  deriving DecidableEq

structure Manager where
  sources : List String := []
  tasks : Table RuntimeTask := ∅
  /-- None where the tasks are not persisted. -/
  journal : Option (Log Task) := none
  closed : Bool := false
  persistErr : Bool := false

/-! ## Tasks -/

/-- `validInput`. -/
def validInput (input : CreateInput) : Bool :=
  !(input.interval < 5 * 1000000000 ∨ 24 * 3600 * 1000000000 < input.interval) ∧
  !(input.duration < 0 ∨ 24 * 3600 * 1000000000 < input.duration) ∧
  !(input.duration = 0 ∧ !input.confirmForever) ∧
  !(input.maxExecutions < 0 ∨ 100000 < input.maxExecutions ∨
    input.maxFailures < 0 ∨ 100000 < input.maxFailures ∨
    input.failureThreshold < 0 ∨ 1000 < input.failureThreshold ∨
    input.maxTokens < 0 ∨ 1000000000000 < input.maxTokens) ∧
  !(0 < input.failureThreshold ∧ 0 < input.maxFailures ∧
    input.maxFailures < input.failureThreshold) ∧
  (input.idempotency = "preserve" ∨ input.idempotency = "regenerate")

/-- `maxExecutionAudit`. -/
def maxExecutionAudit : Nat := 100

namespace Task

/-- The task `Create` makes. -/
def new (now : Int) (id sourceID : String) (input : CreateInput) : Task where
  id := id
  sourceRequestID := sourceID
  state := .running
  idempotency := input.idempotency
  intervalMilliseconds := input.interval / 1000000
  durationMilliseconds := input.duration / 1000000
  startedAt := now
  nextRunAt := now
  deadline := if 0 < input.duration then now + input.duration else 0
  maxExecutions := input.maxExecutions
  maxFailures := input.maxFailures
  failureThreshold := input.failureThreshold
  maxTokens := input.maxTokens

/-- `finishLocked`, but for canceling the context. -/
def finish (t : Task) (now : Int) (state : State) (reason : String) : Task :=
  { t with state := state, stopReason := reason, stoppedAt := now, nextRunAt := 0, inFlight := false }

/-- What is left of a task whose snapshot could not be written. -/
def degraded (t : Task) : Task :=
  { t with state := .paused, stopReason := "persistence_degraded", nextRunAt := 0 }

def interrupt (t : Task) (now : Int) : Task :=
  { t with state := .interrupted, stoppedAt := now, nextRunAt := 0, inFlight := false }

/-- What `changeState` makes of a task. -/
def changeState (t : Task) (now : Int) (state : State) : Task :=
  { t with state := state, nextRunAt := if state = .running then now else 0 }

/-- What `Resume` makes of a task. -/
def resume (t : Task) (now : Int) : Task :=
  { t with
    state := .running, circuitOpen := false, consecutiveFailures := 0, stopReason := ""
    tokenUsageMissing := false, nextRunAt := now }

/-- What `RunNow` makes of a task. -/
def runNow (t : Task) (now : Int) : Task :=
  { t with state := .running, nextRunAt := now, tokenUsageMissing := false }

/-- What `Stop` makes of a task. -/
def stop (t : Task) (now : Int) : Task :=
  { t with state := .stopped, stoppedAt := now, nextRunAt := 0, inFlight := false }

/-- The task has had all the executions it may have. -/
def usedUp (t : Task) : Bool := 0 < t.maxExecutions ∧ t.maxExecutions ≤ t.executions

/-- What `beginExecution` makes of a task it lets run. -/
def begin (t : Task) (now : Int) : Task :=
  { t with inFlight := true, lastRunAt := now, nextRunAt := 0 }

def expired (t : Task) (now : Int) : Bool := t.deadline ≠ 0 ∧ !(now < t.deadline)

/-- The part of `finishExecution` that counts an execution. -/
def count (t : Task) (now : Int) (result : Execution) : Task :=
  let completed := if result.completed = 0 then now else result.completed
  let audit : ExecutionAudit :=
    { id := result.id, startedAt := t.lastRunAt, completed := completed, success := result.success
      statusCode := result.statusCode, errorCode := result.errorCode
      durationMilliseconds := result.durationMilliseconds, usageTokens := result.usageTokens
      usageAvailable := result.usageAvailable }
  let audits := t.executionAudit ++ [audit]
  let t := { t with
    inFlight := false
    executions := t.executions + 1
    lastExecutionID := result.id
    lastStatusCode := result.statusCode
    lastErrorCode := result.errorCode
    lastUsageTokens := result.usageTokens
    executionAudit := audits.drop (audits.length - maxExecutionAudit) }
  if result.success then
    { t with
      successes := t.successes + 1, lastOutcome := "successful", consecutiveFailures := 0
      circuitOpen := false, stopReason := "" }
  else
    { t with
      failures := t.failures + 1, lastOutcome := "failed"
      consecutiveFailures := t.consecutiveFailures + 1 }

/-- The part of `finishExecution` that goes by the limits of a counted task,
and whether it cancels the context. -/
def limit (t : Task) (now : Int) (success : Bool) : Task × Bool :=
  let limited : Task × Bool :=
    if 0 < t.maxFailures ∧ t.maxFailures ≤ t.failures then
      (t.finish now .expired "max_failures", true)
    else if !success ∧ 0 < t.failureThreshold ∧ t.failureThreshold ≤ t.consecutiveFailures then
      ({ t with
        state := .paused, circuitOpen := true, stopReason := "failure_circuit_open"
        nextRunAt := 0 }, false)
    else if 0 < t.maxExecutions ∧ t.maxExecutions ≤ t.executions then
      (t.finish now .expired "max_executions", true)
    else (t, false)
  if limited.1.state = .running then
    ({ limited.1 with nextRunAt := now + limited.1.intervalMilliseconds * 1000000 }, limited.2)
  else limited

/-- `finishExecution`, up to its commit: the task, and whether its context is
canceled. -/
def settle (t : Task) (now : Int) (result : Execution) : Task × Bool :=
  let t := t.count now result
  if 0 < t.maxTokens then
    if !result.usageAvailable then
      ({ t with
        tokenUsageMissing := true, lastOutcome := "usage_missing", lastErrorCode := "usage_missing"
        state := .paused, stopReason := "usage_missing", nextRunAt := 0 }, false)
    else
      let t := { t with tokenUsageMissing := false, tokensUsed := t.tokensUsed + result.usageTokens }
      if t.maxTokens ≤ t.tokensUsed then (t.finish now .expired "max_tokens", true)
      else t.limit now result.success
  else t.limit now result.success

end Task

/-! ## The manager -/

namespace Manager

/-- `appendLocked`, and whether the snapshot was acknowledged. -/
def append (m : Manager) (clk : Clock) (task : Task) (fate : Fate) : Manager × Bool :=
  match m.journal with
  | none => (m, true)
  | some log =>
      let appended := log.append ⟨clk.stamp, task.id, task⟩ fate
      ({ m with journal := some appended.1, persistErr := m.persistErr || !appended.2 }, appended.2)

def registerSource (m : Manager) (id : String) : Manager :=
  { m with sources := if id ∈ m.sources then m.sources else m.sources ++ [id] }

def unregisterSource (m : Manager) (id : String) : Manager :=
  { m with sources := m.sources.filter (· ≠ id) }

/-- `hasActiveTaskLocked`. -/
def hasActiveTask (m : Manager) (sourceID : String) : Bool :=
  m.tasks.items.any fun runtime =>
    runtime.task.sourceRequestID = sourceID ∧ !runtime.task.state.terminal

/-- `Create`. `id` is what `newID` draws. -/
def create (m : Manager) (clk : Clock) (id sourceID : String) (input : CreateInput) (fate : Fate) :
    Manager × Except Error Task :=
  if !validInput input then (m, .error .invalidInput)
  else if m.closed then (m, .error .invalidInput)
  else if sourceID ∉ m.sources then (m, .error .sourceNotFound)
  else if m.hasActiveTask sourceID then (m, .error .taskExists)
  else
    let task := Task.new clk.now id sourceID input
    let appended := m.append clk task fate
    if appended.2 then
      ({ appended.1 with tasks := m.tasks.set { task := task, routine := .deciding } }, .ok task)
    else (appended.1, .error .persistence)

/-- What `Pause`, `Resume`, `RunNow` and `Stop` do alike: change a task that is
not over, unless the change cannot be written. -/
def amend (m : Manager) (clk : Clock) (id : String) (fate : Fate) (change : Task → Task)
    (after : RuntimeTask → RuntimeTask) : Manager × Except Error Task :=
  match m.tasks.get? id with
  | none => (m, .error .taskNotFound)
  | some runtime =>
      if runtime.task.state.terminal then (m, .error .taskNotFound)
      else
        let task := change runtime.task
        let appended := m.append clk task fate
        if appended.2 then
          ({ appended.1 with tasks := m.tasks.set (after { runtime with task := task }) }, .ok task)
        else (appended.1, .error .persistence)

/-- `signal`. -/
def signal (runtime : RuntimeTask) : RuntimeTask := { runtime with wake := true }

/-- Cancel the context. -/
def cancel (runtime : RuntimeTask) : RuntimeTask := { runtime with canceled := true }

def pause (m : Manager) (clk : Clock) (id : String) (fate : Fate) : Manager × Except Error Task :=
  m.amend clk id fate (fun t => t.changeState clk.now .paused) signal

def resume (m : Manager) (clk : Clock) (id : String) (fate : Fate) : Manager × Except Error Task :=
  m.amend clk id fate (fun t => t.resume clk.now) signal

def runNow (m : Manager) (clk : Clock) (id : String) (fate : Fate) : Manager × Except Error Task :=
  m.amend clk id fate (fun t => t.runNow clk.now) signal

def stop (m : Manager) (clk : Clock) (id : String) (fate : Fate) : Manager × Except Error Task :=
  m.amend clk id fate (fun t => t.stop clk.now) cancel

/-- `commitLocked`: `runtime` holds the task as changed, and `previous` is what
it was. -/
def commit (m : Manager) (clk : Clock) (runtime : RuntimeTask) (previous : Task) (fate : Fate) :
    Manager :=
  let appended := m.append clk runtime.task fate
  if appended.2 then { appended.1 with tasks := m.tasks.set runtime }
  else
    { appended.1 with
      tasks := m.tasks.set
        (cancel { runtime with task := { previous.degraded with inFlight := false } }) }

/-- `expireLocked`. -/
def expire (m : Manager) (clk : Clock) (runtime : RuntimeTask) (fate : Fate) : Manager :=
  m.commit clk (cancel { runtime with task := runtime.task.finish clk.now .expired "deadline" })
    runtime.task fate

/-- `Close`, for one task. -/
def closeTask (m : Manager) (clk : Clock) (runtime : RuntimeTask) (fate : Fate) : Manager :=
  if runtime.task.state.terminal then m
  else
    let task := runtime.task.interrupt clk.now
    let appended := m.append clk task fate
    { appended.1 with
      tasks := m.tasks.set
        (cancel { runtime with task := if appended.2 then task else runtime.task }) }

/-- The tasks, in the order a `range` over the map takes them. -/
def ranged (m : Manager) (rank : String → Nat) : List RuntimeTask :=
  m.tasks.items.mergeSort fun a b => rank a.task.id ≤ rank b.task.id

/-- `Close`. -/
def close (m : Manager) (rank : String → Nat) (answers : String → Clock × Fate) : Manager :=
  (m.ranged rank).foldl
    (fun m runtime => m.closeTask (answers runtime.task.id).1 runtime (answers runtime.task.id).2)
    { m with closed := true }

/-! ### The goroutine of a task -/

/-- Where the goroutine of a task goes. -/
def goto (m : Manager) (runtime : RuntimeTask) (routine : Routine) : Manager :=
  { m with tasks := m.tasks.set { runtime with routine := routine } }

/-- `next`, and the timer it sets: a paused task waits for a day. -/
def next (m : Manager) (clk : Clock) (id : String) (fate : Fate) : Manager :=
  match m.tasks.get? id with
  | none => m
  | some runtime =>
      if runtime.routine ≠ .deciding then m
      else if runtime.task.state.terminal then m.goto runtime .gone
      else if runtime.task.state = .paused then
        m.goto runtime (.waiting (clk.now + 24 * 3600 * 1000000000))
      else if runtime.task.expired clk.now then
        m.expire clk { runtime with routine := .gone } fate
      else m.goto runtime (.waiting (max runtime.task.nextRunAt clk.now))

/-- `waitFor` finds the context canceled. -/
def leave (m : Manager) (id : String) : Manager :=
  match m.tasks.get? id with
  | none => m
  | some runtime =>
      match runtime.routine with
      | .waiting _ => if runtime.canceled then m.goto runtime .gone else m
      | _ => m

/-- `waitFor` takes a signal. -/
def woken (m : Manager) (id : String) : Manager :=
  match m.tasks.get? id with
  | none => m
  | some runtime =>
      match runtime.routine with
      | .waiting _ => if runtime.wake then m.goto { runtime with wake := false } .beginning else m
      | _ => m

/-- The timer of `waitFor` fires. -/
def fires (m : Manager) (now : Int) (id : String) : Manager :=
  match m.tasks.get? id with
  | none => m
  | some runtime =>
      match runtime.routine with
      | .waiting deadline => if deadline ≤ now then m.goto runtime .beginning else m
      | _ => m

/-- `beginExecution`, and whether it lets the goroutine call the executor. -/
def beginExecution (m : Manager) (clk : Clock) (id : String) (fate : Fate) : Manager × Bool :=
  match m.tasks.get? id with
  | none => (m, false)
  | some runtime =>
      if runtime.routine ≠ .beginning then (m, false)
      else if runtime.task.state ≠ .running ∨ runtime.task.inFlight then
        (m.goto runtime .deciding, false)
      else if runtime.task.usedUp then
        -- not appended to the journal
        ({ m with
          tasks := m.tasks.set
            (cancel { runtime with
              task := runtime.task.finish clk.now .expired "max_executions", routine := .deciding }) },
          false)
      else if runtime.task.expired clk.now then
        (m.expire clk { runtime with routine := .deciding } fate, false)
      else
        let task := runtime.task.begin clk.now
        let appended := m.append clk task fate
        if appended.2 then
          ({ appended.1 with
            tasks := m.tasks.set { runtime with task := task, routine := .executing } }, true)
        else
          ({ appended.1 with
            tasks := m.tasks.set
              (cancel { runtime with task := runtime.task.degraded, routine := .deciding }) },
            false)

/-- `finishExecution`, when the executor returns. -/
def finishExecution (m : Manager) (clk : Clock) (id : String) (result : Execution) (fate : Fate) :
    Manager :=
  match m.tasks.get? id with
  | none => m
  | some runtime =>
      if runtime.routine ≠ .executing then m
      else if runtime.task.state.terminal then m.goto runtime .deciding
      else
        let settled := runtime.task.settle clk.now result
        m.commit clk
          { runtime with
            task := settled.1, canceled := runtime.canceled || settled.2, routine := .deciding }
          runtime.task fate

/-! ### Restoring the tasks -/

/-- `replay`, up to the tasks it interrupts. -/
def load (lines : List (Line Task)) : Table RuntimeTask :=
  lines.foldl (fun tasks line => tasks.set { task := line.payload }) ∅

/-- `replay`, for one task it has loaded, and whether it goes on. -/
def interruptTask (state : Manager × Bool) (runtime : RuntimeTask) (answer : Clock × Fate) :
    Manager × Bool :=
  if !state.2 ∨ runtime.task.state.terminal then state
  else
    let task := runtime.task.interrupt answer.1.now
    let appended := state.1.append answer.1 task answer.2
    ({ appended.1 with tasks := state.1.tasks.set { runtime with task := task } }, appended.2)

/-- `New`, over a journal that is open, and whether it succeeds. -/
def new (journal : Log Task) (rank : String → Nat) (answers : String → Clock × Fate) :
    Manager × Bool :=
  let m : Manager := { tasks := load journal.lines, journal := some journal }
  (m.ranged rank).foldl
    (fun state runtime => interruptTask state runtime (answers runtime.task.id)) (m, true)

end Manager

/-! ## The manager at work -/

/-- The manager, the tasks the executor is running for, and those it has ever
been called for. -/
structure Service where
  manager : Manager
  executing : List String := []
  begun : List String := []

namespace Service

inductive Input where
  | registerSource (id : String)
  | unregisterSource (id : String)
  | create (clk : Clock) (id sourceID : String) (input : CreateInput) (fate : Fate)
  | pause (clk : Clock) (id : String) (fate : Fate)
  | resume (clk : Clock) (id : String) (fate : Fate)
  | runNow (clk : Clock) (id : String) (fate : Fate)
  | stop (clk : Clock) (id : String) (fate : Fate)
  | close (rank : String → Nat) (answers : String → Clock × Fate)
  | next (clk : Clock) (id : String) (fate : Fate)
  | leave (id : String)
  | woken (id : String)
  | fires (now : Int) (id : String)
  | begin (clk : Clock) (id : String) (fate : Fate)
  | finish (clk : Clock) (id : String) (result : Execution) (fate : Fate)

/-- The goroutine of the task is in the executor. -/
def inExecutor (tasks : Table RuntimeTask) (id : String) : Bool :=
  (tasks.get? id).any fun runtime => runtime.routine = .executing

/-- One method, or one turn of a goroutine. `newID` draws an identifier that is
not in use. -/
def step (s : Service) (input : Input) : Service :=
  match input with
  | .registerSource id => { s with manager := s.manager.registerSource id }
  | .unregisterSource id => { s with manager := s.manager.unregisterSource id }
  | .create clk id sourceID input fate =>
      if (s.manager.tasks.get? id).isSome then s
      else { s with manager := (s.manager.create clk id sourceID input fate).1 }
  | .pause clk id fate => { s with manager := (s.manager.pause clk id fate).1 }
  | .resume clk id fate => { s with manager := (s.manager.resume clk id fate).1 }
  | .runNow clk id fate => { s with manager := (s.manager.runNow clk id fate).1 }
  | .stop clk id fate => { s with manager := (s.manager.stop clk id fate).1 }
  | .close rank answers => { s with manager := s.manager.close rank answers }
  | .next clk id fate => { s with manager := s.manager.next clk id fate }
  | .leave id => { s with manager := s.manager.leave id }
  | .woken id => { s with manager := s.manager.woken id }
  | .fires now id => { s with manager := s.manager.fires now id }
  | .begin clk id fate =>
      let begins := s.manager.beginExecution clk id fate
      if begins.2 then
        { manager := begins.1, executing := id :: s.executing, begun := id :: s.begun }
      else { s with manager := begins.1 }
  | .finish clk id result fate =>
      { s with
        manager := s.manager.finishExecution clk id result fate
        executing :=
          if inExecutor s.manager.tasks id then s.executing.erase id else s.executing }

def run (s : Service) (inputs : List Input) : Service := inputs.foldl step s

end Service

end RelayLifeline.Repeat
