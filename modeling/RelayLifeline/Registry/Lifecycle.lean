import Mathlib.Data.List.Basic

/-!
# The life of a request

The states a request passes through, the table of moves between them, and what
an operator may ask for in each.
-/

namespace RelayLifeline.Lifecycle

inductive State where
  | received
  | queued
  | forwarding
  | uncertain
  | waiting
  | buffering
  | delivering
  | completed
  | successful
  | failed
  | canceled
  | rejected
  | expired
  | orphaned
  | confirmedSuccess
  | abandoned
  deriving DecidableEq, Repr

inductive AttemptPhase where
  | prepare
  | connect
  | requestWrite
  | responseHeaders
  | responseBody
  | protocol
  | delivery
  deriving DecidableEq, Repr

/-- `transitions`. A state the table does not list leads nowhere. -/
def transitions : State → List State
  | .received => [.queued, .rejected, .canceled, .expired]
  | .queued => [.forwarding, .rejected, .canceled, .expired]
  | .forwarding => [.buffering, .uncertain, .waiting, .canceled, .failed, .expired]
  | .uncertain => [.waiting, .canceled, .failed, .expired, .confirmedSuccess, .abandoned]
  | .waiting => [.forwarding, .canceled, .failed, .expired]
  | .buffering => [.delivering, .waiting, .canceled, .failed, .expired]
  | .delivering => [.completed, .canceled, .failed, .expired]
  | .completed => [.successful]
  | _ => []

/-- `ValidateTransition(source, target) == nil`. -/
def validateTransition (source target : State) : Bool :=
  source = target ∨ target ∈ transitions source

/-- `IsTerminal`. -/
def isTerminal : State → Bool
  | .successful | .failed | .canceled | .rejected | .expired | .orphaned | .confirmedSuccess
  | .abandoned => true
  | _ => false

/-- The part of `actionsForState` the registry itself asks about. -/
def canCancel (state : State) : Bool := !isTerminal state && state != .uncertain

def canSetRetryPolicy : State → Bool
  | .waiting | .queued | .forwarding => true
  | _ => false

end RelayLifeline.Lifecycle
