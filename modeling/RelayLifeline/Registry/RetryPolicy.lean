import RelayLifeline.Clock

/-!
# Retry policies of single requests

What an operator may ask of one request's retries. A policy is set on a request
at any time and becomes active at the first retry after it; its deadline counts
from there.
-/

namespace RelayLifeline.Registry

/-- `time.Second`. -/
def second : Int := 1000000000

def minimumRetryPolicyDuration : Int := 5 * second
def maximumRetryPolicyDuration : Int := 86400 * second
def maximumPolicyAttempts : Int := 1000
def maximumImmediateAttempts : Int := 20

inductive RetryScheduleMode where
  | inherit
  | immediate
  | fixed
  | random
  | exponential
  deriving DecidableEq, Repr

structure RetrySchedule where
  mode : RetryScheduleMode := .inherit
  interval : Int := 0
  minimum : Int := 0
  maximum : Int := 0
  base : Int := 0
  deriving DecidableEq, Repr

structure RetryPolicySpec where
  duration : Int
  schedule : RetrySchedule := {}
  maxAdditionalAttempts : Int := 0
  honorRetryAfter : Bool := false
  deriving DecidableEq, Repr

/-- `validPolicyInterval`. -/
def validPolicyInterval (interval duration : Int) : Bool :=
  minimumRetryPolicyDuration ≤ interval ∧ interval ≤ maximumRetryPolicyDuration ∧
    interval < duration

/-- The part of `Validate` about the schedule. -/
def RetryPolicySpec.validSchedule (spec : RetryPolicySpec) : Bool :=
  match spec.schedule.mode with
  | .inherit => true
  | .immediate =>
      1 ≤ spec.maxAdditionalAttempts ∧ spec.maxAdditionalAttempts ≤ maximumImmediateAttempts
  | .fixed => validPolicyInterval spec.schedule.interval spec.duration
  | .random =>
      validPolicyInterval spec.schedule.minimum spec.duration ∧
        spec.schedule.minimum ≤ spec.schedule.maximum ∧ spec.schedule.maximum < spec.duration ∧
        spec.schedule.maximum ≤ maximumRetryPolicyDuration
  | .exponential =>
      validPolicyInterval spec.schedule.base spec.duration ∧
        spec.schedule.base ≤ spec.schedule.maximum ∧ spec.schedule.maximum < spec.duration ∧
        spec.schedule.maximum ≤ maximumRetryPolicyDuration

/-- `Validate() == nil`. -/
def RetryPolicySpec.validate (spec : RetryPolicySpec) : Bool :=
  minimumRetryPolicyDuration ≤ spec.duration ∧ spec.duration ≤ maximumRetryPolicyDuration ∧
    0 ≤ spec.maxAdditionalAttempts ∧ spec.maxAdditionalAttempts ≤ maximumPolicyAttempts ∧
    spec.validSchedule

structure RetryPolicy where
  duration : Int
  schedule : RetrySchedule
  maxAdditionalAttempts : Int
  honorRetryAfter : Bool
  appliedAt : Int
  activatedAt : Int := 0
  deadline : Int := 0
  baselineAttempt : Int := 0
  deriving DecidableEq, Repr

namespace RetryPolicy

/-- `NewRetryPolicy`. -/
def new (spec : RetryPolicySpec) (appliedAt : Int) : RetryPolicy where
  duration := spec.duration
  schedule := spec.schedule
  maxAdditionalAttempts := spec.maxAdditionalAttempts
  honorRetryAfter := spec.honorRetryAfter
  appliedAt := appliedAt

def active (policy : RetryPolicy) : Bool := policy.activatedAt ≠ 0

def exhausted (policy : RetryPolicy) (attempt : Nat) : Bool :=
  0 < policy.maxAdditionalAttempts ∧
    policy.maxAdditionalAttempts ≤ attempt - policy.baselineAttempt

/-- `activatePolicy`. -/
def activate (policy : RetryPolicy) (attempt : Nat) (now : Int) : RetryPolicy :=
  { policy with
    activatedAt := now, deadline := now + policy.duration, baselineAttempt := attempt }

end RetryPolicy

end RelayLifeline.Registry
