import RelayLifeline.Proxy.Attempt

/-!
# When an attempt is retried

The pure part of `retry_schedule.go`: whether the loop stops, and how long it
waits otherwise. A random delay is drawn by the caller.
-/

namespace RelayLifeline.Proxy

open Registry

inductive RetryStopReason where
  | none
  | denied
  | expired
  | attemptsExhausted
  deriving DecidableEq, Repr

def retryPolicyStop (now : Int) (cfg : Config) (result : AttemptResult) (attempt : Nat)
    (policy : Option RetryPolicy) : RetryStopReason :=
  if result.validation.permanent then .denied
  else
    match policy with
    | some policy =>
        if policy.deadline ≤ now then .expired
        else if policy.exhausted attempt then .attemptsExhausted
        else .none
    | none =>
        if !shouldRetry cfg result || (0 < cfg.retry.maxAttempts && cfg.retry.maxAttempts ≤ attempt)
        then .denied
        else .none

/-- `capRetryAfter` of what the response asks for. -/
def retryAfter (response : Option Response) (cap : Int) : Int :=
  match response with
  | none => 0
  | some response => if 0 < cap ∧ cap < response.retryAfter then cap else response.retryAfter

/-- `randomDelay`, with the number it draws. -/
def randomDelay (random : Nat) (minimum maximum : Int) : Int :=
  if maximum ≤ minimum then minimum else minimum + random % (maximum - minimum + 1)

/-- The loop of `exponentialDelay`, which stops once the maximum is reached. -/
def exponentialDelay (base maximum : Int) : Nat → Int
  | 0 => min base maximum
  | index + 1 =>
      if base < maximum then
        if maximum / 2 < base then maximum else exponentialDelay (base * 2) maximum index
      else min base maximum

def retryDelay (random : Nat) (cfg : Config) (response : Option Response) : Int :=
  let delay := randomDelay random cfg.retry.minInterval cfg.retry.maxInterval
  if cfg.retry.honorRetryAfter then max delay (retryAfter response cfg.retry.retryAfterCap)
  else delay

def policyDelay (random : Nat) (policy : RetryPolicy) (cfg : Config) (response : Option Response)
    (attempt : Nat) : Int :=
  let delay :=
    match policy.schedule.mode with
    | .immediate => 0
    | .fixed => policy.schedule.interval
    | .random => randomDelay random policy.schedule.minimum policy.schedule.maximum
    | .exponential =>
        let delay := exponentialDelay policy.schedule.base policy.schedule.maximum
          (attempt - policy.baselineAttempt).toNat
        randomDelay random (max policy.schedule.base (delay / 2)) delay
    | .inherit => randomDelay random cfg.retry.minInterval cfg.retry.maxInterval
  if policy.honorRetryAfter then max delay (retryAfter response cfg.retry.retryAfterCap)
  else delay

/-- How long the loop may still go on by the configuration, where it is
limited. -/
def remainingElapsed (now : Int) (cfg : Config) (started : Int) : Option Int :=
  if 0 < cfg.retry.maxElapsed then some (cfg.retry.maxElapsed - (now - started)) else none

/-- The wait `awaitRetry` settles on before the next attempt, or `none` where a
deadline has passed. -/
def retryWait (now : Int) (random : Nat) (cfg : Config) (started : Int) (attempt : Nat)
    (response : Option Response) (policy : Option RetryPolicy) : Option Int :=
  let delay : Option Int :=
    match policy with
    | none => some (retryDelay random cfg response)
    | some policy =>
        if policy.deadline - now ≤ 0 then none
        else some (min (policyDelay random policy cfg response attempt) (policy.deadline - now))
  match delay, remainingElapsed now cfg started with
  | none, _ => none
  | some delay, none => some delay
  | some delay, some remaining => if remaining ≤ 0 then none else some (min delay remaining)

end RelayLifeline.Proxy
