import RelayLifeline.Proxy.RetrySchedule

/-!
# The delay before a retry, as the source computes it

`RetrySchedule` has the delays of `retry_schedule.go` as integers, and what a
`Retry-After` header asks for as given. Here a `time.Duration` is a signed word
of nanoseconds, the header is its text, and the random number generator refuses
a range that is not positive.

What `time.ParseDuration` and `http.ParseTime` make of a text is a parameter:
nothing below depends on it. A time is an integer, and `Sub` of two times stops
at the ends of a word.
-/

namespace RelayLifeline.Proxy.Words

open Registry (RetryScheduleMode)

/-! ## Configuration and policies -/

/-- `config.RetryConfig`, as far as the delay goes by it. -/
structure RetryConfig where
  minInterval : Int64
  maxInterval : Int64
  maxElapsed : Int64 := 0
  retryAfterCap : Int64 := 0
  honorRetryAfter : Bool := false
  deriving DecidableEq

/-- What `Validate` asks of the intervals. -/
def RetryConfig.validate (cfg : RetryConfig) : Bool :=
  !(cfg.minInterval ≤ 0 ∨ cfg.maxInterval < cfg.minInterval ∨ cfg.maxElapsed < 0 ∨
    cfg.retryAfterCap < 0)

structure RetrySchedule where
  mode : RetryScheduleMode := .inherit
  interval : Int64 := 0
  minimum : Int64 := 0
  maximum : Int64 := 0
  base : Int64 := 0
  deriving DecidableEq

structure RetryPolicySpec where
  duration : Int64
  schedule : RetrySchedule := {}
  maxAdditionalAttempts : Int64 := 0
  honorRetryAfter : Bool := false
  deriving DecidableEq

def minimumRetryPolicyDuration : Int64 := 5 * 1000000000
def maximumRetryPolicyDuration : Int64 := 24 * 3600 * 1000000000
def maximumPolicyAttempts : Int64 := 1000
def maximumImmediateAttempts : Int64 := 20

def validPolicyInterval (interval duration : Int64) : Bool :=
  minimumRetryPolicyDuration ≤ interval ∧ interval ≤ maximumRetryPolicyDuration ∧
    interval < duration

/-- `Validate() == nil`. -/
def RetryPolicySpec.validate (s : RetryPolicySpec) : Bool :=
  if s.duration < minimumRetryPolicyDuration ∨ maximumRetryPolicyDuration < s.duration then false
  else if s.maxAdditionalAttempts < 0 ∨ maximumPolicyAttempts < s.maxAdditionalAttempts then false
  else
    match s.schedule.mode with
    | .inherit => true
    | .immediate =>
        !(s.maxAdditionalAttempts < 1 ∨ maximumImmediateAttempts < s.maxAdditionalAttempts)
    | .fixed => validPolicyInterval s.schedule.interval s.duration
    | .random =>
        !(!validPolicyInterval s.schedule.minimum s.duration ∨
          s.schedule.maximum < s.schedule.minimum ∨ s.duration ≤ s.schedule.maximum ∨
          maximumRetryPolicyDuration < s.schedule.maximum)
    | .exponential =>
        !(!validPolicyInterval s.schedule.base s.duration ∨
          s.schedule.maximum < s.schedule.base ∨ s.duration ≤ s.schedule.maximum ∨
          maximumRetryPolicyDuration < s.schedule.maximum)

structure RetryPolicy where
  duration : Int64
  schedule : RetrySchedule
  maxAdditionalAttempts : Int64
  honorRetryAfter : Bool
  appliedAt : Int
  activatedAt : Int := 0
  deadline : Int := 0
  baselineAttempt : Int64 := 0
  deriving DecidableEq

/-- `NewRetryPolicy`. -/
def RetryPolicy.new (spec : RetryPolicySpec) (appliedAt : Int) : RetryPolicy where
  duration := spec.duration
  schedule := spec.schedule
  maxAdditionalAttempts := spec.maxAdditionalAttempts
  honorRetryAfter := spec.honorRetryAfter
  appliedAt := appliedAt

/-- `activatePolicy`. -/
def RetryPolicy.activate (policy : RetryPolicy) (attempt : Int64) (now : Int) : RetryPolicy :=
  { policy with
    activatedAt := now, deadline := now + policy.duration.toInt, baselineAttempt := attempt }

/-! ## The delay -/

/-- `t.Sub(u)`. -/
def sub (t u : Int) : Int64 := Int64.ofInt (max (-2 ^ 63) (min (2 ^ 63 - 1) (t - u)))

/-- `random.Int63n`, with the number it draws: it panics where the range is not
positive. -/
def int63n (random : Nat) (n : Int64) : Option Int64 :=
  if n ≤ 0 then none else some (Int64.ofNat (random % n.toInt.toNat))

/-- What the standard library reads in a text. -/
structure Parsers where
  /-- `time.ParseDuration`. -/
  parseDuration : String → Option Int64
  /-- `http.ParseTime`. -/
  parseTime : String → Option Int

def capRetryAfter (value : Int64) (caps : List Int64) : Int64 :=
  match caps with
  | cap :: _ => if 0 < cap ∧ cap < value then cap else value
  | [] => value

/-- `retryAfter`, on the header's value, where there is a response. -/
def retryAfter (parsers : Parsers) (now : Int) (header : Option String) (caps : List Int64) :
    Int64 :=
  match header with
  | none => 0
  | some text =>
      let value := trimSpace text
      if value = "" then 0
      else
        match parsers.parseDuration (value ++ "s") with
        | some parsed => capRetryAfter parsed caps
        | none =>
            match parsers.parseTime value with
            | some parsed => capRetryAfter (max (sub parsed now) 0) caps
            | none => 0

def randomDelay (random : Nat) (minimum maximum : Int64) : Option Int64 :=
  if maximum ≤ minimum then some minimum
  else (int63n random (maximum - minimum + 1)).map fun drawn => minimum + drawn

/-- The loop of `exponentialDelay`, which stops once the maximum is reached. -/
def exponentialDelay (base maximum : Int64) : Nat → Int64
  | 0 => min base maximum
  | index + 1 =>
      if base < maximum then
        if maximum / 2 < base then maximum else exponentialDelay (base * 2) maximum index
      else min base maximum

def retryDelay (parsers : Parsers) (random : Nat) (now : Int) (cfg : RetryConfig)
    (header : Option String) : Option Int64 := do
  let delay ← randomDelay random cfg.minInterval cfg.maxInterval
  if cfg.honorRetryAfter then
    return max delay (retryAfter parsers now header [cfg.retryAfterCap])
  else return delay

/-- The switch of `policyDelay`. -/
def scheduledDelay (random : Nat) (policy : RetryPolicy) (cfg : RetryConfig) (attempt : Int64) :
    Option Int64 :=
  match policy.schedule.mode with
  | .immediate => some 0
  | .fixed => some policy.schedule.interval
  | .random => randomDelay random policy.schedule.minimum policy.schedule.maximum
  | .exponential =>
      let delay := exponentialDelay policy.schedule.base policy.schedule.maximum
        (max (attempt - policy.baselineAttempt) 0).toInt.toNat
      randomDelay random (max policy.schedule.base (delay / 2)) delay
  | .inherit => randomDelay random cfg.minInterval cfg.maxInterval

def policyDelay (parsers : Parsers) (random : Nat) (now : Int) (policy : RetryPolicy)
    (cfg : RetryConfig) (header : Option String) (attempt : Int64) : Option Int64 := do
  let delay ← scheduledDelay random policy cfg attempt
  if policy.honorRetryAfter then
    return max delay (retryAfter parsers now header [cfg.retryAfterCap])
  else return delay

/-- What a turn of `awaitRetry` settles on: a window has passed, or it waits. -/
inductive Wait where
  | expired
  | waits (delay : Int64)
  deriving DecidableEq

/-- The numbers a turn of `awaitRetry` draws and the readings it takes off the
clock, for the delay by the configuration and for the one by the policy, and for
what is left of either window. -/
structure Turn where
  draw : Nat
  policyDraw : Nat
  header : Int
  policyHeader : Int
  deadline : Int
  elapsed : Int

/-- The end of the delay at the window of the configuration. -/
def capElapsed (cfg : RetryConfig) (started now : Int) (delay : Int64) : Wait :=
  if 0 < cfg.maxElapsed then
    let remaining := cfg.maxElapsed - sub now started
    if remaining ≤ 0 then .expired else .waits (min delay remaining)
  else .waits delay

/-- `awaitRetry`, from the delay to the wait. -/
def awaitDelay (parsers : Parsers) (turn : Turn) (cfg : RetryConfig) (header : Option String)
    (attempt : Int64) (started : Int) (policy : Option RetryPolicy) : Option Wait := do
  let delay ← retryDelay parsers turn.draw turn.header cfg header
  match policy with
  | none => return capElapsed cfg started turn.elapsed delay
  | some policy =>
      let delay ← policyDelay parsers turn.policyDraw turn.policyHeader policy cfg header attempt
      let remaining := sub policy.deadline turn.deadline
      if remaining ≤ 0 then return .expired
      else return capElapsed cfg started turn.elapsed (min delay remaining)

end RelayLifeline.Proxy.Words
