import RelayLifeline.Clock
import Mathlib.Data.Fin.Basic
import Mathlib.Logic.Function.Basic

/-!
# The metrics of the gateway

What happens is counted by minute, in a ring of a day's minutes. A bucket is
written only when something happens in its minute, and it is cleared only when
its place is needed for a later one, so reading a window looks every minute of
it up and asks whether the bucket there is that minute's.

The reading of the clock is given to each call. What is sent to the telemetry
is left out.
-/

namespace RelayLifeline.Monitoring

def minuteBucketCount : Nat := 1440

def durationBucketLabels : List String :=
  ["<=1s", "<=5s", "<=15s", "<=30s", "<=1m", "<=5m", "<=15m", "<=1h", ">1h"]

def durationBucketLimits : List Int :=
  [1000, 5000, 15000, 30000, 60000, 300000, 900000, 3600000]

def attemptBucketLabels : List String := ["1", "2", "3", "4-5", "6-10", "11-20", ">20"]

def attemptBucketLimits : List Int := [1, 2, 3, 5, 10, 20]

def errorCodes : List String :=
  ["transport", "protocol", "auth", "rate_limit", "client", "server", "http"]

structure Counters where
  requests : Nat := 0
  successful : Nat := 0
  failed : Nat := 0
  canceled : Nat := 0
  rejected : Nat := 0
  expired : Nat := 0
  attempts : Nat := 0
  failedAttempts : Nat := 0
  recovered : Nat := 0
  failovers : Nat := 0
  uncertain : Nat := 0
  uncertainConfirmed : Nat := 0
  uncertainAbandoned : Nat := 0
  uncertainCompensated : Nat := 0
  persistenceFailures : Nat := 0
  captureFailures : Nat := 0
  deriving DecidableEq

structure Totals where
  counters : Counters := {}
  successRate : Float := 0
  averageRecoveryMilliseconds : Float := 0

structure Load where
  active : Int := 0
  queued : Int := 0
  waiting : Int := 0
  requesting : Int := 0
  deriving DecidableEq

structure Point where
  time : Int
  counters : Counters := {}
  load : Load
  deriving DecidableEq

structure HistogramBucket where
  bucket : String
  count : Nat
  deriving DecidableEq

structure Recovery where
  durationBuckets : List HistogramBucket := []
  attemptBuckets : List HistogramBucket := []
  deriving DecidableEq

structure Metrics where
  generatedAt : Int
  dataSince : Int
  complete : Bool
  window : String
  start : Int
  stop : Int
  totals : Totals := {}
  load : Load
  series : List Point := []
  recovery : Recovery := {}

structure ErrorCategory where
  code : String
  count : Nat := 0
  deriving DecidableEq

structure Errors where
  generatedAt : Int
  dataSince : Int
  complete : Bool
  window : String
  start : Int
  stop : Int
  categories : List ErrorCategory := []
  deriving DecidableEq

/-- `minuteBucket`. An array of counts is a function of the index. -/
structure MinuteBucket where
  valid : Bool := false
  minute : Int := 0
  counters : Counters := {}
  load : Load := {}
  peak : Load := {}
  recoveryMilliseconds : Nat := 0
  durationBuckets : Fin 9 → Nat := fun _ => 0
  attemptBuckets : Fin 7 → Nat := fun _ => 0
  errors : Fin 7 → Nat := fun _ => 0

/-- `Store`, as far as metrics and errors go by it. The array of buckets is a
function of the index. -/
structure Store where
  buckets : Nat → MinuteBucket := fun _ => {}
  load : Load := {}
  startedAt : Int

/-! ## Indices -/

/-- `t.Unix()`. -/
def unix (t : Int) : Int := t / 1000000000 - 62135596800

/-- `t.Unix() / 60`, which rounds towards zero. -/
def unixMinute (t : Int) : Int := (unix t).tdiv 60

def bucketIndex (minute : Int) : Nat :=
  let index := minute.tmod minuteBucketCount
  if index < 0 then (index + minuteBucketCount).toNat else index.toNat

/-- The first of the limits that is not below the value, or the last index. -/
def limitIndex (limits : List Int) (value : Int) : Fin (limits.length + 1) :=
  ⟨limits.findIdx fun limit => value ≤ limit, Nat.lt_succ_of_le List.findIdx_le_length⟩

def durationBucketIndex (milliseconds : Int) : Fin 9 := limitIndex durationBucketLimits milliseconds

def attemptBucketIndex (attempts : Int) : Fin 7 := limitIndex attemptBucketLimits attempts

def errorIndex (category : String) : Fin 7 :=
  if h : errorCodes.findIdx (fun code => category = code) < 7 then ⟨_, h⟩ else 6

/-! ## Writing -/

def maximizeLoad (target value : Load) : Load where
  active := max target.active value.active
  queued := max target.queued value.queued
  waiting := max target.waiting value.waiting
  requesting := max target.requesting value.requesting

/-- One more at the index. -/
def increment {n : Nat} (counts : Fin n → Nat) (index : Fin n) : Fin n → Nat :=
  Function.update counts index (counts index + 1)

namespace Store

/-- `New`. -/
def new (now : Int) : Store := { startedAt := now }

/-- `currentBucketLocked`: the bucket of the minute, cleared where it was of
another one. -/
def currentBucket (s : Store) (now : Int) : MinuteBucket :=
  let minute := unixMinute now
  let bucket := s.buckets (bucketIndex minute)
  if !bucket.valid || bucket.minute ≠ minute then
    { valid := true, minute := minute, load := s.load, peak := s.load }
  else bucket

/-- The bucket of the minute is put back. -/
def putBucket (s : Store) (now : Int) (bucket : MinuteBucket) : Store :=
  { s with buckets := Function.update s.buckets (bucketIndex (unixMinute now)) bucket }

def updateCurrent (s : Store) (now : Int) (update : MinuteBucket → MinuteBucket) : Store :=
  s.putBucket now (update (s.currentBucket now))

/-- An update that only counts. -/
def count (s : Store) (now : Int) (update : Counters → Counters) : Store :=
  s.updateCurrent now fun bucket => { bucket with counters := update bucket.counters }

def recordReceived (s : Store) (now : Int) : Store :=
  s.count now fun c => { c with requests := c.requests + 1 }

def recordAttempt (s : Store) (now : Int) : Store :=
  s.count now fun c => { c with attempts := c.attempts + 1 }

def recordAttemptFailure (s : Store) (now : Int) (category : String) : Store :=
  s.updateCurrent now fun bucket =>
    { bucket with
      counters := { bucket.counters with failedAttempts := bucket.counters.failedAttempts + 1 }
      errors := increment bucket.errors (errorIndex category) }

/-- `elapsed.Milliseconds()`, not below zero. -/
def milliseconds (elapsed : Int) : Int := max (elapsed.tdiv 1000000) 0

def recordRecovery (s : Store) (now elapsed attempts : Int) : Store :=
  s.updateCurrent now fun bucket =>
    { bucket with
      counters := { bucket.counters with recovered := bucket.counters.recovered + 1 }
      recoveryMilliseconds := bucket.recoveryMilliseconds + (milliseconds elapsed).toNat
      durationBuckets :=
        increment bucket.durationBuckets (durationBucketIndex (milliseconds elapsed))
      attemptBuckets := increment bucket.attemptBuckets (attemptBucketIndex attempts) }

def recordFailover (s : Store) (now : Int) : Store :=
  s.count now fun c => { c with failovers := c.failovers + 1 }

def recordUncertain (s : Store) (now : Int) : Store :=
  s.count now fun c => { c with uncertain := c.uncertain + 1 }

def recordUncertainResolution (s : Store) (now : Int) (action : String) : Store :=
  s.count now fun c =>
    if action = "confirm_success" then { c with uncertainConfirmed := c.uncertainConfirmed + 1 }
    else if action = "abandon" then { c with uncertainAbandoned := c.uncertainAbandoned + 1 }
    else if action = "request_compensation" then
      { c with uncertainCompensated := c.uncertainCompensated + 1 }
    else c

def recordPersistenceFailure (s : Store) (now : Int) : Store :=
  s.count now fun c => { c with persistenceFailures := c.persistenceFailures + 1 }

def recordCaptureFailure (s : Store) (now : Int) : Store :=
  s.count now fun c => { c with captureFailures := c.captureFailures + 1 }

def recordFinal (s : Store) (now : Int) (outcome : String) : Store :=
  s.count now fun c =>
    if outcome = "successful" ∨ outcome = "confirmed_success" then
      { c with successful := c.successful + 1 }
    else if outcome = "failed" ∨ outcome = "abandoned" then { c with failed := c.failed + 1 }
    else if outcome = "canceled" then { c with canceled := c.canceled + 1 }
    else if outcome = "rejected" then { c with rejected := c.rejected + 1 }
    else if outcome = "expired" then { c with expired := c.expired + 1 }
    else c

def setLoad (s : Store) (now : Int) (load : Load) : Store :=
  { s with load := load }.updateCurrent now fun bucket =>
    { bucket with load := load, peak := maximizeLoad bucket.peak load }

/-! ## Reading -/

/-- `bucketLocked`. -/
def bucket (s : Store) (minute : Int) : Option MinuteBucket :=
  let bucket := s.buckets (bucketIndex minute)
  if bucket.valid && bucket.minute = minute then some bucket else none

/-- One turn of the loop of `loadBeforeLocked`. -/
def newer (minute : Int) (selected : Option MinuteBucket) (bucket : MinuteBucket) :
    Option MinuteBucket :=
  if !bucket.valid || minute ≤ bucket.minute ||
      selected.any (fun s => bucket.minute ≤ s.minute) then
    selected
  else some bucket

/-- `loadBeforeLocked`: the load of the newest bucket before the minute. -/
def loadBefore (s : Store) (minute : Int) : Load :=
  match ((List.range minuteBucketCount).map s.buckets).foldl (newer minute) none with
  | some selected => selected.load
  | none => {}

/-- `dataSinceLocked`. -/
def dataSince (s : Store) (currentMinute : Int) : Int :=
  let retentionStart := currentMinute - (minuteBucketCount - 1) * minute
  if retentionStart < s.startedAt then s.startedAt else retentionStart

end Store

def addCounters (target value : Counters) : Counters where
  requests := target.requests + value.requests
  successful := target.successful + value.successful
  failed := target.failed + value.failed
  canceled := target.canceled + value.canceled
  rejected := target.rejected + value.rejected
  expired := target.expired + value.expired
  attempts := target.attempts + value.attempts
  failedAttempts := target.failedAttempts + value.failedAttempts
  recovered := target.recovered + value.recovered
  failovers := target.failovers + value.failovers
  uncertain := target.uncertain + value.uncertain
  uncertainConfirmed := target.uncertainConfirmed + value.uncertainConfirmed
  uncertainAbandoned := target.uncertainAbandoned + value.uncertainAbandoned
  uncertainCompensated := target.uncertainCompensated + value.uncertainCompensated
  persistenceFailures := target.persistenceFailures + value.persistenceFailures
  captureFailures := target.captureFailures + value.captureFailures

/-- `histogram`. -/
def histogram {n : Nat} (labels : List String) (counts : Fin n → Nat) : List HistogramBucket :=
  List.zipWith HistogramBucket.mk labels (List.ofFn counts)

def windowLabel (window : Int) : String :=
  if window = 15 * minute then "15m"
  else if window = hour then "1h"
  else if window = 6 * hour then "6h"
  else "24h"

/-- How many minutes of the ring a window is. -/
def windowMinutes (window : Int) : Nat :=
  let minutes := window.tdiv minute
  if minutes < 1 then 1
  else if minuteBucketCount < minutes then minuteBucketCount
  else minutes.toNat

/-- The first minute of a window. -/
def windowStart (now window : Int) : Int :=
  truncateMinute now - (windowMinutes window - 1 : Nat) * minute

/-- The minutes of a window. -/
def windowTimes (now window : Int) : List Int :=
  (List.range (windowMinutes window)).map fun (offset : Nat) =>
    windowStart now window + offset * minute

/-- What the loop of `Metrics` has added up. -/
structure Sums where
  load : Load
  counters : Counters := {}
  recoveryMilliseconds : Nat := 0
  durationCounts : Fin 9 → Nat := fun _ => 0
  attemptCounts : Fin 7 → Nat := fun _ => 0
  series : List Point := []

namespace Store

/-- One turn of the loop of `Metrics`. -/
def addPoint (s : Store) (sums : Sums) (pointTime : Int) : Sums :=
  match s.bucket (unixMinute pointTime) with
  | none => { sums with series := sums.series ++ [{ time := pointTime, load := sums.load }] }
  | some bucket =>
      { load := bucket.load
        counters := addCounters sums.counters bucket.counters
        recoveryMilliseconds := sums.recoveryMilliseconds + bucket.recoveryMilliseconds
        durationCounts := fun index => sums.durationCounts index + bucket.durationBuckets index
        attemptCounts := fun index => sums.attemptCounts index + bucket.attemptBuckets index
        series := sums.series ++
          [{ time := pointTime, counters := bucket.counters, load := bucket.peak }] }

def sums (s : Store) (now window : Int) : Sums :=
  (windowTimes now window).foldl s.addPoint
    { load := s.loadBefore (unixMinute (windowStart now window)) }

def metrics (s : Store) (now window : Int) : Metrics :=
  let sums := s.sums now window
  { generatedAt := now
    dataSince := s.dataSince (truncateMinute now)
    complete := s.startedAt ≤ windowStart now window
    window := windowLabel window
    start := windowStart now window
    stop := now
    totals :=
      { counters := sums.counters
        successRate :=
          if 0 < sums.counters.requests then
            Float.ofNat sums.counters.successful * 100 / Float.ofNat sums.counters.requests
          else 0
        averageRecoveryMilliseconds :=
          if 0 < sums.counters.recovered then
            Float.ofNat sums.recoveryMilliseconds / Float.ofNat sums.counters.recovered
          else 0 }
    load := s.load
    series := sums.series
    recovery :=
      { durationBuckets := histogram durationBucketLabels sums.durationCounts
        attemptBuckets := histogram attemptBucketLabels sums.attemptCounts } }

/-- One turn of the loop of `ErrorsFor`. -/
def addErrors (s : Store) (counts : Fin 7 → Nat) (pointTime : Int) : Fin 7 → Nat :=
  match s.bucket (unixMinute pointTime) with
  | none => counts
  | some bucket => fun index => counts index + bucket.errors index

def errorsFor (s : Store) (now window : Int) : Errors where
  generatedAt := now
  dataSince := s.dataSince (truncateMinute now)
  complete := s.startedAt ≤ windowStart now window
  window := windowLabel window
  start := windowStart now window
  stop := now
  categories := List.zipWith ErrorCategory.mk errorCodes
    (List.ofFn ((windowTimes now window).foldl s.addErrors fun _ => 0))

end Store

/-! ## Runs -/

/-- A call that writes. -/
inductive Call where
  | received
  | attempt
  | attemptFailure (category : String)
  | recovery (elapsed attempts : Int)
  | failover
  | uncertain
  | uncertainResolution (action : String)
  | persistenceFailure
  | captureFailure
  | final (outcome : String)
  | setLoad (load : Load)
  deriving DecidableEq

/-- A call and what it reads off the clock. -/
structure Write where
  time : Int
  call : Call
  deriving DecidableEq

namespace Store

def step (s : Store) (w : Write) : Store :=
  match w.call with
  | .received => s.recordReceived w.time
  | .attempt => s.recordAttempt w.time
  | .attemptFailure category => s.recordAttemptFailure w.time category
  | .recovery elapsed attempts => s.recordRecovery w.time elapsed attempts
  | .failover => s.recordFailover w.time
  | .uncertain => s.recordUncertain w.time
  | .uncertainResolution action => s.recordUncertainResolution w.time action
  | .persistenceFailure => s.recordPersistenceFailure w.time
  | .captureFailure => s.recordCaptureFailure w.time
  | .final outcome => s.recordFinal w.time outcome
  | .setLoad load => s.setLoad w.time load

def run (startedAt : Int) (writes : List Write) : Store := writes.foldl step (.new startedAt)

end Store

end RelayLifeline.Monitoring
