import Mathlib.Data.List.Sort
import Mathlib.Logic.Function.Basic
import RelayLifeline.Lib.Table
import RelayLifeline.Lib.Word
import RelayLifeline.Settings.Config

/-!
# Risk alerts

The manager raises an alert once for a key and keeps quiet about the key until
the alert is resolved, or is pushed off the list by newer ones. Which keys are
quiet is an index beside the list, from the key to the identifier of its alert,
and an alert does not carry its key.

What a call draws is given to it: the readings of the clock and the identifiers.
A map is gone through in any order, which is what `rank` stands for. The texts
of a localized alert are left out.
-/

namespace RelayLifeline.Risk

open Lib Settings

def maxAlerts : Nat := 200

/-- A value of an alert's details, with `D` for those of the caller. -/
inductive Detail (D : Type) where
  | int (n : Int64)
  | data (d : D)
  deriving DecidableEq

abbrev Details (D : Type) := Option (List (String × Detail D))

/-- `l10n.Message`. -/
structure Message (D : Type) where
  id : String
  data : Details D

structure Alert (D : Type) where
  id : String := ""
  type : String
  severity : String
  requestID : String := ""
  message : String := ""
  messageCode : String := ""
  messageDetails : Details D := none
  attempts : Int64 := 0
  elapsedMilliseconds : Int64 := 0
  createdAt : Int := 0
  resolvedAt : Option Int := none
  deriving DecidableEq

/-- An entry of the index of the open alerts. -/
structure OpenAlert where
  key : String
  id : String
  deriving DecidableEq

instance : Keyed OpenAlert String := ⟨OpenAlert.key⟩

/-- An absent count reads as zero. -/
structure Manager (D : Type) where
  alerts : List (Alert D) := []
  opened : Table OpenAlert := ∅
  authCounts : String → Int64 := fun _ => 0

/-- What `emitLocked` draws for an alert. -/
structure Draw where
  id : String
  now : Int

/-- What `emitLocked` returns, and beside it what it was called with, which the
source does not remember. -/
structure Emission (D : Type) where
  before : Manager D
  key : String
  alert : Alert D

/-- `t.Sub(u)`, in nanoseconds, which stops at both ends of a `Duration`. -/
def sub (t u : Int) : Int64 := Int64.ofInt (max (-2 ^ 63) (min (t - u) Word.top))

def milliseconds (d : Int64) : Int64 := d / 1000000

/-- The first alert with the identifier is marked. -/
def markResolved (now : Int) (id : String) : List (Alert D) → List (Alert D)
  | [] => []
  | alert :: rest =>
      if alert.id = id then { alert with resolvedAt := some now } :: rest
      else alert :: markResolved now id rest

def appendCreated (alerts : List (Emission D)) : Option (Emission D) → List (Emission D)
  | none => alerts
  | some alert => alerts ++ [alert]

namespace Manager

variable {D : Type}

def new : Manager D := {}

def removeOpenAlertLocked (m : Manager D) (id : String) : Manager D :=
  { m with opened := m.opened.filter fun entry => entry.id ≠ id }

/-- `emitLocked` where the list has grown too long: the last alerts leave it, and
the index forgets them. -/
def evict (m : Manager D) : Manager D :=
  if m.alerts.length > maxAlerts then
    let m := (m.alerts.drop maxAlerts).foldl (fun m removed => m.removeOpenAlertLocked removed.id) m
    { m with alerts := m.alerts.take maxAlerts }
  else m

def emitLocked (m : Manager D) (key : String) (alert : Alert D) (draw : Draw) :
    Manager D × Option (Emission D) :=
  match m.opened.get? key with
  | some _ => (m, none)
  | none =>
      let alert := { alert with id := draw.id, createdAt := draw.now }
      let after := evict { m with alerts := alert :: m.alerts }
      ({ after with opened := after.opened.set ⟨key, alert.id⟩ }, some ⟨m, key, alert⟩)

def resolveLocked (m : Manager D) (key : String) (now : Int) : Manager D :=
  match m.opened.get? key with
  | none => m
  | some entry =>
      { m with alerts := markResolved now entry.id m.alerts, opened := m.opened.erase key }

/-! ## Evaluations -/

def evaluateAuthLocked (m : Manager D) (requestID : String) (attempt statusCode : Int64)
    (elapsed : Int64) (threshold : Int) (draw : Draw) : Manager D × List (Emission D) :=
  if statusCode ≠ 401 ∧ statusCode ≠ 403 then
    ({ m with authCounts := Function.update m.authCounts requestID 0 }, [])
  else
    let count := m.authCounts requestID + 1
    let m := { m with authCounts := Function.update m.authCounts requestID count }
    if count.toInt < threshold then (m, [])
    else
      let (m, alert) := m.emitLocked (requestID ++ "|auth_errors")
        { type := "auth_errors", severity := "warning", requestID
          messageCode := "risk.auth_errors"
          messageDetails := some [("Count", .int count), ("Status", .int statusCode)]
          attempts := attempt, elapsedMilliseconds := milliseconds elapsed } draw
      (m, appendCreated [] alert)

def evaluateManyAttempts (m : Manager D) (requestID : String) (attempt elapsed : Int64)
    (cfg : RiskConfig) (draw : Draw) : Manager D × List (Emission D) :=
  if attempt.toInt ≥ cfg.warningAttempts then
    let (m, alert) := m.emitLocked (requestID ++ "|many_attempts")
      { type := "many_attempts", severity := "warning", requestID
        messageCode := "risk.many_attempts"
        messageDetails := some [("Attempts", .int attempt)]
        attempts := attempt, elapsedMilliseconds := milliseconds elapsed } draw
    (m, appendCreated [] alert)
  else (m, [])

/-- The alert of both calls that look at the time a request has taken. -/
def evaluateElapsed (m : Manager D) (requestID : String) (attempt elapsed : Int64)
    (cfg : RiskConfig) (draw : Draw) : Manager D × List (Emission D) :=
  if elapsed.toInt < cfg.warningAfter then (m, [])
  else
    let (m, alert) := m.emitLocked (requestID ++ "|long_running")
      { type := "long_running", severity := "warning", requestID
        messageCode := "risk.long_running"
        attempts := attempt, elapsedMilliseconds := milliseconds elapsed } draw
    (m, appendCreated [] alert)

/-- The alerts are looked for in this order. Each has its draw, made where it is
emitted. -/
def evaluateAttempt (m : Manager D) (requestID : String) (attempt : Int64) (started : Int)
    (statusCode : Int64) (cfg : RiskConfig) (now : Int) (many long auth : Draw) :
    Manager D × List (Emission D) :=
  let elapsed := sub now started
  let (m, first) := m.evaluateManyAttempts requestID attempt elapsed cfg many
  let (m, second) := m.evaluateElapsed requestID attempt elapsed cfg long
  let (m, third) :=
    m.evaluateAuthLocked requestID attempt statusCode elapsed cfg.authErrorAttempts auth
  (m, first ++ second ++ third)

def evaluateLongRunning (m : Manager D) (requestID : String) (attempt : Int64) (started : Int)
    (cfg : RiskConfig) (now : Int) (draw : Draw) : Manager D × List (Emission D) :=
  m.evaluateElapsed requestID attempt (sub now started) cfg draw

/-- A queue that has gone below the limit again resolves the alert at the time
`draw` reads, where one would be emitted. -/
def evaluateQueue (m : Manager D) (active waiting maxActive maxWaiting : Int64)
    (cfg : RiskConfig) (draw : Draw) : Manager D × List (Emission D) :=
  let capacity := maxActive + maxWaiting
  if capacity < 1 then (m, [])
  else
    let percent := (active + waiting) * 100 / capacity
    if percent.toInt < cfg.queueWarningPercent then
      (m.resolveLocked "global|queue_pressure" draw.now, [])
    else
      let (m, alert) := m.emitLocked "global|queue_pressure"
        { type := "queue_pressure", severity := "warning"
          messageCode := "risk.queue_pressure"
          messageDetails := some [("Percent", .int percent)] } draw
      (m, appendCreated [] alert)

def recordGlobal (m : Manager D) (alertType severity message : String) (draw : Draw) :
    Manager D × List (Emission D) :=
  let (m, alert) := m.emitLocked ("global|" ++ alertType)
    { type := alertType, severity, message } draw
  (m, appendCreated [] alert)

def recordGlobalMessage (m : Manager D) (alertType severity : String) (message : Message D)
    (draw : Draw) : Manager D × List (Emission D) :=
  let (m, alert) := m.emitLocked ("global|" ++ alertType)
    { type := alertType, severity, messageCode := message.id, messageDetails := message.data }
    draw
  (m, appendCreated [] alert)

/-! ## Resolution and reading -/

/-- The keys of a request are those that begin with its identifier and a bar. -/
def ofRequest (requestID key : String) : Bool :=
  (requestID ++ "|").toList.isPrefixOf key.toList

/-- The index is gone through in the order of `rank`, and `now` is the reading
made for a key. -/
def resolveRequest (m : Manager D) (requestID : String) (rank : String → Nat)
    (now : String → Int) : Manager D :=
  let ranged := (m.opened.items.map OpenAlert.key).insertionSort fun a b => rank a ≤ rank b
  let m := (ranged.filter (ofRequest requestID)).foldl
    (fun m key => m.resolveLocked key (now key)) m
  { m with authCounts := Function.update m.authCounts requestID 0 }

def resolveGlobal (m : Manager D) (alertType : String) (now : Int) : Manager D :=
  m.resolveLocked ("global|" ++ alertType) now

def hasOpenRequestAlerts (m : Manager D) (requestID : String) : Bool :=
  m.opened.items.any fun entry => ofRequest requestID entry.key

def recent (m : Manager D) (limit : Int) : List (Alert D) :=
  if limit ≤ 0 ∨ limit > m.alerts.length then m.alerts else m.alerts.take limit.toNat

end Manager

/-! ## Runs -/

/-- A call that writes, with what it draws. -/
inductive Call (D : Type) where
  | evaluateAttempt (requestID : String) (attempt : Int64) (started : Int) (statusCode : Int64)
      (cfg : RiskConfig) (now : Int) (many long auth : Draw)
  | evaluateLongRunning (requestID : String) (attempt : Int64) (started : Int)
      (cfg : RiskConfig) (now : Int) (draw : Draw)
  | evaluateQueue (active waiting maxActive maxWaiting : Int64) (cfg : RiskConfig) (draw : Draw)
  | recordGlobal (alertType severity message : String) (draw : Draw)
  | recordGlobalMessage (alertType severity : String) (message : Message D) (draw : Draw)
  | resolveRequest (requestID : String) (rank : String → Nat) (now : String → Int)
  | resolveGlobal (alertType : String) (now : Int)

variable {D : Type}

def Manager.perform (m : Manager D) : Call D → Manager D × List (Emission D)
  | .evaluateAttempt requestID attempt started statusCode cfg now many long auth =>
      m.evaluateAttempt requestID attempt started statusCode cfg now many long auth
  | .evaluateLongRunning requestID attempt started cfg now draw =>
      m.evaluateLongRunning requestID attempt started cfg now draw
  | .evaluateQueue active waiting maxActive maxWaiting cfg draw =>
      m.evaluateQueue active waiting maxActive maxWaiting cfg draw
  | .recordGlobal alertType severity message draw =>
      m.recordGlobal alertType severity message draw
  | .recordGlobalMessage alertType severity message draw =>
      m.recordGlobalMessage alertType severity message draw
  | .resolveRequest requestID rank now => (m.resolveRequest requestID rank now, [])
  | .resolveGlobal alertType now => (m.resolveGlobal alertType now, [])

/-- A manager, and every alert it has emitted, the oldest first. -/
structure Book (D : Type) where
  manager : Manager D := .new
  emitted : List (Emission D) := []

namespace Book

def step (s : Book D) (call : Call D) : Book D where
  manager := (s.manager.perform call).1
  emitted := s.emitted ++ (s.manager.perform call).2

def run (calls : List (Call D)) : Book D := calls.foldl step {}

/-- No two alerts of the run were given one identifier. -/
def UniqueIDs (s : Book D) : Prop := (s.emitted.map fun e => e.alert.id).Nodup

end Book

end RelayLifeline.Risk
