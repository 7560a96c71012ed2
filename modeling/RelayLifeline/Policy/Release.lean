import RelayLifeline.Journal.Log
import RelayLifeline.Lib.Table
import RelayLifeline.Policy.Config

/-!
# Releases of traffic policies

The release manager holds a draft, the history of the releases and the intents
of those that were prepared and not settled. Every change of the three is an
event of its journal, and a restart replays them. What is written there is
JSON, and it reads back as it was but for one field: a byte size is written
with a unit and read as a floating-point number of units.
-/

namespace RelayLifeline.Policy

open Journal Lib

variable {F : Type} [Float64 F]

structure ReleaseRecord (F : Type) where
  operationID : String := ""
  revision : String
  stage : String
  canaryPercent : Int
  createdAt : Int
  actor : String := ""
  policy : Config F

/-- `releaseIntent`. -/
structure Intent (F : Type) where
  operationID : String
  rollback : Bool
  record : ReleaseRecord F
  reason : String := ""

instance : Keyed (Intent F) String := ⟨Intent.operationID⟩

/-- What is appended to the release journal, by its event type. -/
inductive Event (F : Type) where
  | draftSaved (policy : Config F)
  | releasePrepared (intent : Intent F)
  | releasePublished (record : ReleaseRecord F)
  | releaseRolledBack (record : ReleaseRecord F)
  | releaseAborted (intent : Intent F)

inductive ReleaseError where
  | draftNotFound
  | conflict
  | action
  | invalid
  | ledger
  deriving DecidableEq

/-- `releaseOperationID`. -/
def releaseOperationID (record : ReleaseRecord F) : String :=
  let data := "\x7b\"Revision\":" ++ jsonString record.revision ++ ",\"Stage\":" ++
    jsonString record.stage ++ ",\"CanaryPercent\":" ++ toString record.canaryPercent ++
    ",\"CreatedAt\":\"" ++ rfc3339Nano record.createdAt ++ "\",\"Actor\":" ++
    jsonString record.actor ++ "\x7d"
  "release-" ++ String.ofList ((hex (sha256 (utf8 data))).toList.take 20)

/-- The record under the operation it names, or else under the one it gives. -/
def ReleaseRecord.identified (record : ReleaseRecord F) : ReleaseRecord F :=
  if record.operationID = "" then { record with operationID := releaseOperationID record }
  else record

/-! ## What a journal reads back -/

/-- The `float64` nearest to a natural number, ties to even. -/
def nearestFloat (n : Nat) : Nat :=
  if n < 2 ^ 53 then n
  else
    let unit := 2 ^ (Nat.log2 n - 52)
    let quotient := n / unit
    if unit < 2 * (n % unit) ∨ unit = 2 * (n % unit) ∧ quotient % 2 = 1 then (quotient + 1) * unit
    else quotient * unit

/-- The unit `FormatByteSize` writes a size in. -/
def byteUnit (value : Int) : Nat :=
  if 1073741824 ≤ value ∧ value % 1073741824 = 0 then 1073741824
  else if 1048576 ≤ value ∧ value % 1048576 = 0 then 1048576
  else if 1024 ≤ value ∧ value % 1024 = 0 then 1024
  else 1

/-- `ParseByteSize` of what `FormatByteSize` writes. A number too large for an
`int64` is converted as amd64 does it. -/
def readByteSize (value : Int) : Option Int :=
  if value < 0 then none
  else
    let read : Int := nearestFloat (value.toNat / byteUnit value) * byteUnit value
    some (if read < 2 ^ 63 then read else -2 ^ 63)

/-- What `json.Unmarshal` makes of the JSON of a policy. -/
def Config.readBack (policy : Config F) : Option (Config F) := do
  let size ← readByteSize policy.shadow.maxRequestBody
  some { policy with shadow.maxRequestBody := size }

def ReleaseRecord.readBack (record : ReleaseRecord F) : Option (ReleaseRecord F) := do
  let policy ← record.policy.readBack
  some { record with policy := policy }

def Intent.readBack (intent : Intent F) : Option (Intent F) := do
  let record ← intent.record.readBack
  some { intent with record := record }

/-- `json.Marshal` takes the payload. -/
def Event.marshals : Event F → Bool
  | .draftSaved policy => policy.json.isSome
  | .releasePrepared intent | .releaseAborted intent => intent.record.policy.json.isSome
  | .releasePublished record | .releaseRolledBack record => record.policy.json.isSome

/-! ## The manager -/

structure ReleaseManager (F : Type) where
  draft : Option (Config F) := none
  history : List (ReleaseRecord F) := []
  pending : Table (Intent F) := ∅

namespace ReleaseManager

/-- `limit`. -/
def limit : Nat := 50

/-- `appendHistoryLocked`. -/
def appendHistory (m : ReleaseManager F) (record : ReleaseRecord F) : ReleaseManager F :=
  if record.operationID ≠ "" ∧
      m.history.any (fun existing => existing.operationID = record.operationID) then m
  else
    let history := m.history ++ [record]
    { m with history := history.drop (history.length - limit) }

/-- What a published or a rolled-back release changes. -/
def releasedAs (m : ReleaseManager F) (record : ReleaseRecord F) (operationID : String) :
    ReleaseManager F :=
  let m := m.appendHistory record
  { m with pending := m.pending.erase operationID, draft := none }

omit [Float64 F] in
@[simp] theorem appendHistory_pending (m : ReleaseManager F) (record : ReleaseRecord F) :
    (m.appendHistory record).pending = m.pending := by
  rw [appendHistory]
  split
  · rfl
  · rfl

omit [Float64 F] in
@[simp] theorem releasedAs_pending (m : ReleaseManager F) (record : ReleaseRecord F)
    (operationID : String) :
    (m.releasedAs record operationID).pending = m.pending.erase operationID := by
  rw [releasedAs, appendHistory_pending]

/-! ### Replay -/

/-- An intent under the operation it names, or else under the one it gives. -/
def identify (intent : Intent F) : Intent F :=
  if intent.operationID = "" then
    { intent with operationID := releaseOperationID intent.record }
  else intent

/-- One round of the loop of `NewPersistentReleaseManager`. -/
def replayEvent (m : ReleaseManager F) : Event F → Option (ReleaseManager F)
  | .draftSaved policy => do
      let policy ← policy.readBack
      some { m with draft := some (cloneConfig policy) }
  | .releasePrepared intent => do
      let intent ← intent.readBack
      some { m with pending := m.pending.set (identify intent) }
  | .releasePublished record | .releaseRolledBack record => do
      let record ← record.readBack
      some (m.releasedAs record (releaseOperationID record))
  | .releaseAborted intent => do
      let intent ← intent.readBack
      some { m with pending := m.pending.erase (identify intent).operationID }

def replayFrom (m : ReleaseManager F) : List (Line (Event F)) → Option (ReleaseManager F)
  | [] => some m
  | line :: lines => do
      let m ← m.replayEvent line.payload
      m.replayFrom lines

/-- `NewPersistentReleaseManager`; none where a line does not decode. -/
def replay (lines : List (Line (Event F))) : Option (ReleaseManager F) :=
  replayFrom { } lines

end ReleaseManager

/-- The manager with its journal. -/
structure Releases (F : Type) where
  manager : ReleaseManager F := {}
  ledger : Log (Event F) := {}

namespace Releases

open ReleaseManager

/-- `appendLocked`. -/
def append (r : Releases F) (now : Int) (entityID : String) (event : Event F) (fate : Fate) :
    Releases F × Bool :=
  let appended := r.ledger.append ⟨now, entityID, event⟩ (if event.marshals then fate else .lost)
  ({ r with ledger := appended.1 }, appended.2)

/-! ### Drafts -/

/-- The draft that is kept of a candidate. -/
def draftOf (candidate : Config F) : Config F :=
  let copy := { cloneConfig candidate with releaseStage := "draft" }
  { copy with revision := policyRevision copy }

def saveDraft (r : Releases F) (u : Unicode) (now : Int) (candidate : Config F)
    (expectedRevision : String) (fate : Fate) : Releases F × Except ReleaseError String :=
  if !validateCandidate u candidate then (r, .error .invalid)
  else if expectedRevision ≠ "" ∧
      r.manager.draft.any (fun draft => expectedRevision ≠ policyRevision draft) then
    (r, .error .conflict)
  else
    let copy := draftOf candidate
    let appended := r.append now copy.revision (.draftSaved copy) fate
    if appended.2 then
      ({ appended.1 with manager.draft := some copy }, .ok copy.revision)
    else (appended.1, .error .ledger)

/-- `Candidate`. -/
def candidate (r : Releases F) (candidate : Option (Config F)) : Except ReleaseError (Config F) :=
  match candidate, r.manager.draft with
  | some policy, _ | none, some policy => .ok (cloneConfig policy)
  | none, none => .error .draftNotFound

/-! ### Preparing -/

/-- The policy under its own revision, and the record of its release. -/
def recordOf (policy : Config F) (stage : String) (now : Int) (actor : String) :
    Config F × ReleaseRecord F :=
  let policy := { policy with revision := policyRevision policy }
  let record : ReleaseRecord F :=
    { revision := policy.revision, stage := stage, canaryPercent := policy.canaryPercent,
      createdAt := now, actor := actor, policy := cloneConfig policy }
  (policy, { record with operationID := releaseOperationID record })

def preparePublish (r : Releases F) (u : Unicode) (now : Int) (chosen : Option (Config F))
    (stage : String) (canaryPercent : Int) (actor : String) :
    Except ReleaseError (Config F × ReleaseRecord F) :=
  if stage ≠ "shadow" ∧ stage ≠ "canary" ∧ stage ≠ "full" then .error .action
  else
    match r.candidate chosen with
    | .error err => .error err
    | .ok policy =>
        if stage = "canary" ∧ (canaryPercent < 1 ∨ 100 < canaryPercent) then .error .invalid
        else
          let policy :=
            { policy with
              releaseStage := stage
              canaryPercent := if stage ≠ "canary" then 100 else canaryPercent }
          if !validateCandidate u policy then .error .invalid
          else .ok (recordOf policy stage now actor)

def prepareRollback (u : Unicode) (now : Int) (record : ReleaseRecord F) (actor : String) :
    Except ReleaseError (Config F × ReleaseRecord F) :=
  let policy := { cloneConfig record.policy with releaseStage := "full", canaryPercent := 100 }
  if !validateCandidate u { policy with revision := policyRevision policy } then .error .invalid
  else .ok (recordOf policy "full" now actor)

/-! ### The two phases -/

def prepareCommit (r : Releases F) (now : Int) (record : ReleaseRecord F) (rollback : Bool)
    (fate : Fate) : Releases F × Bool :=
  let record := record.identified
  let intent : Intent F := { operationID := record.operationID, rollback := rollback, record := record }
  if (r.manager.pending.get? intent.operationID).isSome then (r, true)
  else
    let appended := r.append now intent.operationID (.releasePrepared intent) fate
    if appended.2 then
      ({ appended.1 with manager.pending := appended.1.manager.pending.set intent }, true)
    else (appended.1, false)

/-- The event of a release that was applied. -/
def appliedEvent (rollback : Bool) (record : ReleaseRecord F) : Event F :=
  if rollback then .releaseRolledBack record else .releasePublished record

def finalizeCommit (r : Releases F) (now : Int) (record : ReleaseRecord F) (rollback : Bool)
    (fate : Fate) : Releases F × Bool :=
  let record := record.identified
  let appended := r.append now record.revision (appliedEvent rollback record) fate
  if appended.2 then
    ({ appended.1 with manager := appended.1.manager.releasedAs record record.operationID }, true)
  else (appended.1, false)

def abortCommit (r : Releases F) (now : Int) (record : ReleaseRecord F) (rollback : Bool)
    (reason : String) (fate : Fate) : Releases F × Bool :=
  let record := record.identified
  let intent : Intent F :=
    { operationID := record.operationID, rollback := rollback, record := record, reason := reason }
  let appended := r.append now intent.operationID (.releaseAborted intent) fate
  if appended.2 then
    ({ appended.1 with
        manager.pending := appended.1.manager.pending.erase intent.operationID }, true)
  else (appended.1, false)

/-! ### Reconciling -/

/-- One round of the loop of `Reconcile`. -/
def reconcileIntent (r : Releases F) (now : Int) (current : Config F) (intent : Intent F)
    (fate : Fate) : Releases F × Bool :=
  if policyRevision current = intent.record.revision then
    let appended := r.append now intent.operationID (appliedEvent intent.rollback intent.record) fate
    if appended.2 then
      ({ appended.1 with
          manager := appended.1.manager.releasedAs intent.record intent.operationID }, true)
    else (appended.1, false)
  else
    let intent := { intent with reason := "active_revision_mismatch" }
    let appended := r.append now intent.operationID (.releaseAborted intent) fate
    if appended.2 then
      ({ appended.1 with
          manager.pending := appended.1.manager.pending.erase intent.operationID }, true)
    else (appended.1, false)

/-- The loop of `Reconcile`, over the intents in the order the map gives them,
with the time and the fate of each append. It ends at the first append that
fails. -/
def reconcileLoop (r : Releases F) (current : Config F) :
    List (Intent F × Int × Fate) → Releases F × Bool
  | [] => (r, true)
  | (intent, now, fate) :: rest =>
      let settled := r.reconcileIntent now current intent fate
      if settled.2 then settled.1.reconcileLoop current rest else settled

/-- `Reconcile`. The map gives its intents in the order of `rank`, which may be
any. -/
def reconcile (r : Releases F) (current : Config F) (rank : String → Nat)
    (answers : String → Int × Fate) : Releases F × Bool :=
  r.reconcileLoop current <|
    (r.manager.pending.items.mergeSort fun left right =>
      rank left.operationID ≤ rank right.operationID).map fun intent =>
        (intent, answers intent.operationID)

end Releases

end RelayLifeline.Policy
