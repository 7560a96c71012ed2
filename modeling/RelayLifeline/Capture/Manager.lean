import Mathlib.Data.List.Sort
import RelayLifeline.Capture.Crypto
import RelayLifeline.Lib.Table

/-!
# Captures, and the keys that wrap their data keys

`capture.Manager` keeps one directory for each captured request: a metadata
file and the encrypted bodies, all bodies sealed under a data key of the
record's own. The metadata holds that key wrapped by a master key of the key
ring and names the master key, except for records from before key rings, which
name none until a start finds out which key opens them. What the manager has in
memory is a copy of the metadata; `KeyStatus` counts the copy.

Every write of the file system may fail, and what a call meets is part of its
input. A wrapped key stands for the base64 text of the same bytes. `dataKey` of
a directory and the key beside an object's name are not on disk: they record
the key `BeginRequest` drew and the key the object was sealed under. A map is
gone through in any order, which is what `rank` stands for.
-/

namespace RelayLifeline.Capture

open Lib

/-! ## Master keys -/

/-- A key ring as `ParseKeyring` lets it through, its keys in the order of
`IDs`. -/
structure Keyring where
  activeID : String
  keys : List (String × Bytes)
  sorted : (keys.map Prod.fst).Pairwise (· < ·)
  sized : ∀ entry ∈ keys, entry.2.length = 32
  named : ∀ entry ∈ keys, entry.1 ≠ ""
  active : activeID ∈ keys.map Prod.fst

/-- `m.keyring.Keys[m.keyring.ActiveID]`. -/
def Keyring.activeKey (ring : Keyring) : Bytes := (ring.keys.lookup ring.activeID).getD []

/-- `relay-lifeline-capture-key`, which a wrapped key is bound to. -/
def wrapContext : Bytes :=
  ['r', 'e', 'l', 'a', 'y', '-', 'l', 'i', 'f', 'e', 'l', 'i', 'n', 'e', '-', 'c', 'a', 'p', 't',
    'u', 'r', 'e', '-', 'k', 'e', 'y'].map fun c => UInt8.ofNat c.toNat

variable (g : Gcm)

def wrapKey (masterKey : Bytes) (nonce : Nonce g) (dataKey : Bytes) : Except Failure Bytes :=
  match newGCM g masterKey with
  | .error err => .error err
  | .ok g => .ok (nonce.1 ++ g.sealText masterKey nonce.1 dataKey wrapContext)

def unwrapKey (masterKey wrapped : Bytes) : Except Failure Bytes :=
  match newGCM g masterKey with
  | .error err => .error err
  | .ok g =>
      if wrapped.length < g.nonceSize then .error (.failed "invalid wrapped capture key")
      else
        match g.openText masterKey (wrapped.take g.nonceSize) (wrapped.drop g.nonceSize)
            wrapContext with
        | none => .error .authentication
        | some dataKey => .ok dataKey

/-! ## Records -/

structure BodyPart where
  contentType : String := ""
  object : String := ""
  originalBytes : Nat := 0
  storedBytes : Nat := 0
  truncated : Bool := false
  deriving DecidableEq

structure Attempt where
  number : Nat
  startedAt : Int
  finishedAt : Int
  statusCode : Int := 0
  error : String := ""
  response : Option BodyPart := none
  deriving DecidableEq

structure Record where
  id : String
  requestID : String
  method : String := ""
  path : String := ""
  state : String := ""
  startedAt : Int := 0
  completedAt : Int := 0
  expiresAt : Int := 0
  wrappedKey : Bytes := []
  keyID : String := ""
  request : BodyPart := {}
  attempts : List Attempt := []
  final : Option BodyPart := none
  capturedBytes : Nat := 0
  warnings : List String := []
  deriving DecidableEq

instance : Keyed Record String := ⟨fun record => record.id⟩

def appendUnique (values : List String) (value : String) : List String :=
  if value ∈ values then values else values ++ [value]

/-- The keys of the ring in turn, for a record that names none. -/
def firstKey (wrapped : Bytes) : List (String × Bytes) → Except String (Bytes × String)
  | [] => .error "no configured capture key can unwrap the record"
  | (id, key) :: keys =>
      match unwrapKey g key wrapped with
      | .ok dataKey => .ok (dataKey, id)
      | .error _ => firstKey wrapped keys

/-- `dataKeyLocked`. -/
def dataKey (ring : Keyring) (record : Record) : Except String (Bytes × String) :=
  if record.keyID ≠ "" then
    match ring.keys.lookup record.keyID with
    | none => .error ("capture key \"" ++ record.keyID ++ "\" is not configured")
    | some key =>
        match unwrapKey g key record.wrappedKey with
        | .error err => .error err.message
        | .ok dataKey => .ok (dataKey, record.keyID)
  else firstKey g record.wrappedKey ring.keys

/-! ## The storage directory -/

/-- The directory of one record. -/
structure Dir where
  id : String
  dataKey : Bytes
  metadata : Option Record := none
  objects : List (String × Bytes) := []
  /-- Metadata that names another record is no metadata. -/
  named : ∀ record, metadata = some record → record.id = id := by intro _ h; cases h

instance : Keyed Dir String := ⟨fun dir => dir.id⟩

/-- How the replacement of a metadata file went: it was not replaced, or it
was but the directory could not be synced. -/
inductive Fate
  | written
  | unsynced (err : String)
  | lost (stage err : String)
  deriving DecidableEq

structure Persisted where
  disk : Table Dir
  committed : Bool
  err : Option String

/-- `persistLocked`. -/
def persist (disk : Table Dir) (record : Record) (fate : Fate) : Persisted :=
  match h : disk.get? record.id with
  | none => ⟨disk, false, some "capture metadata_create: no such file or directory"⟩
  | some dir =>
      let disk' := disk.set
        { dir with
          metadata := some record
          named := fun record' h' => by
            injection h' with h'
            rw [← h']
            exact (Table.key_of_get? h).symm }
      match fate with
      | .written => ⟨disk', true, none⟩
      | .unsynced err => ⟨disk', true, some ("capture directory_sync: " ++ err)⟩
      | .lost stage err => ⟨disk, false, some ("capture " ++ stage ++ ": " ++ err)⟩

/-- How `os.RemoveAll` went. One that fails may have removed some files. -/
inductive Removal
  | done
  | failed (metadata : Bool) (objects : List String) (err : String)

def Removal.isDone : Removal → Bool
  | done => true
  | failed .. => false

def removeAll (disk : Table Dir) (id : String) : Removal → Table Dir
  | .done => disk.erase id
  | .failed metadata objects _ =>
      match disk.get? id with
      | none => disk
      | some dir =>
          disk.set
            { dir with
              metadata := if metadata then dir.metadata else none
              objects := dir.objects.filter fun o => o.1 ∈ objects
              named := fun record h => by
                split at h
                · exact dir.named record h
                · cases h }

/-- How the writing of a body went. One that fails may leave its object behind
when the object cannot be removed again. -/
inductive BodyFate
  | stored (originalBytes storedBytes : Nat) (truncated : Bool)
  | failed (err : String) (left : Bool)

def putObject (disk : Table Dir) (id name : String) (key : Bytes) : Table Dir :=
  match disk.get? id with
  | none => disk
  | some dir => disk.set { dir with objects := dir.objects ++ [(name, key)] }

structure ObjectWritten where
  disk : Table Dir
  part : Except String BodyPart

/-- `writeObjectLocked`. -/
def writeObject (disk : Table Dir) (id : String) (key : Bytes) (name : String)
    (base : BodyPart) (fate : BodyFate) : ObjectWritten :=
  if (disk.get? id).isNone then ⟨disk, .error "capture create: no such file or directory"⟩
  else
    match fate with
    | .stored originalBytes storedBytes truncated =>
        ⟨putObject disk id name key,
          .ok { base with object := name, originalBytes, storedBytes, truncated }⟩
    | .failed err left => ⟨if left then putObject disk id name key else disk, .error err⟩

def removeObject (disk : Table Dir) (id name : String) : Table Dir :=
  match disk.get? id with
  | none => disk
  | some dir => disk.set { dir with objects := dir.objects.filter fun o => o.1 ≠ name }

/-- The records, or the directories, in the order a loop meets them. -/
def ranked {α : Type} [Keyed α String] (items : List α) (rank : String → Nat) : List α :=
  items.insertionSort fun a b => rank (key a) ≤ rank (key b)

/-! ## The manager -/

structure Manager where
  keyring : Keyring
  unavailable : Option String := none
  active : Bool := false
  remaining : Int := 0
  deadline : Int := 0
  records : Table Record := ∅
  byRequest : String → Option String := fun _ => none
  disabled : String → Bool := fun _ => false

structure World where
  manager : Manager
  disk : Table Dir

/-- The activation is over: `active`, `remaining` and `deadline` go back to
their zero values. -/
def Manager.stop (m : Manager) : Manager := { m with active := false, remaining := 0, deadline := 0 }

def Manager.expireActivation (m : Manager) (now : Int) : Manager :=
  if m.active ∧ m.deadline ≠ 0 ∧ m.deadline ≤ now then m.stop else m

structure Activation where
  requestLimit : Int
  timeout : Int
  defaultRequestLimit : Int
  activationTimeout : Int
  now : Int
  capacity : Option String := none

/-- `time.Hour`. -/
def hour : Int := 3600000000000

def Manager.activate (m : Manager) (a : Activation) : Manager :=
  let requestLimit := if a.requestLimit = 0 then a.defaultRequestLimit else a.requestLimit
  let timeout := if a.timeout = 0 then a.activationTimeout else a.timeout
  if m.unavailable.isSome then m
  else if requestLimit < 1 ∨ 100 < requestLimit ∨ timeout ≤ 0 ∨ hour < timeout then m
  else if a.capacity.isSome then m
  else { m with active := true, remaining := requestLimit, deadline := a.now + timeout }

structure Begin where
  requestID : String
  method : String := ""
  path : String := ""
  contentType : String := ""
  now : Int
  retention : Int
  id : String
  dataKey : Bytes
  nonce : Nonce g
  capacity : Option String := none
  mkdir : Option String := none
  rootSync : Option String := none
  body : BodyFate
  metadata : Fate := .written
  removal : Removal := .done

variable {g}

/-- The record as `BeginRequest` makes it, before its body is written. -/
def Begin.record (b : Begin g) (activeID : String) (wrapped : Bytes) : Record where
  id := b.id
  requestID := b.requestID
  method := b.method
  path := b.path
  state := "active"
  startedAt := b.now
  expiresAt := b.now + b.retention
  wrappedKey := wrapped
  keyID := activeID
  request := { contentType := b.contentType }

/-- `BeginRequest` from where the directory exists. -/
def beginIn (m : Manager) (disk : Table Dir) (b : Begin g) (record : Record) : World :=
  let object := writeObject disk b.id b.dataKey "request.body.enc" record.request b.body
  match object.part with
  | .error _ => ⟨m.stop, removeAll object.disk b.id b.removal⟩
  | .ok part =>
      let record :=
        { record with
          request := part
          capturedBytes := record.capturedBytes + part.storedBytes }
      let persisted := persist object.disk record b.metadata
      if persisted.committed then
        ⟨{ m with
            records := m.records.set record
            byRequest := Function.update m.byRequest b.requestID (some b.id)
            remaining := m.remaining - 1
            active := if m.remaining - 1 = 0 then false else m.active }, persisted.disk⟩
      else ⟨m, removeAll persisted.disk b.id b.removal⟩

def beginRequest (w : World) (b : Begin g) : World :=
  let m := w.manager.expireActivation b.now
  if m.unavailable.isSome ∨ m.active = false ∨ m.remaining = 0 then { w with manager := m }
  else if b.capacity.isSome then { w with manager := m.stop }
  else
    match wrapKey g m.keyring.activeKey b.nonce b.dataKey with
    | .error _ => { w with manager := m }
    | .ok wrapped =>
        if b.mkdir.isSome then { w with manager := m }
        else
          let disk := w.disk.set { id := b.id, dataKey := b.dataKey }
          if b.rootSync.isSome then ⟨m, removeAll disk b.id b.removal⟩
          else beginIn m disk b (b.record m.keyring.activeID wrapped)

structure Attempted where
  requestID : String
  number : Nat
  statusCode : Int := 0
  contentType : String := ""
  error : String := ""
  started : Int := 0
  now : Int := 0
  maxAttempts : Nat
  /-- None when the attempt has no body. -/
  body : Option BodyFate := none
  metadata : Fate := .written
  /-- Whether an object that is not wanted after all can be removed. -/
  removable : Bool := true

/-- The names of the bodies of attempts. -/
def attemptObject (number : Nat) : String :=
  let digits := toString number
  "attempt-" ++ String.ofList (List.replicate (3 - digits.length) '0') ++ digits ++ ".body.enc"

/-- What `RecordAttempt` has before it writes the metadata. -/
structure Recording where
  disk : Table Dir
  record : Record
  response : Option BodyPart := none
  newObject : Option String := none
  disabled : Bool

/-- The body of an attempt: `none` where `RecordAttempt` returns because the
data key cannot be had. -/
def recordBody (g : Gcm) (ring : Keyring) (disk : Table Dir) (record : Record) (disabled : Bool)
    (a : Attempted) : Option Recording :=
  match a.body with
  | none => some { disk, record, disabled }
  | some body =>
      if disabled then some { disk, record, disabled }
      else if a.number ≤ a.maxAttempts then
        match dataKey g ring record with
        | .error _ => none
        | .ok (key, _) =>
            let object := writeObject disk record.id key (attemptObject a.number)
              { contentType := a.contentType } body
            match object.part with
            | .error err =>
                some
                  { disk := object.disk
                    record := { record with warnings := appendUnique record.warnings err }
                    disabled := true }
            | .ok part =>
                some
                  { disk := object.disk
                    record :=
                      { record with capturedBytes := record.capturedBytes + part.storedBytes }
                    response := some part
                    newObject := some part.object
                    disabled }
      else
        some
          { disk
            record :=
              { record with
                warnings := appendUnique record.warnings
                  "max attempts per request reached; later bodies were not captured" }
            disabled := true }

/-- The record with the attempt added. -/
def Recording.attempted (r : Recording) (a : Attempted) : Record :=
  let attempt : Attempt :=
    { number := a.number, startedAt := a.started, finishedAt := a.now, statusCode := a.statusCode,
      error := a.error, response := r.response }
  { r.record with attempts := r.record.attempts ++ [attempt] }

/-- `RecordAttempt` from where the attempt is added to the record. -/
def recordMetadata (w : World) (id : String) (a : Attempted) (r : Recording) : World :=
  let m := w.manager
  let record := r.attempted a
  let persisted := persist r.disk record a.metadata
  if persisted.committed then
    ⟨{ m with
        records := m.records.set record
        disabled := Function.update m.disabled a.requestID r.disabled }, persisted.disk⟩
  else
    match r.newObject with
    | none => { w with disk := persisted.disk }
    | some object =>
        { w with
          disk := if a.removable then removeObject persisted.disk id object else persisted.disk }

def recordAttempt (g : Gcm) (w : World) (a : Attempted) : World :=
  let m := w.manager
  match m.byRequest a.requestID with
  | none => w
  | some id =>
      match m.records.get? id with
      | none => w -- `forget` drops a record from all three maps at once.
      | some record =>
          match recordBody g m.keyring w.disk record (m.disabled a.requestID) a with
          | none => w
          | some r => recordMetadata w id a r

structure Finished where
  requestID : String
  state : String
  finalAttempt : Nat
  now : Int
  metadata : Fate := .written

/-- The response of the last attempt with the given number that has one. -/
def finalPart (record : Record) (finalAttempt : Nat) : Option BodyPart :=
  record.attempts.foldl
    (fun final attempt =>
      if attempt.number = finalAttempt ∧ attempt.response.isSome then attempt.response else final)
    record.final

def Record.finish (record : Record) (f : Finished) : Record :=
  { record with
    state := f.state
    completedAt := f.now
    final := finalPart record f.finalAttempt }

def finish (w : World) (f : Finished) : World :=
  let m := w.manager
  match m.byRequest f.requestID with
  | none => w
  | some id =>
      match m.records.get? id with
      | none => w
      | some record =>
          let record := record.finish f
          let persisted := persist w.disk record f.metadata
          if persisted.committed then
            ⟨{ m with
                records := m.records.set record
                byRequest := Function.update m.byRequest f.requestID none
                disabled := Function.update m.disabled f.requestID false }, persisted.disk⟩
          else { w with disk := persisted.disk }

/-! ## Key status and rewrapping -/

structure KeyStatus where
  activeID : String
  configured : List String
  recordsByID : String → Nat
  unresolved : Nat

def Manager.keyStatus (m : Manager) : KeyStatus where
  activeID := m.keyring.activeID
  configured := m.keyring.keys.map Prod.fst
  recordsByID id := m.records.items.countP fun r => r.keyID ≠ "" ∧ r.keyID = id
  unresolved := m.records.items.countP fun r => r.keyID = ""

structure RewrapResult where
  activeID : String
  updated : Nat
  unchanged : Nat
  deriving DecidableEq

/-- What a call of `RewrapAll` meets. The maps it goes through are gone through
twice, and a record may be written twice. -/
structure Rewrap (g : Gcm) where
  nonces : String → Nonce g
  rank : String → Nat
  writeRank : String → Nat
  write : String → Fate := fun _ => .written
  rollback : String → Fate := fun _ => .written

def rewrapRecord (ring : Keyring) (nonce : Nonce g) (record : Record) : Except String Record :=
  match dataKey g ring record with
  | .error err => .error ("capture " ++ record.id ++ " cannot be unwrapped: " ++ err)
  | .ok (key, _) =>
      match wrapKey g ring.activeKey nonce key with
      | .error err => .error err.message
      | .ok wrapped => .ok { record with wrappedKey := wrapped, keyID := ring.activeID }

/-- The records to write, each after the original it replaces. -/
def updates (ring : Keyring) (nonces : String → Nonce g) :
    List Record → Except String (List (Record × Record))
  | [] => .ok []
  | record :: records =>
      if record.keyID = ring.activeID then updates ring nonces records
      else
        match rewrapRecord ring (nonces record.id) record with
        | .error err => .error err
        | .ok updated =>
            match updates ring nonces records with
            | .error err => .error err
            | .ok rest => .ok ((record, updated) :: rest)

/-- The originals are written back, whatever becomes of each. -/
def rollBack (rollback : String → Fate) (disk : Table Dir) (originals : List Record) : Table Dir :=
  originals.foldl (fun disk original => (persist disk original (rollback original.id)).disk) disk

/-- The errors of the writes of `rollBack`. -/
def rollBackErrors (rollback : String → Fate) (disk : Table Dir) : List Record → List String
  | [] => []
  | original :: originals =>
      let persisted := persist disk original (rollback original.id)
      persisted.err.toList ++ rollBackErrors rollback persisted.disk originals

/-- The second loop of `RewrapAll`: the disk it leaves, and its errors. -/
def commit (r : Rewrap g) (disk : Table Dir) (persisted : List Record) :
    List (Record × Record) → Table Dir × List String
  | [] => (disk, [])
  | (original, updated) :: rest =>
      let written := persist disk updated (r.write updated.id)
      let persisted := if written.committed then persisted ++ [original] else persisted
      match written.err with
      | some err =>
          (rollBack r.rollback written.disk persisted,
            err :: rollBackErrors r.rollback written.disk persisted)
      | none =>
          if written.committed then commit r written.disk persisted rest
          else (written.disk, ["capture metadata was not committed"])

structure Rewrapped where
  world : World
  result : Except (List String) RewrapResult

def rewrapAll (w : World) (r : Rewrap g) : Rewrapped :=
  let m := w.manager
  match updates m.keyring r.nonces (ranked m.records.items r.rank) with
  | .error err => ⟨w, .error [err]⟩
  | .ok updated =>
      let committed := commit r w.disk []
        (updated.insertionSort fun a b => r.writeRank a.1.id ≤ r.writeRank b.1.id)
      if committed.2 ≠ [] then ⟨{ w with disk := committed.1 }, .error committed.2⟩
      else
        ⟨⟨{ m with records := updated.foldl (fun records u => records.set u.2) m.records },
            committed.1⟩,
          .ok
            { activeID := m.keyring.activeID
              updated := updated.length
              unchanged := m.records.items.countP fun record =>
                record.keyID = m.keyring.activeID }⟩

/-! ## Deletion -/

/-- A record is forgotten. -/
def Manager.forget (m : Manager) (record : Record) : Manager :=
  { m with
    records := m.records.erase record.id
    byRequest := Function.update m.byRequest record.requestID none
    disabled := Function.update m.disabled record.requestID false }

structure Deletion where
  removal : String → Removal := fun _ => .done
  sync : Option String := none

def delete (w : World) (id : String) (d : Deletion) : World :=
  match w.manager.records.get? id with
  | none => w
  | some record =>
      let disk := removeAll w.disk id (d.removal id)
      if (d.removal id).isDone ∧ d.sync.isNone then ⟨w.manager.forget record, disk⟩
      else { w with disk }

def deleteExpired (w : World) (now : Int) (d : Deletion) : World :=
  let expired := w.manager.records.items.filter fun record => record.expiresAt ≤ now
  let removed := expired.filter fun record => (d.removal record.id).isDone
  let disk := expired.foldl (fun disk record => removeAll disk record.id (d.removal record.id)) w.disk
  if d.sync.isSome then { w with disk }
  else ⟨removed.foldl Manager.forget w.manager, disk⟩

/-! ## Starting -/

structure Startup where
  now : Int
  mkdir : Option String := none
  readDir : Option String := none
  rank : String → Nat
  /-- The metadata files that cannot be read. -/
  unreadable : String → Bool := fun _ => false
  resolve : String → Fate := fun _ => .written
  interrupt : String → Fate := fun _ => .written
  deletion : Deletion := {}
  enabled : Bool := false
  defaultRequestLimit : Int := 0
  activationTimeout : Int := 0

/-- The loop of `initialize`, which returns at the first error. -/
structure Loading where
  disk : Table Dir
  records : Table Record := ∅
  err : Option String := none

/-- A record that was active when the service stopped. -/
def Record.interrupt (record : Record) (now : Int) : Record :=
  { record with
    state := "interrupted"
    completedAt := now
    warnings := appendUnique record.warnings "service restarted before request completed"
    final :=
      match record.final with
      | some part => some part
      | none => record.attempts.reverse.findSome? fun attempt => attempt.response }

/-- The key of a record that names none is looked for, and written down. -/
def resolveKey (g : Gcm) (ring : Keyring) (s : Startup) (disk : Table Dir) (record : Record) :
    Persisted × Record :=
  if record.keyID = "" then
    match dataKey g ring record with
    | .error _ => (⟨disk, true, none⟩, record)
    | .ok (_, id) =>
        (persist disk { record with keyID := id } (s.resolve record.id), { record with keyID := id })
  else (⟨disk, true, none⟩, record)

def loadRecord (g : Gcm) (ring : Keyring) (s : Startup) (l : Loading) (record : Record) :
    Loading :=
  let resolved := resolveKey g ring s l.disk record
  if resolved.1.err.isSome then { l with disk := resolved.1.disk, err := resolved.1.err }
  else if resolved.2.state = "active" then
    let record := resolved.2.interrupt s.now
    let persisted := persist resolved.1.disk record (s.interrupt record.id)
    if persisted.err.isSome then { l with disk := persisted.disk, err := persisted.err }
    else { l with disk := persisted.disk, records := l.records.set record }
  else { l with disk := resolved.1.disk, records := l.records.set resolved.2 }

def loadDir (g : Gcm) (ring : Keyring) (s : Startup) (l : Loading) (dir : Dir) : Loading :=
  if l.err.isSome then l
  else
    match dir.metadata with
    | none => l
    | some record => if s.unreadable dir.id then l else loadRecord g ring s l record

/-- `initialize`. -/
def loadAll (g : Gcm) (ring : Keyring) (disk : Table Dir) (s : Startup) : Loading :=
  if s.mkdir.isSome then { disk, err := s.mkdir }
  else if s.readDir.isSome then { disk, err := s.readDir }
  else (ranked disk.items s.rank).foldl (loadDir g ring s) { disk }

/-- `NewWithKeyring`. -/
def start (g : Gcm) (disk : Table Dir) (ring : Keyring) (s : Startup) : World :=
  let loaded := loadAll g ring disk s
  let manager : Manager := { keyring := ring, records := loaded.records }
  if loaded.err.isSome then ⟨{ manager with unavailable := loaded.err }, loaded.disk⟩
  else
    let w := deleteExpired ⟨manager, loaded.disk⟩ s.now s.deletion
    if s.enabled then
      { w with
        manager :=
          { w.manager with
            active := true
            remaining := s.defaultRequestLimit
            deadline := s.now + s.activationTimeout } }
    else w

/-! ## Runs -/

inductive Input (g : Gcm)
  | activate (a : Activation)
  | stop
  | beginRequest (b : Begin g)
  | recordAttempt (a : Attempted)
  | finish (f : Finished)
  | rewrapAll (r : Rewrap g)
  | delete (id : String) (d : Deletion)
  | deleteExpired (now : Int) (d : Deletion)
  | restart (ring : Keyring) (s : Startup)

/-- One call, or a restart of the service. The random source does not repeat a
record's id: such an input is no step. -/
def step (g : Gcm) (w : World) : Input g → World
  | .activate a => { w with manager := w.manager.activate a }
  | .stop => { w with manager := w.manager.stop }
  | .beginRequest b =>
      if (w.disk.get? b.id).isSome ∨ (w.manager.records.get? b.id).isSome then w
      else beginRequest w b
  | .recordAttempt a => recordAttempt g w a
  | .finish f => finish w f
  | .rewrapAll r => (rewrapAll w r).world
  | .delete id d => delete w id d
  | .deleteExpired now d => deleteExpired w now d
  | .restart ring s => start g w.disk ring s

end RelayLifeline.Capture
