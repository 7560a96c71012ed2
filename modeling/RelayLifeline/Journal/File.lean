import RelayLifeline.Journal.Wire

/-!
# The files of the journal

`journal.Store` keeps two files, the journal and the anchor of its last entry,
and changes them one after the other: an append writes a line and then renames
a new anchor into place, a compaction renames a new journal and then a new
anchor. The journal is its bytes: a write that fails may have put any part of
the line into it, the reader splits the file into lines as `bufio.Scanner` does,
and takes what `json.Unmarshal` makes of each.

Paths, permissions, hooks, statistics and the time and text of a failure decide
nothing here and are left out.
-/

namespace RelayLifeline.Journal.Wire

open Lib.Json

abbrev newline : UInt8 := 0x0a

/-! ## Reading -/

/-- The longest line the scanner takes, its end included. -/
def maxLine : Nat := 16 * 1024 * 1024

/-- The lines that `bufio.ScanLines` finds. The last one need not be ended. -/
def lines : Text → List Text
  | [] => []
  | c :: rest =>
      if c = newline then [] :: lines rest
      else
        match lines rest with
        | [] => [[c]]
        | line :: others => (c :: line) :: others

def dropCR (line : Text) : Text :=
  if line.getLast? = some 0x0d then line.dropLast else line

inductive ReadError where
  | tooLong
  | decode (entry : Nat)
  | invalidSequence (sequence : Nat)
  | integrity (sequence : Nat)
  deriving DecidableEq

/-- The loop of `readAndVerify`: the entries up to the first line that is not
taken, and why it is not. A line and its end have to fit into the buffer, also
where the end is missing. -/
def readLines : Nat → Text → List Text → List Entry × Option ReadError
  | _, _, [] => ([], none)
  | sequence, previousHash, line :: rest =>
      if maxLine < line.length + 1 then ([], some .tooLong)
      else
        match unmarshal (dropCR line) with
        | none => ([], some (.decode (sequence + 1)))
        | some entry =>
            if entry.schemaVersion ≠ currentSchemaVersion ∨
                entry.sequence ≠ (sequence + 1) % 2 ^ 64 then
              ([], some (.invalidSequence entry.sequence))
            else if entry.previousHash ≠ previousHash ∨ entry.hash ≠ entryHash entry then
              ([], some (.integrity entry.sequence))
            else
              let read := readLines entry.sequence entry.hash rest
              (entry :: read.1, read.2)

/-- The valid chain that a file begins with. -/
def validChain (journal : Option Text) : List Entry := (readLines 0 [] (lines (journal.getD []))).1

def readAndVerify (journal : Option Text) : Except ReadError (List Entry) :=
  match readLines 0 [] (lines (journal.getD [])) with
  | (entries, none) => .ok entries
  | (_, some err) => .error err

/-- The sequence and hash a list of entries ends in. -/
def tip (entries : List Entry) : Nat × Text :=
  match entries.getLast? with
  | none => (0, [])
  | some last => (last.sequence, last.hash)

/-! ## The anchor -/

/-- `integrityAnchor`. -/
structure Anchor where
  schemaVersion : Int := 0
  sequence : Nat := 0
  hash : Text := []
  mac : Text := []
  deriving DecidableEq

/-- What `anchorMAC` authenticates. -/
def anchorMessage (schema : Int) (sequence : Nat) (hash : Text) : Text :=
  utf8 schema.repr ++ colon :: (utf8 sequence.repr ++ colon :: hash)

def anchorMAC (key : Text) (schema : Int) (sequence : Nat) (hash : Text) : Text :=
  utf8 (hex (hmac key (anchorMessage schema sequence hash)))

/-- `json.Marshal(anchor)`. -/
def Anchor.marshal (a : Anchor) : Text :=
  objectText ([(utf8 "schemaVersion", utf8 a.schemaVersion.repr),
    (utf8 "sequence", utf8 a.sequence.repr)] ++
      ((if a.hash = [] then [] else [(utf8 "hash", encodeString a.hash)]) ++
        [(utf8 "mac", encodeString a.mac)]))

/-- What a member of the object does to the anchor. -/
def Anchor.set (a : Anchor) (field : Text × Text) : Option Anchor :=
  if named "schemaVersion" field then
    (unmarshalInt field.2).map fun n => { a with schemaVersion := n.getD a.schemaVersion }
  else if named "sequence" field then
    (unmarshalUint field.2).map fun n => { a with sequence := n.getD a.sequence }
  else if named "hash" field then
    (unmarshalText field.2).map fun s => { a with hash := s.getD a.hash }
  else if named "mac" field then
    (unmarshalText field.2).map fun s => { a with mac := s.getD a.mac }
  else some a

/-- `json.Unmarshal(data, &anchor)`. -/
def unmarshalAnchor (data : Text) : Option Anchor :=
  (unmarshalFields data).bind fun fields => fields.foldlM Anchor.set {}

def verifyAnchorData (data key : Text) (sequence : Nat) (hash : Text) : Bool :=
  (unmarshalAnchor data).any fun anchor =>
    anchor.schemaVersion = (currentSchemaVersion : Int) ∧ anchor.sequence = sequence ∧
      anchor.hash = hash ∧
        anchor.mac = anchorMAC key anchor.schemaVersion anchor.sequence anchor.hash

/-- The file that `writeAnchor` writes. -/
def anchorText (key : Text) (sequence : Nat) (hash : Text) : Text :=
  Anchor.marshal
    { schemaVersion := currentSchemaVersion, sequence, hash
      mac := anchorMAC key currentSchemaVersion sequence hash } ++ [newline]

/-! ## Opening -/

/-- The two files. -/
structure Disk where
  journal : Option Text := none
  anchor : Option Text := none

/-- The stages that a failure is recorded with. -/
inductive Stage where
  | encode
  | write
  | sync
  | anchor
  deriving DecidableEq

inductive State where
  | healthy
  | degraded
  | closed
  deriving DecidableEq

structure Store where
  entries : List Entry
  sequence : Nat
  lastHash : Text
  file : Bool := true
  sync : Bool
  state : State := .healthy
  failedStage : Option Stage := none
  failureCount : Nat := 0
  integrityKey : Text

inductive OpenError where
  | read (err : ReadError)
  | anchorMismatch
  deriving DecidableEq

/-- `OpenWithIntegrity`, with `verifyOrCreateAnchor`. -/
def openWithIntegrity (disk : Disk) (sync : Bool) (key : Text) : Disk × Except OpenError Store :=
  match readAndVerify disk.journal with
  | .error err => (disk, .error (.read err))
  | .ok entries =>
      let disk := { disk with journal := some (disk.journal.getD []) }
      let store : Store :=
        { entries, sequence := (tip entries).1, lastHash := (tip entries).2, sync,
          integrityKey := key }
      if key = [] then (disk, .ok store)
      else
        match disk.anchor with
        | none =>
            ({ disk with anchor := some (anchorText key store.sequence store.lastHash) }, .ok store)
        | some data =>
            if verifyAnchorData data key store.sequence store.lastHash then (disk, .ok store)
            else (disk, .error .anchorMismatch)

/-- `VerifyWithIntegrity`. -/
def verifyWithIntegrity (disk : Disk) (key : Text) : Except OpenError (List Entry) :=
  match readAndVerify disk.journal with
  | .error err => .error (.read err)
  | .ok entries =>
      if key = [] then .ok entries
      else if disk.anchor.any fun data => verifyAnchorData data key (tip entries).1 (tip entries).2
      then .ok entries
      else .error .anchorMismatch

/-! ## Appending -/

/-- What goes wrong in an operation. A write that fails has put so many bytes
into the file. `directory` comes after the anchor's rename. -/
inductive Fault where
  | encode
  | write (written : Nat)
  | sync
  | rename
  | anchor
  | directory
  deriving DecidableEq

inductive WriteError where
  | closed
  | degraded
  | failed (stage : Stage)
  /-- A compaction that has left the journal as it was. -/
  | uncommitted
  deriving DecidableEq

/-- What an operation leaves, and what it returns. -/
structure Outcome (α : Type) where
  disk : Disk
  store : Store
  result : Except WriteError α

/-- The line of an entry. -/
def Entry.line (e : Entry) : Text := e.marshal.getD []

/-- The lines of the entries, each with its end. -/
def fileText (entries : List Entry) : Text := entries.flatMap fun e => e.line ++ [newline]

/-- Bytes at the end of the journal. -/
def Disk.write (disk : Disk) (bytes : Text) : Disk :=
  { disk with journal := some (disk.journal.getD [] ++ bytes) }

namespace Store

/-- `recordFailureLocked`. -/
def recordFailure (s : Store) (stage : Stage) : Store :=
  { s with
    state := if s.state ≠ .closed then .degraded else s.state
    failedStage := some stage
    failureCount := s.failureCount + 1 }

def fail {α : Type} (s : Store) (disk : Disk) (stage : Stage) : Outcome α :=
  ⟨disk, s.recordFailure stage, .error (.failed stage)⟩

/-- The entry an append makes. Its time is without the reading of the monotonic
clock, which is not written. -/
def nextEntry (s : Store) (now : Int) (entityID eventType : Text) (payload : Payload) : Entry :=
  let entry : Entry :=
    { schemaVersion := currentSchemaVersion, sequence := (s.sequence + 1) % 2 ^ 64,
      time := { instant := now }, entityID, type := eventType, payload := payload.text,
      previousHash := s.lastHash }
  { entry with hash := entryHash entry }

/-- The last part of `append` and of `Compact`: `updateAnchorLocked`, and what
is left to do once the anchor is in place. -/
def commit {α : Type} (s : Store) (disk : Disk) (fault : Option Fault) (done : Store) (value : α) :
    Outcome α :=
  if s.integrityKey = [] then ⟨disk, done, .ok value⟩
  else if fault = some .anchor then s.fail disk .anchor
  else
    let disk := { disk with anchor := some (anchorText s.integrityKey s.sequence s.lastHash) }
    if fault = some .directory then s.fail disk .anchor else ⟨disk, done, .ok value⟩

/-- `append`. The payload is none where it does not marshal. -/
def append (s : Store) (disk : Disk) (now : Int) (entityID eventType : Text)
    (payload : Option Payload) (fault : Option Fault) : Outcome Entry :=
  match payload with
  | none => s.fail disk .encode
  | some payload =>
      if !s.file ∨ s.state = .closed then ⟨disk, s.recordFailure .write, .error .closed⟩
      else if s.state = .degraded then ⟨disk, s, .error .degraded⟩
      else
        let entry := s.nextEntry now entityID eventType payload
        match entry.marshal, fault with
        | none, _ => s.fail disk .encode
        | some line, some (.write written) =>
            s.fail (disk.write ((line ++ [newline]).take written)) .write
        | some line, fault =>
            let disk := disk.write (line ++ [newline])
            if s.sync ∧ fault = some .sync then s.fail disk .sync
            else
              let s := { s with sequence := entry.sequence, lastHash := entry.hash }
              s.commit disk fault { s with entries := s.entries ++ [entry] } entry

/-! ## Compacting -/

/-- The loop of `rebuildChain`. -/
def relink : Nat → Text → List Entry → List Entry
  | _, _, [] => []
  | index, previousHash, entry :: rest =>
      let entry := { entry with sequence := (index + 1) % 2 ^ 64, previousHash := previousHash }
      let entry := { entry with hash := entryHash entry }
      entry :: relink (index + 1) entry.hash rest

/-- `rebuildChain`. -/
def rebuildChain (entries : List Entry) : List Entry := relink 0 [] entries

/-- The entity is protected, or one of its entries is recent. -/
def retains (s : Store) (cutoff : Time) (protectedEntities : List Text) (entityID : Text) : Bool :=
  entityID ∈ protectedEntities ∨
    s.entries.any fun entry => !entry.time.before cutoff ∧ entry.entityID = entityID

def retained (s : Store) (cutoff : Time) (protectedEntities : List Text) : List Entry :=
  s.entries.filter fun entry => s.retains cutoff protectedEntities entry.entityID

/-- What keeps `Compact` from renaming the new journal into place. -/
def Fault.precedes : Fault → Bool
  | .encode | .write _ | .sync | .rename => true
  | .anchor | .directory => false

/-- `CompactWithProtection`. -/
def compact (s : Store) (disk : Disk) (cutoff : Time) (protectedEntities : List Text)
    (fault : Option Fault) : Outcome Nat :=
  let kept := s.retained cutoff protectedEntities
  let removed := s.entries.length - kept.length
  if removed = 0 then ⟨disk, s, .ok 0⟩
  else
    let rebuilt := rebuildChain kept
    if fault.any Fault.precedes ∨ rebuilt.any fun e => e.marshal.isNone then
      ⟨disk, s, .error .uncommitted⟩
    else
      let s := { s with
        file := true
        entries := rebuilt
        sequence := (tip rebuilt).1
        lastHash := (tip rebuilt).2 }
      s.commit { disk with journal := some (fileText rebuilt) } fault s removed

/-- `Close`. -/
def close (s : Store) : Store :=
  if s.file then { s with file := false, state := .closed } else s

end Store

/-! ## Runs -/

/-- What an append is given for an entry. A compaction leaves it as it is. -/
structure Content where
  time : Time
  entityID : Text
  type : Text
  payload : Text
  deriving DecidableEq

def Entry.content (e : Entry) : Content := ⟨e.time, e.entityID, e.type, e.payload⟩

/-- Those of an entity that is protected or has a recent one. -/
def keepContents (contents : List Content) (cutoff : Time) (protectedEntities : List Text) :
    List Content :=
  contents.filter fun c =>
    c.entityID ∈ protectedEntities ∨
      contents.any fun d => !d.time.before cutoff ∧ d.entityID = c.entityID

/-- The process that owns the journal: its files, its store once it is open,
what it has acknowledged, and whether an append has failed since it was
opened. -/
structure World where
  key : Text
  disk : Disk
  store : Option Store := none
  acknowledged : List Content := []
  refused : Bool := false

inductive Input where
  | reopen (sync : Bool)
  | append (now : Int) (entityID eventType : Text) (payload : Option Payload) (fault : Option Fault)
  | compact (cutoff : Time) (protectedEntities : List Text) (fault : Option Fault)
  | close

namespace World

/-- Where the journal has been opened. -/
def opened (key : Text) (disk : Disk) (s : Store) : World :=
  { key, disk, store := some s, acknowledged := s.entries.map Entry.content }

/-- An append acknowledges what it was given; a compaction that has renamed the
new journal into place removes what it does not retain, also where it fails at
the anchor. -/
def step (w : World) : Input → World
  | .reopen sync =>
      match openWithIntegrity w.disk sync w.key with
      | (disk, .error _) => { w with disk, store := none }
      | (disk, .ok s) => opened w.key disk s
  | .append now entityID eventType payload fault =>
      match w.store with
      | none => w
      | some s =>
          let outcome := s.append w.disk now entityID eventType payload fault
          let w := { w with disk := outcome.disk, store := some outcome.store }
          match outcome.result, payload with
          | .ok _, some payload =>
              { w with
                acknowledged :=
                  w.acknowledged ++ [⟨{ instant := now }, entityID, eventType, payload.text⟩] }
          | _, _ => { w with refused := true }
  | .compact cutoff protectedEntities fault =>
      match w.store with
      | none => w
      | some s =>
          let outcome := s.compact w.disk cutoff protectedEntities fault
          let w := { w with disk := outcome.disk, store := some outcome.store }
          match outcome.result with
          | .error .uncommitted => w
          | _ => { w with acknowledged := keepContents w.acknowledged cutoff protectedEntities }
  | .close => { w with store := w.store.map Store.close }

def run (w : World) (inputs : List Input) : World := inputs.foldl step w

end World

/-! ## Crashes -/

/-- Where a process dies in an operation: before the journal has changed, after
that and before the anchor's rename, or after the rename. -/
inductive Death where
  | idle
  | written
  | anchored
  deriving DecidableEq

/-- A failure at the same place, which leaves the same files. -/
def Death.fault : Death → Fault
  | .idle => .write 0
  | .written => .anchor
  | .anchored => .directory

/-- Where an operation does not go on. -/
inductive Halt where
  | fails (fault : Fault)
  | dies (death : Death)
  deriving DecidableEq

def Halt.fault : Halt → Fault
  | .fails fault => fault
  | .dies death => death.fault

/-- The process that owns the journal, where it may die: its files, its store
while it lives, the entries it has acknowledged and, once it has died, those it
would have acknowledged next. -/
structure Process where
  key : Text
  disk : Disk
  store : Option Store
  acknowledged : List Entry
  inFlight : Option (List Entry) := none

inductive Operation where
  | append (now : Int) (entityID eventType : Text) (payload : Option Payload) (halt : Option Halt)
  | compact (cutoff : Time) (protectedEntities : List Text) (halt : Option Halt)
  | close
  | reopen (sync : Bool)

/-- What a compaction makes of the entries. -/
def compacted (entries : List Entry) (cutoff : Time) (protectedEntities : List Text) :
    List Entry :=
  let kept := entries.filter fun entry =>
    entry.entityID ∈ protectedEntities ∨
      entries.any fun recent => !recent.time.before cutoff ∧ recent.entityID = entry.entityID
  if entries.length - kept.length = 0 then entries else Store.rebuildChain kept

namespace Process

/-- Where the journal has been opened. -/
def start (key : Text) (disk : Disk) (s : Store) : Process :=
  { key, disk, store := some s, acknowledged := s.entries }

/-- What is acknowledged once an operation has returned. -/
def taken {α : Type} (p : Process) (result : Except WriteError α) (next : α → List Entry) :
    List Entry :=
  match result with
  | .ok value => next value
  | .error _ => p.acknowledged

/-- Take what an operation leaves. -/
def finish {α : Type} (p : Process) (perform : Option Fault → Outcome α) (halt : Option Halt)
    (next : α → List Entry) : Process :=
  let outcome := perform (halt.map Halt.fault)
  match halt with
  | some (.dies _) =>
      { p with
        disk := outcome.disk
        store := none
        inFlight := some (p.taken (perform none).result next) }
  | _ =>
      { p with
        disk := outcome.disk
        store := some outcome.store
        acknowledged := p.taken outcome.result next }

def step (p : Process) : Operation → Process
  | .append now entityID eventType payload halt =>
      match p.store with
      | none => p
      | some s =>
          p.finish (s.append p.disk now entityID eventType payload) halt fun entry =>
            p.acknowledged ++ [entry]
  | .compact cutoff protectedEntities halt =>
      match p.store with
      | none => p
      | some s =>
          p.finish (s.compact p.disk cutoff protectedEntities) halt fun _ =>
            compacted p.acknowledged cutoff protectedEntities
  | .close => { p with store := p.store.map Store.close }
  | .reopen sync =>
      match openWithIntegrity p.disk sync p.key with
      | (disk, .error _) => { p with disk, store := none }
      | (disk, .ok s) => start p.key disk s

def run (p : Process) (operations : List Operation) : Process := operations.foldl step p

end Process

end RelayLifeline.Journal.Wire
