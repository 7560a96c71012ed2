import RelayLifeline.Lib.Table

/-!
# The response cache

A response is kept in a `ReplayBuffer` before any of it is sent on, in memory
up to a limit and in a temporary file from there on, and what all buffers keep
is counted against one `cacheBudget`. A `Write` reserves its bytes before it
stores them and gives back what it did not store, and `Close` gives back the
rest. The budget has its own lock and a buffer belongs to one request, so
between the two times a `Write` goes to the budget, other buffers can write.

Sizes are integers: `int64` holds the bytes of any process. What the file
system answers to a `Write` is an input.
-/

namespace RelayLifeline.Proxy

open Lib

/-- `cacheBudget`. That a release stopped at zero is noted as well. -/
structure CacheBudget where
  used : Int := 0
  clamped : Bool := false
  deriving DecidableEq

namespace CacheBudget

def reserve (b : CacheBudget) (size limit : Int) : Option CacheBudget :=
  if 0 < limit ∧ (limit < size ∨ limit - size < b.used) then none
  else some { b with used := b.used + size }

def release (b : CacheBudget) (size : Int) : CacheBudget :=
  if b.used - size < 0 then { used := 0, clamped := true }
  else { b with used := b.used - size }

end CacheBudget

inductive BufferError where
  | responseBodyTooLarge
  | cacheBudgetExceeded
  | cacheDiskSpace
  | replayBufferClosed
  | availableBytes
  | createTemp
  | chmod
  | fileWrite
  deriving DecidableEq

structure ReplayBuffer where
  memoryLimit : Int
  maxSize : Int := 0
  maxTotal : Int := 0
  minimumFree : Int := 0
  /-- The buffer counts against the budget. -/
  budgeted : Bool := false
  memory : List UInt8 := []
  file : Option (List UInt8) := none
  size : Int := 0
  reserved : Int := 0
  diskAllowed : Int := 0
  closed : Bool := false
  deriving DecidableEq

/-- What the file system answers to one `Write`: the bytes that are free where
the buffer spills and where it checks its allowance, how the spill goes, and
how many bytes a write of the file that fails has written. -/
structure Storage where
  spillAvailable : Option Int := some 0
  created : Bool := true
  secured : Bool := true
  copied : Bool := true
  available : Option Int := some 0
  failsAfter : Option Nat := none

/-- `diskCheckWindow`. -/
def diskCheckWindow : Int := 8 * 1024 * 1024

/-- What a `Write` that has reserved its bytes comes to, with what it gives
back of them. -/
structure Stored where
  buffer : ReplayBuffer
  n : Nat
  error : Option BufferError
  unused : Int

namespace ReplayBuffer

/-- What `Write` returns before it reserves anything, if it does. -/
def returnsEarly (b : ReplayBuffer) (data : List UInt8) : Option (Except BufferError Nat) :=
  if b.closed then some (.error .replayBufferClosed)
  else if data = [] then some (.ok 0)
  else if 0 < b.maxSize ∧ (b.maxSize < data.length ∨ b.maxSize - data.length < b.size) then
    some (.error .responseBodyTooLarge)
  else none

def ensureDiskSpace (b : ReplayBuffer) (available : Option Int) (required : Int) :
    Option BufferError :=
  match available with
  | none => some .availableBytes
  | some available =>
      if available < required ∨ available - required < b.minimumFree then some .cacheDiskSpace
      else none

def spill (b : ReplayBuffer) (disk : Storage) : Except BufferError ReplayBuffer :=
  match b.ensureDiskSpace disk.spillAvailable b.memory.length with
  | some err => .error err
  | none =>
      if !disk.created then .error .createTemp
      else if !disk.secured then .error .chmod
      else if !disk.copied then .error .fileWrite
      else .ok { b with memory := [], file := some b.memory }

def consumeDiskAllowance (b : ReplayBuffer) (disk : Storage) (size : Int) :
    Except BufferError ReplayBuffer :=
  if size ≤ b.diskAllowed then .ok { b with diskAllowed := b.diskAllowed - size }
  else
    let check := max size diskCheckWindow
    let check := if 0 < b.maxSize then min check (b.maxSize - b.size) else check
    match b.ensureDiskSpace disk.available check with
    | some err => .error err
    | none => .ok { b with diskAllowed := check - size }

/-- The end of `Write`: the bytes go to the file or to memory. -/
def append (b : ReplayBuffer) (data : List UInt8) (disk : Storage) : Stored :=
  let size : Int := data.length
  match b.file, disk.failsAfter with
  | none, _ =>
      ⟨{ b with memory := b.memory ++ data, size := b.size + size, reserved := b.reserved + size },
        data.length, none, 0⟩
  | some file, none =>
      ⟨{ b with
          file := some (file ++ data), size := b.size + size, reserved := b.reserved + size },
        data.length, none, 0⟩
  | some file, some written =>
      let n := min written data.length
      ⟨{ b with file := some (file ++ data.take n), size := b.size + n, reserved := b.reserved + n },
        n, some .fileWrite, size - n⟩

/-- `Write`, from where its bytes are reserved. -/
def store (b : ReplayBuffer) (data : List UInt8) (disk : Storage) : Stored :=
  let size : Int := data.length
  match if b.file = none ∧ b.memoryLimit < b.size + size then b.spill disk else .ok b with
  | .error err => ⟨b, 0, some err, size⟩
  | .ok b =>
      match if b.file ≠ none then b.consumeDiskAllowance disk size else .ok b with
      | .error err => ⟨b, 0, some err, size⟩
      | .ok b => b.append data disk

/-- `release`. -/
def release (b : ReplayBuffer) (budget : CacheBudget) (size : Int) : CacheBudget :=
  if 0 < size ∧ b.budgeted then budget.release size else budget

/-- What a `Write` as a whole comes to, with the budget as it leaves it. -/
structure Written where
  buffer : ReplayBuffer
  budget : CacheBudget
  n : Nat
  error : Option BufferError

/-- `Write`, which no other buffer comes between. -/
def write (b : ReplayBuffer) (budget : CacheBudget) (data : List UInt8) (disk : Storage) :
    Written :=
  match b.returnsEarly data with
  | some (.error err) => ⟨b, budget, 0, some err⟩
  | some (.ok n) => ⟨b, budget, n, none⟩
  | none =>
      match if b.budgeted then budget.reserve data.length b.maxTotal else some budget with
      | none => ⟨b, budget, 0, some .cacheBudgetExceeded⟩
      | some budget =>
          let stored := b.store data disk
          ⟨stored.buffer, stored.buffer.release budget stored.unused, stored.n, stored.error⟩

/-- What `Reader` reads, where the file, if there is one, can be synced and
opened. -/
def reader (b : ReplayBuffer) (synced opened : Bool) : Option (List UInt8) :=
  match b.file with
  | none => some b.memory
  | some file => if synced && opened then some file else none

/-- `Close`, without what removing the file returns. -/
def close (b : ReplayBuffer) (budget : CacheBudget) : ReplayBuffer × CacheBudget :=
  if b.closed then (b, budget)
  else ({ b with closed := true, reserved := 0 }, b.release budget b.reserved)

end ReplayBuffer

/-! ## Buffers side by side -/

/-- A buffer and the data of a `Write` that has reserved them and not got
further. -/
structure Slot where
  id : Nat
  buffer : ReplayBuffer
  writing : Option (List UInt8) := none

instance : Keyed Slot Nat := ⟨Slot.id⟩

/-- The bytes a buffer has reserved. -/
def Slot.reserved (s : Slot) : Int := s.buffer.reserved + (s.writing.getD []).length

structure Cache where
  budget : CacheBudget := {}
  buffers : Table Slot := ∅

namespace Cache

inductive Input where
  | create (id : Nat) (memoryLimit maxSize minimumFree : Int)
  | write (id : Nat) (data : List UInt8)
  | store (id : Nat) (disk : Storage)
  | close (id : Nat)

/-- `newLimitedReplayBuffer`. -/
def create (c : Cache) (limit : Int) (id : Nat) (memoryLimit maxSize minimumFree : Int) : Cache :=
  match c.buffers.get? id with
  | some _ => c
  | none =>
      let buffer : ReplayBuffer :=
        { memoryLimit := memoryLimit, maxSize := maxSize, maxTotal := limit
          minimumFree := minimumFree, budgeted := true }
      { c with buffers := c.buffers.set { id := id, buffer := buffer } }

/-- `Write`, to where its bytes are reserved. -/
def write (c : Cache) (id : Nat) (data : List UInt8) : Cache :=
  match c.buffers.get? id with
  | none => c
  | some slot =>
      if slot.writing.isSome ∨ (slot.buffer.returnsEarly data).isSome then c
      else
        match c.budget.reserve data.length slot.buffer.maxTotal with
        | none => c
        | some budget => ⟨budget, c.buffers.set { slot with writing := some data }⟩

/-- `Write`, from there on. -/
def store (c : Cache) (id : Nat) (disk : Storage) : Cache :=
  match c.buffers.get? id with
  | none => c
  | some slot =>
      match slot.writing with
      | none => c
      | some data =>
          let stored := slot.buffer.store data disk
          ⟨stored.buffer.release c.budget stored.unused,
            c.buffers.set { slot with buffer := stored.buffer, writing := none }⟩

/-- `Close`, of a buffer that is not being written to. -/
def close (c : Cache) (id : Nat) : Cache :=
  match c.buffers.get? id with
  | none => c
  | some slot =>
      if slot.writing.isSome then c
      else
        let closed := slot.buffer.close c.budget
        ⟨closed.2, c.buffers.set { slot with buffer := closed.1 }⟩

def step (limit : Int) (c : Cache) (input : Input) : Cache :=
  match input with
  | .create id memoryLimit maxSize minimumFree => c.create limit id memoryLimit maxSize minimumFree
  | .write id data => c.write id data
  | .store id disk => c.store id disk
  | .close id => c.close id

def run (limit : Int) (inputs : List Input) : Cache := inputs.foldl (step limit) {}

end Cache

end RelayLifeline.Proxy
