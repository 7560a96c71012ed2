import RelayLifeline.Proofs.Cache

/-!
# The replay buffer keeps what it was given

A buffer holds its bytes in memory or in a file, never in both, and spilling
moves them as they are. So whatever a `Write` reports to have taken is appended,
and nothing else ever changes what is read back. On the way to the file each
byte is paid for out of a free-space check that has passed.
-/

namespace RelayLifeline.Proxy

open Lib

/-- The errors of the storage under a buffer. -/
def BufferError.ofStorage : BufferError → Bool
  | .cacheDiskSpace | .availableBytes | .createTemp | .chmod | .fileWrite => true
  | .responseBodyTooLarge | .cacheBudgetExceeded | .replayBufferClosed => false

namespace ReplayBuffer

variable {b b' : ReplayBuffer} {data : List UInt8} {disk : Storage} {size : Int}

/-- The bytes the buffer holds. -/
def content (b : ReplayBuffer) : List UInt8 := b.file.getD b.memory

/-- The bytes it holds in the file. -/
def onDisk (b : ReplayBuffer) : Int := (b.file.getD []).length

/-- Room for `size` more bytes. -/
def Fits (b : ReplayBuffer) (size : Int) : Prop := 0 < b.maxSize → b.size + size ≤ b.maxSize

/-! ## Free-space checks -/

/-- The free bytes that `consumeDiskAllowance` looks for. -/
def allowance (b : ReplayBuffer) (size : Int) : Int :=
  if 0 < b.maxSize then min (max size diskCheckWindow) (b.maxSize - b.size)
  else max size diskCheckWindow

/-- The bytes that a spill has found to be free. -/
def spillChecked (b : ReplayBuffer) (disk : Storage) : Int :=
  match b.spill disk with
  | .error _ => 0
  | .ok _ => b.memory.length

/-- The bytes that a new allowance has found to be free. -/
def allowanceChecked (b : ReplayBuffer) (disk : Storage) (size : Int) : Int :=
  if size ≤ b.diskAllowed then 0
  else
    match b.ensureDiskSpace disk.available (b.allowance size) with
    | some _ => 0
    | none => b.allowance size

/-- The bytes that the free-space checks of a `Write` have found, of those
checks that let it go on. -/
def storeChecked (b : ReplayBuffer) (data : List UInt8) (disk : Storage) : Int :=
  if b.file = none ∧ b.memoryLimit < b.size + data.length then
    b.spillChecked disk +
      match b.spill disk with
      | .error _ => 0
      | .ok b => b.allowanceChecked disk data.length
  else if b.file = none then 0
  else b.allowanceChecked disk data.length

def checked (b : ReplayBuffer) (budget : CacheBudget) (data : List UInt8) (disk : Storage) : Int :=
  match b.returnsEarly data with
  | some _ => 0
  | none =>
      match if b.budgeted then budget.reserve data.length b.maxTotal else some budget with
      | none => 0
      | some _ => b.storeChecked data disk

/-! ## One `Write` -/

/-- The buffer `b'` holds what `b` did and then `taken`, and `found` more bytes
were free for what it holds on disk or may write there. -/
structure Takes (b b' : ReplayBuffer) (taken : List UInt8) (found : Int) : Prop where
  content : b'.content = b.content ++ taken
  size : b'.size = b.size + taken.length
  maxSize : b'.maxSize = b.maxSize
  allowed : 0 ≤ b.diskAllowed → 0 ≤ b'.diskAllowed
  covered : b'.onDisk + b'.diskAllowed ≤ b.onDisk + b.diskAllowed + found

theorem Takes.refl (b : ReplayBuffer) : b.Takes b [] 0 := by
  constructor
  · rw [List.append_nil]
  · simp
  · rfl
  · exact id
  · omega

theorem Takes.trans {b'' : ReplayBuffer} {taken : List UInt8} {found found' : Int}
    (h : b.Takes b' [] found) (h' : b'.Takes b'' taken found') :
    b.Takes b'' taken (found + found') := by
  have hsize := h.size
  have hcovered := h.covered
  have hcovered' := h'.covered
  constructor
  · rw [h'.content, h.content, List.append_nil]
  · rw [h'.size, hsize]
    simp
  · rw [h'.maxSize, h.maxSize]
  · intro hallowed
    exact h'.allowed (h.allowed hallowed)
  · omega

/-- A spill moves the bytes to the file. -/
theorem spill_takes (hfile : b.file = none) (h : b.spill disk = .ok b') :
    b.Takes b' [] (b.spillChecked disk) := by
  have hchecked : b.spillChecked disk = b.memory.length := by rw [spillChecked, h]
  rw [hchecked]
  rw [spill] at h
  split at h
  · cases h
  · split_ifs at h
    obtain rfl := Except.ok.inj h
    constructor
    · simp [ReplayBuffer.content, hfile]
    · simp
    · rfl
    · exact id
    · simp [onDisk, hfile]
      omega

theorem le_allowance (hfits : b.Fits size) : size ≤ b.allowance size := by
  rw [allowance]
  split
  · next hmax =>
    have := hfits hmax
    omega
  · omega

/-- An allowance pays for the bytes that are about to be written. -/
theorem consumeDiskAllowance_takes (hfits : b.Fits size) (hallowed : 0 ≤ b.diskAllowed)
    (h : b.consumeDiskAllowance disk size = .ok b') :
    b.Takes b' [] (b.allowanceChecked disk size - size) := by
  have hle := le_allowance hfits
  rw [consumeDiskAllowance] at h
  rw [allowanceChecked]
  split at h
  · next hpaid =>
    obtain rfl := Except.ok.inj h
    rw [if_pos hpaid]
    refine ⟨by simp [ReplayBuffer.content], by simp, rfl, ?_, ?_⟩
    · intro _
      dsimp only
      omega
    · simp only [onDisk]
      omega
  · next hunpaid =>
    rw [if_neg hunpaid]
    change (match b.ensureDiskSpace disk.available (b.allowance size) with
      | some err => Except.error err
      | none => .ok { b with diskAllowed := b.allowance size - size }) = .ok b' at h
    cases hcheck : b.ensureDiskSpace disk.available (b.allowance size) with
    | some err =>
        rw [hcheck] at h
        cases h
    | none =>
        rw [hcheck] at h
        obtain rfl := Except.ok.inj h
        refine ⟨by simp [ReplayBuffer.content], by simp, rfl, ?_, ?_⟩
        · intro _
          dsimp only
          omega
        · simp only [onDisk]
          omega

/-- What is written to the file is at most the data. -/
theorem append_takes_file (hfile : b.file ≠ none) :
    b.Takes (b.append data disk).buffer (data.take (b.append data disk).n) data.length := by
  rw [append]
  split
  · next _ hnone => exact absurd hnone hfile
  · next file hfile _ =>
    refine ⟨?_, ?_, rfl, id, ?_⟩
    · simp [ReplayBuffer.content, hfile]
    · simp
    · simp only [onDisk, hfile, Option.getD_some, List.length_append]
      omega
  · next file written hfile _ =>
    have hle : (data.take (min written data.length)).length = min written data.length := by
      rw [List.length_take]
      omega
    refine ⟨?_, ?_, rfl, id, ?_⟩
    · simp [ReplayBuffer.content, hfile]
    · rw [hle]
    · simp only [onDisk, hfile, Option.getD_some, List.length_append, hle]
      omega

theorem append_takes_memory (hfile : b.file = none) :
    b.Takes (b.append data disk).buffer (data.take (b.append data disk).n) 0 := by
  rw [append]
  split
  · next hnone =>
    refine ⟨?_, ?_, rfl, id, ?_⟩
    · simp [ReplayBuffer.content, hfile]
    · simp
    · simp [onDisk]
  · next hsome _ =>
    rw [hfile] at hsome
    cases hsome
  · next hsome _ =>
    rw [hfile] at hsome
    cases hsome

theorem consumeDiskAllowance_file (h : b.consumeDiskAllowance disk size = .ok b') :
    b'.file = b.file := by
  simp only [consumeDiskAllowance] at h
  split_ifs at h
  · obtain rfl := Except.ok.inj h
    rfl
  all_goals
    split at h
    · cases h
    · obtain rfl := Except.ok.inj h
      rfl

/-- Without an allowance nothing has been found to be free. -/
theorem allowanceChecked_of_error {err : BufferError}
    (h : b.consumeDiskAllowance disk size = .error err) : b.allowanceChecked disk size = 0 := by
  rw [consumeDiskAllowance] at h
  rw [allowanceChecked]
  split at h
  · cases h
  · next hunpaid =>
    rw [if_neg hunpaid]
    change (match b.ensureDiskSpace disk.available (b.allowance size) with
      | some err => Except.error err
      | none => .ok { b with diskAllowed := b.allowance size - size }) = .error err at h
    cases hcheck : b.ensureDiskSpace disk.available (b.allowance size) with
    | some _ => rfl
    | none =>
        rw [hcheck] at h
        cases h

/-- From a buffer that writes to its file. -/
theorem storeOnDisk_takes (hfile : b.file ≠ none) (hfits : b.Fits data.length)
    (hallowed : 0 ≤ b.diskAllowed) {stored : Stored}
    (hrefused : ∀ err, b.consumeDiskAllowance disk data.length = .error err →
      stored = ⟨b, 0, some err, data.length⟩)
    (hpaid : ∀ b', b.consumeDiskAllowance disk data.length = .ok b' →
      stored = b'.append data disk) :
    b.Takes stored.buffer (data.take stored.n) (b.allowanceChecked disk data.length) := by
  cases hconsume : b.consumeDiskAllowance disk data.length with
  | error err =>
      rw [hrefused err hconsume, allowanceChecked_of_error hconsume]
      exact .refl b
  | ok b' =>
      have hconsumed := consumeDiskAllowance_takes hfits hallowed hconsume
      have hfile' : b'.file ≠ none := by
        rw [consumeDiskAllowance_file hconsume]
        exact hfile
      have htakes := hconsumed.trans (@append_takes_file _ data disk hfile')
      rw [Int.sub_add_cancel] at htakes
      rw [hpaid b' hconsume]
      exact htakes

theorem store_takes (hfits : b.Fits data.length) (hallowed : 0 ≤ b.diskAllowed) :
    b.Takes (b.store data disk).buffer (data.take (b.store data disk).n)
      (b.storeChecked data disk) := by
  by_cases hspills : b.file = none ∧ b.memoryLimit < b.size + data.length
  · rw [storeChecked, if_pos hspills]
    cases hspill : b.spill disk with
    | error err =>
        have hstore : b.store data disk = ⟨b, 0, some err, data.length⟩ := by
          simp only [store, if_pos hspills, hspill]
        have hnone : b.spillChecked disk = 0 := by rw [spillChecked, hspill]
        rw [hstore, hnone]
        exact .refl b
    | ok b' =>
        have hmoved := spill_takes hspills.1 hspill
        have hfile : b'.file ≠ none := by
          rw [spill] at hspill
          split at hspill
          · cases hspill
          · split_ifs at hspill
            rw [← Except.ok.inj hspill]
            simp
        have hfits' : b'.Fits data.length := by
          intro hmax
          have hsize := hmoved.size
          have hlimit := hfits (hmoved.maxSize ▸ hmax)
          rw [hmoved.maxSize, hsize]
          simpa using hlimit
        refine hmoved.trans (storeOnDisk_takes hfile hfits' (hmoved.allowed hallowed) ?_ ?_)
        · intro err hconsume
          simp only [store, if_pos hspills, hspill, if_pos hfile, hconsume]
        · intro paid hconsume
          simp only [store, if_pos hspills, hspill, if_pos hfile, hconsume]
  · rw [storeChecked, if_neg hspills]
    by_cases hfile : b.file = none
    · have hstore : b.store data disk = b.append data disk := by
        simp only [store, if_neg hspills]
        rw [if_neg (not_not.2 hfile)]
      rw [if_pos hfile, hstore]
      exact append_takes_memory hfile
    · rw [if_neg hfile]
      have hopen : b.file ≠ none := hfile
      refine storeOnDisk_takes hopen hfits hallowed ?_ ?_
      · intro err hconsume
        simp only [store, if_neg hspills, if_pos hopen, hconsume]
      · intro paid hconsume
        simp only [store, if_neg hspills, if_pos hopen, hconsume]

/-- What `Write` has made sure of when it does not return early. -/
theorem fits_of_returnsEarly (h : b.returnsEarly data = none) : b.Fits data.length := by
  simp only [returnsEarly] at h
  split_ifs at h with hclosed hempty hlarge
  intro hmax
  omega

theorem empty_of_returnsEarly {n : Nat} (h : b.returnsEarly data = some (.ok n)) :
    data = [] := by
  rw [returnsEarly] at h
  split at h
  · cases h
  split at h
  · next hempty => exact hempty
  split at h
  · cases h
  · cases h

/-- A `Write` takes what it reports. -/
theorem write_takes (budget : CacheBudget) (data : List UInt8) (disk : Storage)
    (hallowed : 0 ≤ b.diskAllowed) :
    b.Takes (b.write budget data disk).buffer (data.take (b.write budget data disk).n)
      (b.checked budget data disk) := by
  cases hearly : b.returnsEarly data with
  | some early =>
      cases early with
      | error err =>
          simp only [write, checked, hearly]
          exact .refl b
      | ok n =>
          have hnone : data.take n = [] := by rw [empty_of_returnsEarly hearly, List.take_nil]
          simp only [write, checked, hearly, hnone]
          exact .refl b
  | none =>
      simp only [write, checked, hearly]
      cases hbudget : if b.budgeted then budget.reserve data.length b.maxTotal else some budget with
      | none => exact .refl b
      | some budget => exact store_takes (fits_of_returnsEarly hearly) hallowed

/-- A buffer within its limit stays so. -/
theorem write_bounded (budget : CacheBudget) (data : List UInt8) (disk : Storage)
    (hallowed : 0 ≤ b.diskAllowed) (hbounded : 0 < b.maxSize → b.size ≤ b.maxSize) :
    0 < (b.write budget data disk).buffer.maxSize →
      (b.write budget data disk).buffer.size ≤ (b.write budget data disk).buffer.maxSize := by
  have htakes := write_takes budget data disk hallowed
  rw [htakes.size, htakes.maxSize, List.length_take]
  intro hmax
  have hlimit := hbounded hmax
  cases hearly : b.returnsEarly data with
  | some early =>
      cases early with
      | error err =>
          simp only [write, hearly]
          omega
      | ok n =>
          rw [empty_of_returnsEarly hearly, List.length_nil]
          omega
  | none =>
      have hfits := fits_of_returnsEarly hearly hmax
      omega

/-! ## What fails -/

/-- A refusal comes from the storage, and without one all of the data is stored. -/
def Stores (data : List UInt8) (n : Nat) (error : Option BufferError) : Prop :=
  match error with
  | some err => err.ofStorage = true
  | none => n = data.length

theorem ensureDiskSpace_error {available : Option Int} {required : Int} {err : BufferError}
    (h : b.ensureDiskSpace available required = some err) : err.ofStorage = true := by
  rw [ensureDiskSpace.eq_def] at h
  split at h
  · rw [← Option.some.inj h]
    rfl
  · split at h
    · rw [← Option.some.inj h]
      rfl
    · cases h

theorem spill_error {err : BufferError} (h : b.spill disk = .error err) :
    err.ofStorage = true := by
  rw [spill] at h
  split at h
  · next hcheck => exact Except.error.inj h ▸ ensureDiskSpace_error hcheck
  · split_ifs at h
    all_goals
      rw [← Except.error.inj h]
      rfl

theorem consumeDiskAllowance_error {err : BufferError}
    (h : b.consumeDiskAllowance disk size = .error err) : err.ofStorage = true := by
  simp only [consumeDiskAllowance] at h
  split at h
  · cases h
  · split at h
    · next hcheck => exact Except.error.inj h ▸ ensureDiskSpace_error hcheck
    · cases h

theorem store_stores (b : ReplayBuffer) (data : List UInt8) (disk : Storage) :
    Stores data (b.store data disk).n (b.store data disk).error := by
  simp only [store]
  split
  · next hspill =>
    split at hspill
    · exact spill_error hspill
    · cases hspill
  · next spilled _ =>
    split
    · next hconsume =>
      split at hconsume
      · exact consumeDiskAllowance_error hconsume
      · cases hconsume
    · next allowed _ =>
      rw [append]
      split
      · rfl
      · rfl
      · rfl

end ReplayBuffer

/-! ## Every run -/

/-- A `Write`: the budget as other buffers have left it, the data, and what the
file system answers. -/
structure BufferWrite where
  budget : CacheBudget
  data : List UInt8
  disk : Storage

/-- A buffer, the data its `Write`s have reported to take so far, and the bytes
their free-space checks have found. -/
structure Recording where
  buffer : ReplayBuffer
  taken : List (List UInt8) := []
  found : Int := 0

namespace Recording

def step (r : Recording) (w : BufferWrite) : Recording :=
  let written := r.buffer.write w.budget w.data w.disk
  { buffer := written.buffer
    taken := r.taken ++ [w.data.take written.n]
    found := r.found + r.buffer.checked w.budget w.data w.disk }

def record (b : ReplayBuffer) (writes : List BufferWrite) : Recording :=
  writes.foldl step { buffer := b }

/-- The buffer holds what was taken, within its limit, and what it holds on disk
or may write there was found to be free. -/
structure Faithful (r : Recording) : Prop where
  content : r.buffer.content = r.taken.flatten
  size : r.buffer.size = r.taken.flatten.length
  bounded : 0 < r.buffer.maxSize → r.buffer.size ≤ r.buffer.maxSize
  allowed : 0 ≤ r.buffer.diskAllowed
  covered : r.buffer.onDisk + r.buffer.diskAllowed ≤ r.found

theorem Faithful.step {r : Recording} (h : r.Faithful) (w : BufferWrite) :
    (r.step w).Faithful := by
  have htakes := ReplayBuffer.write_takes w.budget w.data w.disk h.allowed
  have hcovered := h.covered
  have hcovered' := htakes.covered
  constructor
  · show (r.buffer.write w.budget w.data w.disk).buffer.content = (r.taken ++ [_]).flatten
    rw [htakes.content, h.content, List.flatten_append, List.flatten_singleton]
  · show (r.buffer.write w.budget w.data w.disk).buffer.size = ((r.taken ++ [_]).flatten).length
    rw [htakes.size, h.size, List.flatten_append, List.flatten_singleton, List.length_append]
    push_cast
    rfl
  · exact ReplayBuffer.write_bounded w.budget w.data w.disk h.allowed h.bounded
  · exact htakes.allowed h.allowed
  · show (r.buffer.write w.budget w.data w.disk).buffer.onDisk +
        (r.buffer.write w.budget w.data w.disk).buffer.diskAllowed ≤
      r.found + r.buffer.checked w.budget w.data w.disk
    omega

/-- The storage does not fail the `Write`. -/
def Sturdy (r : Recording) (w : BufferWrite) : Prop :=
  ∀ err ∈ (r.buffer.write w.budget w.data w.disk).error, err.ofStorage = false

/-- Two buffers that have taken the same, and judge a `Write` alike before
anything of it is stored. -/
structure Alike (r r' : Recording) : Prop where
  closed : r'.buffer.closed = r.buffer.closed
  maxSize : r'.buffer.maxSize = r.buffer.maxSize
  maxTotal : r'.buffer.maxTotal = r.buffer.maxTotal
  budgeted : r'.buffer.budgeted = r.buffer.budgeted
  size : r'.buffer.size = r.buffer.size
  taken : r'.taken = r.taken

end Recording

namespace ReplayBuffer

variable {b b' : ReplayBuffer}

/-- What a `Write` takes if the storage does not fail it. -/
def admits (b : ReplayBuffer) (budget : CacheBudget) (data : List UInt8) : Nat :=
  match b.returnsEarly data with
  | some (.error _) => 0
  | some (.ok n) => n
  | none =>
      match if b.budgeted then budget.reserve data.length b.maxTotal else some budget with
      | none => 0
      | some _ => data.length

theorem write_n {budget : CacheBudget} {data : List UInt8} {disk : Storage}
    (h : ∀ err ∈ (b.write budget data disk).error, err.ofStorage = false) :
    (b.write budget data disk).n = b.admits budget data := by
  cases hearly : b.returnsEarly data with
  | some early =>
      cases early with
      | error err => simp only [write, admits, hearly]
      | ok n => simp only [write, admits, hearly]
  | none =>
      simp only [write, admits, hearly] at h ⊢
      cases hbudget : if b.budgeted then budget.reserve data.length b.maxTotal else some budget with
      | none => rfl
      | some reserved =>
          simp only [hbudget] at h
          show (b.store data disk).n = data.length
          have hstores := store_stores b data disk
          cases herror : (b.store data disk).error with
          | none =>
              rw [herror] at hstores
              exact hstores
          | some err =>
              rw [herror] at hstores h
              have hnot := h err rfl
              rw [show err.ofStorage = true from hstores] at hnot
              cases hnot

/-- What a `Write` does not touch. -/
theorem write_same (b : ReplayBuffer) (budget : CacheBudget) (data : List UInt8)
    (disk : Storage) :
    (b.write budget data disk).buffer.closed = b.closed ∧
      (b.write budget data disk).buffer.maxTotal = b.maxTotal ∧
      (b.write budget data disk).buffer.budgeted = b.budgeted := by
  cases hearly : b.returnsEarly data with
  | some early =>
      cases early with
      | error err => simp only [write, hearly, and_self]
      | ok n => simp only [write, hearly, and_self]
  | none =>
      simp only [write, hearly]
      cases hbudget : if b.budgeted then budget.reserve data.length b.maxTotal else some budget with
      | none => exact ⟨rfl, rfl, rfl⟩
      | some reserved =>
          have hsettles := store_settles b data disk
          exact ⟨hsettles.closed, hsettles.maxTotal, hsettles.budgeted⟩

end ReplayBuffer

namespace Recording

variable {r r' : Recording}

theorem Alike.admits (h : r.Alike r') (budget : CacheBudget) (data : List UInt8) :
    r'.buffer.admits budget data = r.buffer.admits budget data := by
  have hearly : r'.buffer.returnsEarly data = r.buffer.returnsEarly data := by
    rw [ReplayBuffer.returnsEarly, ReplayBuffer.returnsEarly, h.closed, h.maxSize, h.size]
  rw [ReplayBuffer.admits, ReplayBuffer.admits, hearly, h.budgeted, h.maxTotal]

theorem Alike.step (h : r.Alike r') (hr : r.Faithful) (hr' : r'.Faithful) {w w' : BufferWrite}
    (hbudget : w.budget = w'.budget) (hdata : w.data = w'.data) (hsturdy : r.Sturdy w)
    (hsturdy' : r'.Sturdy w') : (r.step w).Alike (r'.step w') := by
  have htakes := ReplayBuffer.write_takes w.budget w.data w.disk hr.allowed
  have htakes' := ReplayBuffer.write_takes w'.budget w'.data w'.disk hr'.allowed
  obtain ⟨hclosed, hmaxTotal, hbudgeted⟩ :=
    ReplayBuffer.write_same r.buffer w.budget w.data w.disk
  obtain ⟨hclosed', hmaxTotal', hbudgeted'⟩ :=
    ReplayBuffer.write_same r'.buffer w'.budget w'.data w'.disk
  have hn : w'.data.take (r'.buffer.write w'.budget w'.data w'.disk).n =
      w.data.take (r.buffer.write w.budget w.data w.disk).n := by
    rw [ReplayBuffer.write_n hsturdy, ReplayBuffer.write_n hsturdy', h.admits, hbudget, hdata]
  constructor
  · exact hclosed'.trans (h.closed.trans hclosed.symm)
  · exact htakes'.maxSize.trans (h.maxSize.trans htakes.maxSize.symm)
  · exact hmaxTotal'.trans (h.maxTotal.trans hmaxTotal.symm)
  · exact hbudgeted'.trans (h.budgeted.trans hbudgeted.symm)
  · refine htakes'.size.trans (Eq.trans ?_ htakes.size.symm)
    rw [h.size, hn]
  · show r'.taken ++ [_] = r.taken ++ [_]
    rw [h.taken, hn]

/-- Where the storage fails neither, the two go on alike, however much either
keeps in memory. -/
theorem Alike.foldl (h : r.Alike r') (hr : r.Faithful) (hr' : r'.Faithful)
    {writes writes' : List BufferWrite}
    (hsame : List.Forall₂ (fun w w' => w.budget = w'.budget ∧ w.data = w'.data) writes writes')
    (hsturdy : Along Recording.step Sturdy r writes)
    (hsturdy' : Along Recording.step Sturdy r' writes') :
    (writes.foldl Recording.step r).Alike (writes'.foldl Recording.step r') := by
  induction hsame generalizing r r' with
  | nil => exact h
  | cons hhead _ ih =>
      exact ih (h.step hr hr' hhead.1 hhead.2 hsturdy.1 hsturdy'.1) (hr.step _) (hr'.step _)
        hsturdy.2 hsturdy'.2

end Recording

/-- `newLimitedReplayBuffer`, and `NewReplayBuffer`, which leaves all limits but
the first at zero and has no budget. -/
def newReplayBuffer (memoryLimit maxSize maxTotal minimumFree : Int) (budgeted : Bool) :
    ReplayBuffer where
  memoryLimit := memoryLimit
  maxSize := maxSize
  maxTotal := maxTotal
  minimumFree := minimumFree
  budgeted := budgeted

namespace Recording

theorem faithful_start (memoryLimit maxSize maxTotal minimumFree : Int) (budgeted : Bool) :
    ({ buffer := newReplayBuffer memoryLimit maxSize maxTotal minimumFree budgeted } :
      Recording).Faithful := by
  refine ⟨rfl, rfl, ?_, Int.le_refl _, Int.le_refl _⟩
  intro hmax
  exact Int.le_of_lt hmax

theorem faithful_record {b : ReplayBuffer} (h : ({ buffer := b } : Recording).Faithful)
    (writes : List BufferWrite) :
    (record b writes).Faithful ∧ (record b writes).buffer.maxSize = b.maxSize := by
  refine foldl_invariant
    (P := fun r : Recording => r.Faithful ∧ r.buffer.maxSize = b.maxSize) ?_ ⟨h, rfl⟩ writes
  rintro r w ⟨hfaithful, hmax⟩
  have htakes := ReplayBuffer.write_takes w.budget w.data w.disk hfaithful.allowed
  exact ⟨hfaithful.step w, htakes.maxSize.trans hmax⟩

theorem reader_eq (b : ReplayBuffer) :
    b.reader true true = some b.content ∧
      ∀ synced opened, ∀ bytes ∈ b.reader synced opened, bytes = b.content := by
  rw [ReplayBuffer.content]
  cases hfile : b.file with
  | none =>
      refine ⟨by rw [ReplayBuffer.reader, hfile]; rfl, ?_⟩
      intro synced opened bytes hbytes
      rw [ReplayBuffer.reader, hfile] at hbytes
      exact (Option.some.inj hbytes).symm
  | some file =>
      refine ⟨by rw [ReplayBuffer.reader, hfile]; rfl, ?_⟩
      intro synced opened bytes hbytes
      rw [ReplayBuffer.reader, hfile] at hbytes
      dsimp only at hbytes
      split at hbytes
      · exact (Option.some.inj hbytes).symm
      · cases hbytes

/-- Whatever is written, in whatever pieces, and however the storage fails: what
is read back is what the `Write`s reported to take, which `Size` counts, within
`maxSize`; a `Write` that takes nothing leaves it as it was; the disk allowance
is not negative, and the bytes on disk were found to be free. Where the storage
does not fail, how much is kept in memory makes no difference. -/
theorem record_faithful (memoryLimit maxSize maxTotal minimumFree : Int) (budgeted : Bool)
    (writes : List BufferWrite) :
    let r := record (newReplayBuffer memoryLimit maxSize maxTotal minimumFree budgeted) writes
    r.buffer.reader true true = some r.taken.flatten ∧
      (∀ synced opened, ∀ bytes ∈ r.buffer.reader synced opened, bytes = r.taken.flatten) ∧
      r.buffer.size = r.taken.flatten.length ∧
      (0 < maxSize → r.buffer.size ≤ maxSize) ∧
      (∀ budget data disk, (r.buffer.write budget data disk).n = 0 →
        (r.buffer.write budget data disk).buffer.content = r.buffer.content) ∧
      0 ≤ r.buffer.diskAllowed ∧
      r.buffer.onDisk + r.buffer.diskAllowed ≤ r.found ∧
      ∀ memoryLimit' writes',
        let start := newReplayBuffer memoryLimit maxSize maxTotal minimumFree budgeted
        let start' := newReplayBuffer memoryLimit' maxSize maxTotal minimumFree budgeted
        List.Forall₂ (fun w w' => w.budget = w'.budget ∧ w.data = w'.data) writes writes' →
        Along step Sturdy { buffer := start } writes →
        Along step Sturdy { buffer := start' } writes' →
        (record start' writes').buffer.content = r.buffer.content := by
  intro r
  have hstart := fun limit => faithful_start limit maxSize maxTotal minimumFree budgeted
  obtain ⟨hfaithful, hmax⟩ := faithful_record (hstart memoryLimit) writes
  obtain ⟨hread, hreads⟩ := reader_eq r.buffer
  rw [hfaithful.content] at hread hreads
  refine ⟨hread, hreads, hfaithful.size, ?_, ?_, hfaithful.allowed, hfaithful.covered, ?_⟩
  · intro hpos
    have hbounded := hfaithful.bounded
    rw [hmax] at hbounded
    exact hbounded hpos
  · intro budget data disk hnone
    have htakes := ReplayBuffer.write_takes budget data disk hfaithful.allowed
    rw [htakes.content, hnone, List.take_zero, List.append_nil]
  · intro memoryLimit' writes' start start' hsame hsturdy hsturdy'
    have halike : Alike { buffer := start } { buffer := start' } := ⟨rfl, rfl, rfl, rfl, rfl, rfl⟩
    have htaken := (halike.foldl (hstart memoryLimit) (hstart memoryLimit') hsame hsturdy
      hsturdy').taken
    have hfaithful' := (faithful_record (hstart memoryLimit') writes').1
    rw [hfaithful'.content, hfaithful.content]
    exact congrArg List.flatten htaken

/-- Two bytes in memory, a third that makes them spill, and a fourth that fails
in the file. -/
theorem record_faithful_spilled :
    let disk : Storage := { spillAvailable := some 100, available := some 10000000 }
    let r := record (newReplayBuffer 2 0 0 0 false)
      [⟨{}, [1, 2], disk⟩, ⟨{}, [3], disk⟩, ⟨{}, [4], { disk with failsAfter := some 0 }⟩]
    r.buffer.reader true true = some r.taken.flatten ∧ r.taken = [[1, 2], [3], []] ∧
      r.buffer.size = 3 ∧ r.buffer.file = some [1, 2, 3] := by
  exact ⟨(record_faithful 2 0 0 0 false _).1, by decide, by decide, by decide⟩

end Recording

end RelayLifeline.Proxy
