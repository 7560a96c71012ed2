import RelayLifeline.Lib.Trace
import RelayLifeline.Proxy.Buffer

/-!
# The budget of the response cache

Whatever is in use is reserved by a buffer that is still open. A `Write` that
fails gives back all it does not keep, on every way out of it, so a release
never takes more than is in use and the clamp at zero is never needed.
-/

namespace RelayLifeline.Proxy

open Lib

/-! ## One `Write` -/

namespace ReplayBuffer

/-- What storing does not touch. -/
structure Same (b b' : ReplayBuffer) : Prop where
  reserved : b'.reserved = b.reserved
  maxTotal : b'.maxTotal = b.maxTotal
  budgeted : b'.budgeted = b.budgeted
  closed : b'.closed = b.closed

variable {b b' : ReplayBuffer} {data : List UInt8} {disk : Storage} {size : Int}

theorem Same.refl (b : ReplayBuffer) : Same b b := ⟨rfl, rfl, rfl, rfl⟩

theorem Same.trans {b'' : ReplayBuffer} (h : Same b b') (h' : Same b' b'') : Same b b'' :=
  ⟨h'.reserved.trans h.reserved, h'.maxTotal.trans h.maxTotal, h'.budgeted.trans h.budgeted,
    h'.closed.trans h.closed⟩

theorem spill_same (h : b.spill disk = .ok b') : Same b b' := by
  unfold spill at h
  split at h
  · cases h
  · split_ifs at h
    obtain rfl := Except.ok.inj h
    exact ⟨rfl, rfl, rfl, rfl⟩

theorem consumeDiskAllowance_same (h : b.consumeDiskAllowance disk size = .ok b') : Same b b' := by
  simp only [consumeDiskAllowance] at h
  split_ifs at h with hallowed
  · obtain rfl := Except.ok.inj h
    exact ⟨rfl, rfl, rfl, rfl⟩
  all_goals
    split at h
    · cases h
    · obtain rfl := Except.ok.inj h
      exact ⟨rfl, rfl, rfl, rfl⟩

/-- What a `Write` has reserved it keeps or gives back. -/
structure Settles (b : ReplayBuffer) (data : List UInt8) (stored : Stored) : Prop where
  reserved : stored.buffer.reserved + stored.unused = b.reserved + data.length
  nonneg : 0 ≤ stored.unused
  bounded : stored.unused ≤ data.length
  maxTotal : stored.buffer.maxTotal = b.maxTotal
  budgeted : stored.buffer.budgeted = b.budgeted
  closed : stored.buffer.closed = b.closed

theorem Settles.refused (hsame : Same b b') (err : BufferError) :
    b.Settles data ⟨b', 0, some err, data.length⟩ :=
  ⟨by rw [hsame.reserved], Int.natCast_nonneg _, le_rfl, hsame.maxTotal, hsame.budgeted,
    hsame.closed⟩

theorem append_settles (b : ReplayBuffer) (data : List UInt8) (disk : Storage) :
    b.Settles data (b.append data disk) := by
  unfold append
  split
  · exact ⟨by simp, le_rfl, Int.natCast_nonneg _, rfl, rfl, rfl⟩
  · exact ⟨by simp, le_rfl, Int.natCast_nonneg _, rfl, rfl, rfl⟩
  · next file written _ _ =>
      have hle : min written data.length ≤ data.length := Nat.min_le_right _ _
      refine ⟨?_, ?_, ?_, rfl, rfl, rfl⟩
      · simp only
        omega
      · simp only
        omega
      · simp only
        omega

theorem Settles.of_same (hsame : Same b b') {stored : Stored} (h : b'.Settles data stored) :
    b.Settles data stored :=
  ⟨by rw [h.reserved, hsame.reserved], h.nonneg, h.bounded, h.maxTotal.trans hsame.maxTotal,
    h.budgeted.trans hsame.budgeted, h.closed.trans hsame.closed⟩

theorem store_settles (b : ReplayBuffer) (data : List UInt8) (disk : Storage) :
    b.Settles data (b.store data disk) := by
  have hspilled : ∀ b', (if b.file = none ∧ b.memoryLimit < b.size + data.length then b.spill disk
      else .ok b) = .ok b' → Same b b' := by
    intro b' h
    split at h
    · exact spill_same h
    · exact Except.ok.inj h ▸ .refl b
  have hallowed : ∀ b' b'' : ReplayBuffer, (if b'.file ≠ none then
      b'.consumeDiskAllowance disk data.length else .ok b') = .ok b'' → Same b' b'' := by
    intro b' b'' h
    split at h
    · exact consumeDiskAllowance_same h
    · exact Except.ok.inj h ▸ .refl b'
  simp only [store]
  split
  · exact .refused (.refl b) _
  · next b' hb' =>
      have hsame := hspilled b' hb'
      split
      · exact .refused hsame _
      · next b'' hb'' => exact .of_same (hsame.trans (hallowed b' b'' hb'')) (append_settles b'' data disk)

theorem close_of_closed (budget : CacheBudget) (h : b.closed = true) :
    b.close budget = (b, budget) := if_pos h

end ReplayBuffer

/-! ## The budget -/

namespace Cache

/-- A buffer of the cache. It has nothing reserved once it is closed. -/
structure Slot.Shared (limit : Int) (s : Slot) : Prop where
  maxTotal : s.buffer.maxTotal = limit
  budgeted : s.buffer.budgeted = true
  nonneg : 0 ≤ s.buffer.reserved
  closed : s.buffer.closed = true → s.buffer.reserved = 0 ∧ s.writing = none

theorem Slot.Shared.reserved_nonneg {limit : Int} {s : Slot} (h : Slot.Shared limit s) :
    0 ≤ s.reserved := by
  have := h.nonneg
  unfold Slot.reserved
  omega

/-- The budget counts what the buffers have reserved. -/
structure Conserved (limit : Int) (c : Cache) : Prop where
  used : c.budget.used = c.buffers.total Slot.reserved
  limited : 0 < limit → c.budget.used ≤ limit
  unclamped : c.budget.clamped = false
  shared : ∀ s ∈ c.buffers.items, Slot.Shared limit s

variable {limit : Int} {c : Cache} {id : Nat} {slot : Slot}

/-- No buffer has reserved more than is in use. -/
theorem Conserved.reserved_le (h : Conserved limit c) (hslot : c.buffers.get? id = some slot) :
    slot.reserved ≤ c.budget.used := by
  have hrest : 0 ≤ (c.buffers.erase id).total Slot.reserved :=
    Table.total_nonneg fun s hs => (h.shared s (Table.mem_erase.1 hs).1).reserved_nonneg
  have hsplit := Table.total_erase_of_some (f := Slot.reserved) hslot
  rw [h.used]
  omega

/-- A buffer changes what it has reserved, and the budget with it. -/
theorem Conserved.set (h : Conserved limit c) (hslot : c.buffers.get? id = some slot)
    (slot' : Slot) (hid : slot'.id = id) (hshared : Slot.Shared limit slot') {budget : CacheBudget}
    (hused : budget.used = c.budget.used - slot.reserved + slot'.reserved)
    (hlimited : 0 < limit → budget.used ≤ limit) (hunclamped : budget.clamped = false) :
    Conserved limit ⟨budget, c.buffers.set slot'⟩ := by
  refine ⟨?_, hlimited, hunclamped, fun s hs => ?_⟩
  · have hsplit := Table.total_erase_of_some (f := Slot.reserved) hslot
    have hset := Table.total_set (f := Slot.reserved) c.buffers slot'
    rw [show key slot' = id from hid] at hset
    have := h.used
    simp only [hused]
    omega
  · rcases Table.mem_set.1 hs with rfl | ⟨hin, -⟩
    · exact hshared
    · exact h.shared s hin

/-- A release of no more than is in use. -/
theorem release_eq {b : ReplayBuffer} {budget : CacheBudget} {size : Int}
    (hbudgeted : b.budgeted = true) (hnonneg : 0 ≤ size) (hle : size ≤ budget.used) :
    b.release budget size = { budget with used := budget.used - size } := by
  unfold ReplayBuffer.release CacheBudget.release
  split
  · rw [if_neg (by omega)]
  · next hnone =>
      have hzero : size = 0 := by
        rw [hbudgeted] at hnone
        simp only [and_true] at hnone
        omega
      rw [hzero, Int.sub_zero]

/-- A release by a buffer of the cache leaves the rest of what it reserved in
use. -/
theorem Conserved.release (h : Conserved limit c) (hslot : c.buffers.get? id = some slot)
    (slot' : Slot) (hid : slot'.id = id) (hshared : Slot.Shared limit slot') {b : ReplayBuffer} {size : Int}
    (hbudgeted : b.budgeted = true) (hnonneg : 0 ≤ size)
    (hreserved : slot'.reserved + size = slot.reserved) :
    Conserved limit ⟨b.release c.budget size, c.buffers.set slot'⟩ := by
  have hle := h.reserved_le hslot
  have hslot' := hshared.reserved_nonneg
  rw [release_eq hbudgeted hnonneg (by omega)]
  refine h.set hslot slot' hid hshared ?_ (fun hpos => ?_) h.unclamped
  · simp only
    omega
  · have := h.limited hpos
    simp only
    omega

theorem Conserved.create (h : Conserved limit c) (id : Nat) (memoryLimit maxSize minimumFree : Int) :
    Conserved limit (c.create limit id memoryLimit maxSize minimumFree) := by
  unfold Cache.create
  split
  · exact h
  · next hnone =>
      refine ⟨?_, h.limited, h.unclamped, fun s hs => ?_⟩
      · have hset := Table.total_set (f := Slot.reserved) c.buffers
          { id := id, buffer := { memoryLimit := memoryLimit, maxSize := maxSize, maxTotal := limit, minimumFree := minimumFree, budgeted := true } }
        rw [show key _ = id from rfl, Table.erase_of_none hnone] at hset
        rw [h.used]
        exact (hset.trans (Int.add_zero _)).symm
      · rcases Table.mem_set.1 hs with rfl | ⟨hin, -⟩
        · exact ⟨rfl, rfl, le_rfl, nofun⟩
        · exact h.shared s hin

theorem Conserved.write (h : Conserved limit c) (id : Nat) (data : List UInt8) :
    Conserved limit (c.write id data) := by
  unfold Cache.write
  split
  · exact h
  · next slot hslot =>
      split
      · exact h
      · next hbusy =>
          obtain ⟨hidle, hopen⟩ : slot.writing = none ∧ slot.buffer.returnsEarly data = none := by
            simpa [not_or] using hbusy
          have hshared := h.shared slot (Table.mem_of_get? hslot)
          split
          · exact h
          · next budget hreserve =>
              have hnotclosed : slot.buffer.closed ≠ true := fun hclosed => by
                simp [ReplayBuffer.returnsEarly, hclosed] at hopen
              unfold CacheBudget.reserve at hreserve
              split at hreserve
              · cases hreserve
              · next hfits =>
                  obtain rfl := Option.some.inj hreserve
                  rw [hshared.maxTotal] at hfits
                  refine h.set hslot { slot with writing := some data } ?_ ⟨hshared.maxTotal, hshared.budgeted, hshared.nonneg,
                    fun hclosed => absurd hclosed hnotclosed⟩ ?_ (fun hpos => ?_) h.unclamped
                  · exact Table.key_of_get? hslot
                  · simp only [Slot.reserved, hidle, Option.getD_none, Option.getD_some, List.length_nil]
                    omega
                  · simp only
                    omega

theorem Conserved.store (h : Conserved limit c) (id : Nat) (disk : Storage) :
    Conserved limit (c.store id disk) := by
  unfold Cache.store
  split
  · exact h
  · next slot hslot =>
      split
      · exact h
      · next data hwriting =>
          have hshared := h.shared slot (Table.mem_of_get? hslot)
          have hsettles := slot.buffer.store_settles data disk
          have hopen : slot.buffer.closed ≠ true := fun hclosed => by
            simp [(hshared.closed hclosed).2] at hwriting
          have hreserved := hsettles.reserved
          have hbounded := hsettles.bounded
          have hnonneg := hshared.nonneg
          refine h.release hslot
            { slot with buffer := (slot.buffer.store data disk).buffer, writing := none } ?_
            ⟨hsettles.maxTotal.trans hshared.maxTotal, hsettles.budgeted.trans hshared.budgeted, ?_,
              fun hclosed => absurd (hsettles.closed.symm.trans hclosed) hopen⟩
            (hsettles.budgeted.trans hshared.budgeted) hsettles.nonneg ?_
          · exact Table.key_of_get? hslot
          · simp only
            omega
          · simp only [Slot.reserved, hwriting, Option.getD_some, Option.getD_none, List.length_nil]
            omega

theorem Conserved.close (h : Conserved limit c) (id : Nat) : Conserved limit (c.close id) := by
  unfold Cache.close
  split
  · exact h
  · next slot hslot =>
      split
      · exact h
      · next hidle =>
          have hshared := h.shared slot (Table.mem_of_get? hslot)
          have hnone : slot.writing = none := by simpa using hidle
          simp only [ReplayBuffer.close]
          split
          · have hsame : c.buffers.set slot = c.buffers := Table.set_self (Table.mem_of_get? hslot)
            simp only [hsame]
            exact h
          · refine h.release hslot
              { slot with buffer := { slot.buffer with closed := true, reserved := 0 } } ?_
              ⟨hshared.maxTotal, hshared.budgeted, le_rfl, fun _ => ⟨rfl, hnone⟩⟩
              hshared.budgeted hshared.nonneg ?_
            · exact Table.key_of_get? hslot
            · simp [Slot.reserved, hnone]

theorem Conserved.step (h : Conserved limit c) (input : Input) :
    Conserved limit (c.step limit input) := by
  cases input with
  | create id memoryLimit maxSize minimumFree => exact h.create id memoryLimit maxSize minimumFree
  | write id data => exact h.write id data
  | store id disk => exact h.store id disk
  | close id => exact h.close id

theorem conserved_run (limit : Int) (inputs : List Input) : Conserved limit (run limit inputs) :=
  foldl_invariant (fun _ input h => h.step input)
    ⟨rfl, fun hpos => hpos.le, rfl, nofun⟩ inputs

/-- Closing a buffer again does nothing. -/
theorem close_close (c : Cache) (id : Nat) : (c.close id).close id = c.close id := by
  cases hslot : c.buffers.get? id with
  | none => simp [close, hslot]
  | some slot =>
      by_cases hbusy : slot.writing.isSome = true
      · simp [close, hslot, hbusy]
      · have hget : ∀ buffer, (c.buffers.set { slot with buffer := buffer }).get? id =
            some { slot with buffer := buffer } := fun buffer => by
          rw [← Table.key_of_get? hslot]
          exact Table.get?_set_self (a := { slot with buffer := buffer })
        have hclosed : (slot.buffer.close c.budget).1.closed = true := by
          simp only [ReplayBuffer.close]
          split
          · assumption
          · rfl
        have hclose : c.close id = ⟨(slot.buffer.close c.budget).2,
            c.buffers.set { slot with buffer := (slot.buffer.close c.budget).1 }⟩ := by
          simp [close, hslot, hbusy]
        rw [hclose]
        simp only [close, hget, hbusy, ReplayBuffer.close_of_closed _ hclosed]
        rw [Table.set_self (Table.mem_of_get? (hget _))]
        rfl

/-- **The budget is conserved.** Wherever a run has got to, what is in use is
what the open buffers have reserved, and nothing once all are closed. -/
theorem used_eq_reserved (limit : Int) (inputs : List Input) :
    let c := run limit inputs
    c.budget.used = c.buffers.total (fun s => if s.buffer.closed then 0 else s.reserved) ∧
      (0 < limit → c.budget.used ≤ limit) ∧ c.budget.clamped = false ∧
      ((∀ s ∈ c.buffers.items, s.buffer.closed = true) → c.budget.used = 0) ∧
      ∀ id, (c.close id).close id = c.close id := by
  intro c
  have h := conserved_run limit inputs
  have hopen : c.buffers.total Slot.reserved =
      c.buffers.total fun s => if s.buffer.closed then 0 else s.reserved := by
    refine Table.total_congr fun s hs => ?_
    split
    · next hclosed =>
        obtain ⟨hreserved, hwriting⟩ := (h.shared s hs).closed hclosed
        simp [Slot.reserved, hreserved, hwriting]
    · rfl
  refine ⟨h.used.trans hopen, h.limited, h.unclamped, fun hclosed => ?_, close_close c⟩
  rw [h.used, hopen, Table.total_congr fun s hs => if_pos (hclosed s hs)]
  simp [Table.total]

end Cache

end RelayLifeline.Proxy
