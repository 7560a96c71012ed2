import RelayLifeline.Capture.Objects

/-!
# What was stored is what is read back

Every call of a reader that reports nothing hands something over (`Busy`), and
what is left of the reader after a read is busy too. So the read past the limit
gets a byte exactly when there is one, and the flag that it sets says whether
the source goes on (`Bounded`, which every round of the loop keeps). With
`encryptChunks_ok` and `decryptChunks_assemble` that is the round trip.
-/

namespace RelayLifeline.Capture

open Lib

variable {g : Gcm} {key : Bytes}

/-- No call of the reader returns `(0, nil)`. -/
def Source.Busy (source : Source) : Prop := ([], none) ∉ source

theorem Source.Busy.read {source : Source} (h : source.Busy) (n : Nat) :
    (source.read n).source.Busy := by
  match source with
  | [] => exact h
  | (bytes, err) :: rest =>
      have hrest : ([], none) ∉ rest := fun hmem => h (List.mem_cons_of_mem _ hmem)
      rw [Source.read]
      split
      · exact hrest
      next hlen =>
        intro hmem
        obtain heq | hmem := List.mem_cons.mp hmem
        · have hdrop := congrArg (fun answer => answer.1.length) heq
          simp only [List.length_nil, List.length_drop] at hdrop
          omega
        · exact hrest hmem

/-- A read of one byte gets one, unless the content is at its end. -/
theorem Source.Busy.length_read_one {source : Source} (h : source.Busy) :
    0 < (source.read 1).bytes.length ↔ 0 < source.content.length := by
  match source with
  | [] => exact Iff.rfl
  | (bytes, err) :: rest =>
      have hcontent : bytes.length ≤ (Source.content ((bytes, err) :: rest)).length := by
        cases err with
        | none =>
            rw [Source.content, List.length_append]
            omega
        | some err => exact Nat.le_refl _
      rw [Source.read]
      split
      · cases bytes with
        | cons b bytes =>
            rw [List.length_cons] at hcontent
            show 0 < (b :: bytes).length ↔ _
            rw [List.length_cons]
            omega
        | nil =>
            cases err with
            | none => exact absurd List.mem_cons_self h
            | some err => exact Iff.rfl
      next hlen =>
        show 0 < (bytes.take 1).length ↔ _
        rw [List.length_take]
        omega

/-! ## The flag -/

/-- What a call still has to read is what follows the bytes it has sealed, and
so far it has not asked whether there is more than the limit. -/
structure Bounded (total : Bytes) (limit : Nat) (e : Encryption g) : Prop where
  busy : e.source.Busy
  length : e.original + e.source.content.length = total.length
  within : e.original ≤ limit
  truncated : e.truncated = false

theorem truncated_sealChunk (e : Encryption g) (plain : Bytes) :
    (sealChunk key e plain).truncated = e.truncated := by
  rw [sealChunk]
  split
  · rfl
  · split
    · rfl
    · rw [(writeChunk_rest key _ _).2.2.2]

theorem original_sealChunk (e : Encryption g) (plain : Bytes) :
    (sealChunk key e plain).original = e.original + plain.length := by
  rw [sealChunk]
  split
  next hplain =>
    rw [hplain]
    rfl
  · split
    · rfl
    · rw [(writeChunk_rest key _ _).2.2.1]

theorem encryptLoop_truncated {total : Bytes} {limit : Nat} {e : Encryption g}
    (he : Bounded total limit e) (h : (encryptLoop key limit e).err = none) :
    (encryptLoop key limit e).truncated = true ↔ limit < total.length := by
  fun_induction encryptLoop key limit e with
  | case1 e hl read next herr =>
      rw [h] at herr
      cases herr
  | case2 e hl read next herr hr =>
      -- the source ended within the limit
      have hlen := Source.length_read e.source (min chunkSize (limit - e.original))
      have hcontent := Source.content_read_some hr
      have htotal := he.length
      rw [hcontent] at htotal
      have hflag : next.truncated = false := (truncated_sealChunk _ _).trans he.truncated
      rw [hflag]
      constructor
      · intro hfalse
        cases hfalse
      · intro hlt
        omega
  | case3 e hl read next herr err hne hr => cases h
  | case4 e hl read next herr hr ih =>
      refine ih ⟨?_, ?_, ?_, ?_⟩ h
      · show next.source.Busy
        rw [source_sealChunk]
        exact he.busy.read _
      · show next.original + next.source.content.length = _
        rw [source_sealChunk, original_sealChunk, ← he.length, Source.content_read_none hr,
          List.length_append, Nat.add_assoc]
      · show next.original ≤ _
        have hlen := Source.length_read e.source (min chunkSize (limit - e.original))
        rw [original_sealChunk]
        show e.original + (e.source.read _).bytes.length ≤ limit
        omega
      · exact (truncated_sealChunk _ _).trans he.truncated
  | case5 e hl =>
      have hmore := he.busy.length_read_one
      have htotal := he.length
      have hwithin := he.within
      rw [probe] at h ⊢
      split at h
      · show decide _ = true ↔ _
        rw [decide_eq_true_eq, hmore]
        omega
      · show decide _ = true ↔ _
        rw [decide_eq_true_eq, hmore]
        omega
      · cases h

theorem encryptChunks_truncated {destination : Sink} {source : Source} {limit : Nat}
    {nonces : List (Nonce g)} (hsource : source.Busy)
    (h : (encryptChunks key destination source limit nonces).err = none) :
    (encryptChunks key destination source limit nonces).truncated = true ↔
      limit < source.content.length := by
  rw [encryptChunks] at h ⊢
  split at h
  · cases h
  next g' hg =>
    dsimp only at h ⊢
    split at h
    next hw =>
      dsimp only at h
      rw [h] at hw
      cases hw
    next hw =>
      rw [if_neg hw]
      exact encryptLoop_truncated ⟨hsource, Nat.zero_add _, Nat.zero_le limit, rfl⟩ h

/-! ## The round trip -/

/-- **What `encryptChunks` stores is what `decryptChunks` reads back**, the
first bytes of the source up to the limit; it accounts for every byte it wrote,
and reports more exactly where there is more. -/
theorem decryptChunks_encryptChunks {g : Gcm} {key : Bytes} {source : Source} {limit : Nat}
    {faults : List (Option String)} {nonces : List (Nonce g)} (hsource : source.Busy)
    (h : (encryptChunks key { faults } source limit nonces).err = none) :
    decryptChunks g key (encryptChunks key { faults } source limit nonces).destination.written
        buffer [] = (source.content.take (min limit source.content.length), none) ∧
      (encryptChunks key { faults } source limit nonces).stored =
        (encryptChunks key { faults } source limit nonces).destination.written.length ∧
      ((encryptChunks key { faults } source limit nonces).truncated = true ↔
        limit < source.content.length) := by
  obtain ⟨⟨g', hkey⟩, hstored⟩ := encryptChunks_ok h
  have hwritten := hstored.written
  rw [List.nil_append] at hwritten
  refine ⟨?_, ?_, encryptChunks_truncated hsource h⟩
  · rw [hwritten, decryptChunks_assemble hkey chunks_encryptChunks, hstored.content]
    congr 1
    rw [List.take_eq_take_min]
  · rw [hwritten, hstored.stored]

/-- A source of five bytes, handed over in two pieces, the second with its end. -/
def fiveBytes : Source := [([1, 2, 3], none), ([4, 5], some (.short .eof))]

theorem busy_fiveBytes : fiveBytes.Busy := by
  unfold fiveBytes Source.Busy
  decide

/-- Four of the five are stored, and the fifth is noticed. -/
def fourOfFive : Encryption checksum :=
  encryptChunks (List.replicate 16 0) { faults := [] } fiveBytes 4
    (List.replicate 3 (nonceOf 7))

theorem decryptChunks_encryptChunks_fiveBytes :
    decryptChunks checksum (List.replicate 16 0) fourOfFive.destination.written buffer [] =
        ([1, 2, 3, 4], none) ∧
      fourOfFive.stored = fourOfFive.destination.written.length ∧
      fourOfFive.truncated = true := by
  have h := @decryptChunks_encryptChunks checksum (List.replicate 16 0) fiveBytes 4 []
    (List.replicate 3 (nonceOf 7)) busy_fiveBytes (by decide +kernel)
  exact ⟨h.1, h.2.1, h.2.2.2 (by decide)⟩

end RelayLifeline.Capture
