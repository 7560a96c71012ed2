import RelayLifeline.Capture.Crypto

/-!
# What the encrypted objects hold

Reading goes first. A chunk that was sealed under the key is read back as the
bytes it sealed, wherever it stands (`nextChunk_frame`), so an object put
together from sealed chunks decrypts to their bytes in the order they stand in
(`decryptChunks_assemble`): the loop carries nothing from one chunk to the
next, and the end of the object is the end of the file.

For writing, `Written` says what the loop has done so far in terms of the
chunks it sealed, every round keeps it (`Written.sealChunk`), and a call that
ends without an error wrote an assembled object of the first `limit` bytes of
its source (`encryptChunks_ok`). A chunk never holds more than `chunkSize`
bytes, whether or not its call succeeded.
-/

namespace RelayLifeline.Capture

open Lib

variable {g : Gcm} {key : Bytes}

/-! ## Reading sealed chunks -/

theorem length_sealed (key : Bytes) (c : Chunk g) : (c.sealed key).length = c.plain.length + 16 := by
  rw [Chunk.sealed, Aead.length_sealText, g.size_tag]

theorem length_frame (c : Chunk g) :
    (c.frame key).length = 4 + c.nonce.1.length + (c.sealed key).length := by
  rw [Chunk.frame, List.length_append, List.length_append, length_putUint32]

theorem nextChunk_frame {c : Chunk g} (hc : c.plain.length ≤ chunkSize) (rest : Bytes) :
    nextChunk g key (c.frame key ++ rest) = .ok (some (c.plain, rest)) := by
  have hchunk : chunkSize = 2 ^ 20 := rfl
  have hlen := length_sealed key c
  have hget : getUint (putUint32 (c.sealed key).length) = (c.sealed key).length :=
    getUint_putUint32 (by omega)
  have hsplit : c.frame key ++ rest =
      putUint32 (c.sealed key).length ++ (c.nonce.1 ++ (c.sealed key ++ rest)) := by
    rw [Chunk.frame, List.append_assoc, List.append_assoc]
  rw [nextChunk, hsplit, readFull_append (length_putUint32 _)]
  dsimp only
  rw [hget, if_neg (by rw [g.size_tag]; omega), readFull_append c.nonce.2]
  dsimp only
  rw [readFull_append rfl]
  dsimp only
  rw [Chunk.sealed, Aead.openText_sealText]

theorem decryptLoop_frames {cs : List (Chunk g)} (hcs : ∀ c ∈ cs, c.plain.length ≤ chunkSize)
    (destination : Bytes) :
    decryptLoop g key buffer (cs.flatMap (Chunk.frame key)) destination =
      (destination ++ cs.flatMap Chunk.plain, none) := by
  induction cs generalizing destination with
  | nil =>
      rw [List.flatMap_nil, List.flatMap_nil, List.append_nil, decryptLoop]
      split
      next h => cases h
      · rfl
      next h => cases h
  | cons c cs ih =>
      have hnext : nextChunk g key ((c :: cs).flatMap (Chunk.frame key)) =
          .ok (some (c.plain, cs.flatMap (Chunk.frame key))) := by
        rw [List.flatMap_cons, nextChunk_frame (hcs c (by simp))]
      rw [decryptLoop]
      split
      next h => rw [hnext] at h; cases h
      next h => rw [hnext] at h; cases h
      next plain rest h =>
        rw [hnext] at h
        injection h with h
        injection h with h
        injection h with hp hr
        subst hp hr
        show decryptLoop g key buffer _ (destination ++ c.plain) = _
        rw [ih (fun c' hc' => hcs c' (List.mem_cons_of_mem c hc')), List.flatMap_cons,
          List.append_assoc]

/-- Sealed chunks decrypt to the bytes they hold, whichever they are and in
whatever order they stand. -/
theorem decryptChunks_assemble {g' : Gcm} (hkey : newGCM g key = .ok g') {cs : List (Chunk g)}
    (hcs : ∀ c ∈ cs, c.plain.length ≤ chunkSize) :
    decryptChunks g key (assemble key cs) buffer [] = (cs.flatMap Chunk.plain, none) := by
  rw [decryptChunks, hkey]
  dsimp only
  rw [assemble, readFull_append rfl]
  dsimp only
  rw [if_pos rfl, decryptLoop_frames hcs, List.nil_append]

/-! ## One read of the source -/

theorem Source.length_read (source : Source) (n : Nat) : (source.read n).bytes.length ≤ n := by
  match source with
  | [] => exact Nat.zero_le n
  | (bytes, err) :: rest =>
      rw [Source.read]
      split
      next h => exact h
      · show (bytes.take n).length ≤ n
        rw [List.length_take]
        omega

theorem Source.content_read_none {source : Source} {n : Nat} (h : (source.read n).err = none) :
    source.content = (source.read n).bytes ++ (source.read n).source.content := by
  match source with
  | [] => cases h
  | (bytes, err) :: rest =>
      rw [Source.read] at h ⊢
      split at h
      next hle =>
        rw [if_pos hle]
        dsimp only at h
        subst h
        rfl
      next hle =>
        rw [if_neg hle]
        show Source.content ((bytes, err) :: rest) =
          bytes.take n ++ Source.content ((bytes.drop n, err) :: rest)
        cases err with
        | none =>
            show bytes ++ Source.content rest =
              bytes.take n ++ (bytes.drop n ++ Source.content rest)
            rw [← List.append_assoc, List.take_append_drop]
        | some err => exact (List.take_append_drop n bytes).symm

theorem Source.content_read_some {source : Source} {n : Nat} {err : Failure}
    (h : (source.read n).err = some err) : source.content = (source.read n).bytes := by
  match source with
  | [] => rfl
  | (bytes, err') :: rest =>
      rw [Source.read] at h ⊢
      split at h
      next hle =>
        rw [if_pos hle]
        dsimp only at h
        subst h
        rfl
      · cases h

theorem Sink.write_none {s : Sink} {data : Bytes} (h : (s.write data).2 = none) :
    (s.write data).1.written = s.written ++ data := by
  rw [Sink.write] at h ⊢
  split
  · rfl
  · rfl
  next hf => rw [hf] at h; cases h

/-! ## Writing the chunks -/

/-- What the loop has written, read off the chunks it has sealed: `before` is
what the destination held, `total` what the source had to give and `left` what
it still has. -/
structure Written (key before total : Bytes) (limit : Nat) (left : Bytes) (e : Encryption g) :
    Prop where
  written : e.destination.written = before ++ assemble key e.chunks
  stored : e.stored = (e.chunks.flatMap (Chunk.frame key)).length
  original : e.original = (e.chunks.flatMap Chunk.plain).length
  content : e.chunks.flatMap Chunk.plain ++ left = total
  within : e.original ≤ limit

theorem writeChunk_ok {e : Encryption g} {c : Chunk g} (h : (writeChunk key e c).err = none) :
    (writeChunk key e c).destination.written = e.destination.written ++ c.frame key ∧
      (writeChunk key e c).stored = e.stored + (c.frame key).length ∧
      (writeChunk key e c).original = e.original ∧ (writeChunk key e c).chunks = e.chunks := by
  rw [writeChunk] at h ⊢
  dsimp only at h ⊢
  split at h
  next hw =>
    dsimp only at h
    rw [h] at hw
    cases hw
  next hlength =>
    rw [if_neg hlength]
    split at h
    next hw =>
      dsimp only at h
      rw [h] at hw
      cases hw
    next hnonce =>
      rw [if_neg hnonce]
      split at h
      next hw =>
        dsimp only at h
        rw [h] at hw
        cases hw
      next hsealed =>
        rw [if_neg hsealed]
        rw [Bool.not_eq_true, Option.isSome_eq_false_iff, Option.isNone_iff_eq_none]
          at hlength hnonce hsealed
        refine ⟨?_, ?_, rfl, rfl⟩
        · show (Sink.write _ _).1.written = _
          rw [Sink.write_none hsealed, Sink.write_none hnonce, Sink.write_none hlength, Chunk.frame,
            List.append_assoc, List.append_assoc, List.append_assoc]
        · show e.stored + _ = _
          rw [length_frame]

theorem Written.sealChunk {before total left plain : Bytes} {limit : Nat} {e : Encryption g}
    (source : Source) (he : Written key before total limit (plain ++ left) e)
    (hn : e.original + plain.length ≤ limit)
    (h : (sealChunk key { e with source } plain).err = none) :
    Written key before total limit left (sealChunk key { e with source } plain) := by
  rw [Capture.sealChunk] at h ⊢
  split at h
  next hp =>
    rw [if_pos hp]
    subst hp
    exact ⟨he.written, he.stored, he.original, he.content, he.within⟩
  next hp =>
    rw [if_neg hp]
    split at h
    · cases h
    next nonce nonces hnonces =>
      dsimp only at hnonces
      rw [hnonces]
      dsimp only
      obtain ⟨hwritten, hstored, horiginal, hchunks⟩ := writeChunk_ok h
      constructor
      · rw [hwritten, hchunks, he.written, assemble, assemble, List.flatMap_append,
          List.flatMap_singleton, List.append_assoc, List.append_assoc]
      · rw [hstored, hchunks, he.stored, List.flatMap_append, List.flatMap_singleton,
          List.length_append]
      · rw [horiginal, hchunks, he.original, List.flatMap_append, List.flatMap_singleton,
          List.length_append]
      · rw [hchunks, ← he.content, List.flatMap_append, List.flatMap_singleton,
          List.append_assoc]
      · rw [horiginal]
        exact hn

/-- What a call that ended without an error has done: the destination gained an
object of the first `limit` bytes of the source. -/
structure Stored (key before total : Bytes) (limit : Nat) (e : Encryption g) : Prop where
  written : e.destination.written = before ++ assemble key e.chunks
  stored : e.stored = (assemble key e.chunks).length
  content : e.chunks.flatMap Chunk.plain = total.take limit

theorem Written.stored_of_end {before total left : Bytes} {limit : Nat} {e : Encryption g}
    (he : Written key before total limit left e) (hend : e.original = limit ∨ left = []) :
    e.stored + objectMagic.length = (assemble key e.chunks).length ∧
      e.chunks.flatMap Chunk.plain = total.take limit := by
  refine ⟨by rw [he.stored, assemble, List.length_append, Nat.add_comm], ?_⟩
  rw [← he.content]
  have hlen := he.original
  obtain hlimit | hnil := hend
  · rw [← hlimit, hlen, List.take_left]
  · have hwithin := he.within
    rw [hnil, List.append_nil, List.take_of_length_le (by omega)]

theorem probe_ok {before total left : Bytes} {limit : Nat} {e : Encryption g}
    (he : Written key before total limit left e) (hlimit : e.original = limit)
    (h : (probe e).err = none) : Stored key before total limit (probe e) := by
  obtain ⟨hstored, hcontent⟩ := he.stored_of_end (.inl hlimit)
  rw [probe] at h ⊢
  split at h
  · exact ⟨he.written, hstored, hcontent⟩
  · exact ⟨he.written, hstored, hcontent⟩
  · cases h

/-- One round of the loop, up to what the read reported. -/
theorem Written.round {before total left : Bytes} {limit : Nat} {e : Encryption g}
    (he : Written key before total limit e.source.content e) (hl : e.original < limit)
    (hleft : e.source.content =
      (e.source.read (min chunkSize (limit - e.original))).bytes ++ left)
    (h : (Capture.sealChunk key
      { e with source := (e.source.read (min chunkSize (limit - e.original))).source }
      (e.source.read (min chunkSize (limit - e.original))).bytes).err = none) :
    Written key before total limit left (Capture.sealChunk key
      { e with source := (e.source.read (min chunkSize (limit - e.original))).source }
      (e.source.read (min chunkSize (limit - e.original))).bytes) := by
  have hlen := Source.length_read e.source (min chunkSize (limit - e.original))
  rw [hleft] at he
  exact he.sealChunk _ (by omega) h

theorem encryptLoop_ok {before total : Bytes} {limit : Nat} {e : Encryption g}
    (he : Written key before total limit e.source.content e)
    (h : (encryptLoop key limit e).err = none) :
    Stored key before total limit (encryptLoop key limit e) := by
  fun_induction encryptLoop key limit e with
  | case1 e hl read next herr =>
      rw [h] at herr
      cases herr
  | case2 e hl read next herr hr =>
      have hw := he.round hl
        (by rw [Source.content_read_some hr, List.append_nil]) h
      obtain ⟨hstored, hcontent⟩ := hw.stored_of_end (.inr rfl)
      exact ⟨hw.written, hstored, hcontent⟩
  | case3 e hl read next herr err hne hr => cases h
  | case4 e hl read next herr hr ih =>
      rw [Bool.not_eq_true, Option.isSome_eq_false_iff, Option.isNone_iff_eq_none] at herr
      have hw := he.round hl (Source.content_read_none hr) herr
      apply ih _ h
      show Written key before total limit next.source.content next
      rw [source_sealChunk]
      exact hw
  | case5 e hl =>
      have hwithin := he.within
      exact probe_ok he (by omega) h

/-- A call that ends without an error wrote an object of the first `limit`
bytes of its source, and nothing else. -/
theorem encryptChunks_ok {destination : Sink} {source : Source} {limit : Nat}
    {nonces : List (Nonce g)}
    (h : (encryptChunks key destination source limit nonces).err = none) :
    (∃ g', newGCM g key = .ok g') ∧
      Stored key destination.written source.content limit
        (encryptChunks key destination source limit nonces) := by
  rw [encryptChunks] at h ⊢
  split at h
  · cases h
  next g' hg =>
    refine ⟨⟨g', hg⟩, ?_⟩
    dsimp only at h ⊢
    split at h
    next hw =>
      dsimp only at h
      rw [h] at hw
      cases hw
    next hw =>
      rw [if_neg hw]
      rw [Bool.not_eq_true, Option.isSome_eq_false_iff, Option.isNone_iff_eq_none] at hw
      apply encryptLoop_ok _ h
      refine ⟨?_, rfl, rfl, rfl, Nat.zero_le limit⟩
      show (destination.write objectMagic).1.written = _
      rw [Sink.write_none hw, assemble, List.flatMap_nil, List.append_nil]

/-! ## No chunk is too long -/

theorem chunks_sealChunk {e : Encryption g} {plain : Bytes} {c : Chunk g}
    (h : c ∈ (sealChunk key e plain).chunks) : c ∈ e.chunks ∨ c.plain = plain := by
  rw [sealChunk] at h
  split at h
  · exact .inl h
  · split at h
    · exact .inl h
    · rw [(writeChunk_rest key _ _).2.1] at h
      obtain h | h := List.mem_append.mp h
      · exact .inl h
      · rw [List.mem_singleton.mp h]
        exact .inr rfl

theorem chunks_encryptLoop {limit : Nat} {e : Encryption g}
    (he : ∀ c ∈ e.chunks, c.plain.length ≤ chunkSize) :
    ∀ c ∈ (encryptLoop key limit e).chunks, c.plain.length ≤ chunkSize := by
  have hround : ∀ e : Encryption g, (∀ c ∈ e.chunks, c.plain.length ≤ chunkSize) →
      ∀ c ∈ (sealChunk key
        { e with source := (e.source.read (min chunkSize (limit - e.original))).source }
        (e.source.read (min chunkSize (limit - e.original))).bytes).chunks,
        c.plain.length ≤ chunkSize := by
    intro e he c hc
    obtain hc | hc := chunks_sealChunk hc
    · exact he c hc
    · have hlen := Source.length_read e.source (min chunkSize (limit - e.original))
      rw [hc]
      omega
  fun_induction encryptLoop key limit e with
  | case1 e hl read next herr => exact hround e he
  | case2 e hl read next herr hr => exact hround e he
  | case3 e hl read next herr err hne hr => exact hround e he
  | case4 e hl read next herr hr ih => exact ih (hround e he)
  | case5 e hl =>
      rw [probe]
      split
      · exact he
      · exact he
      · exact he

theorem chunks_encryptChunks {destination : Sink} {source : Source} {limit : Nat}
    {nonces : List (Nonce g)} :
    ∀ c ∈ (encryptChunks key destination source limit nonces).chunks,
      c.plain.length ≤ chunkSize := by
  rw [encryptChunks]
  split
  · intro c hc
    cases hc
  · dsimp only
    split
    · intro c hc
      cases hc
    · exact chunks_encryptLoop (fun c hc => by cases hc)

end RelayLifeline.Capture
