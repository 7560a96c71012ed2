import RelayLifeline.Capture.Filter
import RelayLifeline.Capture.Objects

/-!
# What a view has of a body

The limiting writer stops the decryption with the chunk that brings it to its
limit, wherever that chunk ends: it has the first bytes of the plaintext, as
many as the limit lets through (`decryptLoop_limited`). It stops also when the
last chunk brings it to the limit and nothing follows, so a body that is exactly
as long as the limit is shown whole and reported as cut.
-/

namespace RelayLifeline.Capture

open Lib Lib.Json

variable {g : Gcm} {key : Bytes}

/-- One write while the limit is not reached. -/
theorem limitedWriter_write {plain data : Bytes} {remaining : Nat} (h : remaining ≠ 0) :
    limitedWriter.write ⟨plain, remaining⟩ data =
      (⟨plain ++ data.take remaining, remaining - data.length⟩,
        if remaining ≤ data.length then some previewLimit else none) := by
  have hlen : remaining - (data.take remaining).length = remaining - data.length := by
    rw [List.length_take]
    omega
  show (if remaining = 0 then _ else _) = _
  rw [if_neg h]
  dsimp only
  rw [hlen]
  by_cases hle : remaining ≤ data.length
  · rw [if_pos hle, if_pos (by omega)]
  · rw [if_neg hle, if_neg (by omega)]

theorem decryptLoop_limited {cs : List (Chunk g)} (hcs : ∀ c ∈ cs, c.plain.length ≤ chunkSize)
    (plain : Bytes) (limit : Nat) :
    decryptLoop g key limitedWriter (cs.flatMap (Chunk.frame key)) ⟨plain, limit⟩ =
      (⟨plain ++ (cs.flatMap Chunk.plain).take limit, limit - (cs.flatMap Chunk.plain).length⟩,
        if cs ≠ [] ∧ limit ≤ (cs.flatMap Chunk.plain).length then some previewLimit
        else none) := by
  induction cs generalizing plain limit with
  | nil =>
      rw [List.flatMap_nil, List.flatMap_nil, List.take_nil, List.append_nil, decryptLoop,
        if_neg fun h => h.1 rfl]
      split
      next h => cases h
      · rfl
      next h => cases h
  | cons c cs ih =>
      have hnext : nextChunk g key ((c :: cs).flatMap (Chunk.frame key)) =
          .ok (some (c.plain, cs.flatMap (Chunk.frame key))) := by
        rw [List.flatMap_cons, nextChunk_frame (hcs c List.mem_cons_self)]
      have hlen : ((c :: cs).flatMap Chunk.plain).length =
          c.plain.length + (cs.flatMap Chunk.plain).length := by
        rw [List.flatMap_cons, List.length_append]
      rw [decryptLoop]
      split
      next h => rw [hnext] at h; cases h
      next h => rw [hnext] at h; cases h
      next data rest h =>
        rw [hnext] at h
        injection h with h
        injection h with h
        injection h with hp hr
        subst hp hr
        by_cases hzero : limit = 0
        · have hfull : c :: cs ≠ [] ∧ limit ≤ ((c :: cs).flatMap Chunk.plain).length :=
            ⟨List.cons_ne_nil c cs, by omega⟩
          rw [if_pos hfull, hzero, List.take_zero, List.append_nil, Nat.zero_sub]
          rfl
        dsimp only
        rw [limitedWriter_write hzero]
        by_cases hle : limit ≤ c.plain.length
        · -- the chunk fills the limit, and nothing after it is read
          have hfull : c :: cs ≠ [] ∧ limit ≤ ((c :: cs).flatMap Chunk.plain).length :=
            ⟨List.cons_ne_nil c cs, by omega⟩
          have hleft : limit - c.plain.length =
              limit - ((c :: cs).flatMap Chunk.plain).length := by omega
          rw [if_pos hle, if_pos hfull, hleft, List.flatMap_cons,
            List.take_append_of_le_length hle]
          rfl
        · rw [if_neg hle]
          show decryptLoop g key limitedWriter _ ⟨plain ++ c.plain.take limit, _⟩ = _
          have hrest := ih (fun c' hc' => hcs c' (List.mem_cons_of_mem c hc'))
            (plain ++ c.plain.take limit) (limit - c.plain.length)
          have htake : c.plain.take limit ++
              (cs.flatMap Chunk.plain).take (limit - c.plain.length) =
                ((c :: cs).flatMap Chunk.plain).take limit := by
            rw [List.flatMap_cons, List.take_append]
          have hcond : (cs ≠ [] ∧ limit - c.plain.length ≤ (cs.flatMap Chunk.plain).length) ↔
              (c :: cs ≠ [] ∧ limit ≤ ((c :: cs).flatMap Chunk.plain).length) := by
            rw [hlen]
            constructor
            · rintro ⟨-, h⟩
              exact ⟨List.cons_ne_nil c cs, by omega⟩
            · rintro ⟨-, h⟩
              refine ⟨?_, by omega⟩
              rintro rfl
              rw [List.flatMap_nil, List.length_nil] at h
              omega
          rw [hrest, List.append_assoc, htake, hlen, Nat.sub_sub]
          simp only [hcond, hlen]

/-- What a view of a stored object is made of, and whether it is reported as
cut. -/
theorem filteredObject_assemble {F : Type} (numbers : Numbers F) {g' : Gcm}
    (hkey : newGCM g key = .ok g') {cs : List (Chunk g)}
    (hcs : ∀ c ∈ cs, c.plain.length ≤ chunkSize) (contentType : String) (limit : Nat) :
    filteredObject numbers g key (assemble key cs) contentType limit =
      .ok (filterBody numbers ((cs.flatMap Chunk.plain).take limit) contentType,
        decide (cs ≠ [] ∧ limit ≤ (cs.flatMap Chunk.plain).length)) := by
  have hread : decryptChunks g key (assemble key cs) limitedWriter { remaining := limit } =
      (⟨(cs.flatMap Chunk.plain).take limit, limit - (cs.flatMap Chunk.plain).length⟩,
        if cs ≠ [] ∧ limit ≤ (cs.flatMap Chunk.plain).length then some previewLimit
        else none) := by
    rw [decryptChunks, hkey]
    dsimp only
    rw [assemble, readFull_append rfl]
    dsimp only
    rw [if_pos rfl, decryptLoop_limited hcs, List.nil_append]
  rw [filteredObject, hread]
  dsimp only
  by_cases h : cs ≠ [] ∧ limit ≤ (cs.flatMap Chunk.plain).length
  · rw [if_pos h, decide_eq_true h]
    rfl
  · rw [if_neg h, decide_eq_false h]

/-! ## Whether more is reported -/

/-- The view has the first bytes of the plaintext, up to the limit, and reports
more exactly where there is more. -/
def TruncatedExactly {F : Type} (numbers : Numbers F) (g : Gcm) (key object plain : Bytes)
    (contentType : String) (limit : Nat) : Prop :=
  ∃ truncated, filteredObject numbers g key object contentType limit =
      .ok (filterBody numbers (plain.take (min limit plain.length)) contentType, truncated) ∧
    (truncated = true ↔ limit < plain.length)

/-- **A view reports exactly what it leaves out unless the body is exactly as
long as the limit.** An object without any chunk, which nothing was written of,
is no exception for a limit of zero. -/
theorem truncatedExactly_iff {F : Type} (numbers : Numbers F) {g g' : Gcm} {key : Bytes}
    (hkey : newGCM g key = .ok g') {cs : List (Chunk g)}
    (hcs : ∀ c ∈ cs, c.plain.length ≤ chunkSize) (contentType : String) (limit : Nat) :
    TruncatedExactly numbers g key (assemble key cs) (cs.flatMap Chunk.plain) contentType limit ↔
      ((cs.flatMap Chunk.plain).length ≠ limit ∨ cs = []) := by
  have hview := filteredObject_assemble numbers hkey hcs contentType limit
  constructor
  · rintro ⟨truncated, hread, hflag⟩
    rw [hview] at hread
    injection hread with hread
    injection hread with _ hread
    rw [← hread, decide_eq_true_eq] at hflag
    by_cases hnil : cs = []
    · exact .inr hnil
    · left
      intro hlen
      have hlt := hflag.mp ⟨hnil, by omega⟩
      omega
  · intro h
    refine ⟨decide (cs ≠ [] ∧ limit ≤ (cs.flatMap Chunk.plain).length), ?_, ?_⟩
    · rw [hview, List.take_eq_take_min]
    · rw [decide_eq_true_eq]
      constructor
      · rintro ⟨hnil, hle⟩
        obtain hlen | hnil' := h
        · omega
        · exact absurd hnil' hnil
      · intro hlt
        refine ⟨?_, by omega⟩
        rintro rfl
        rw [List.flatMap_nil, List.length_nil] at hlt
        omega

def numberTexts : Numbers Text := ⟨some, id⟩

/-- Five bytes, in two chunks. -/
def twoChunks : List (Chunk checksum) :=
  [⟨nonceOf 7, [97, 98, 99]⟩, ⟨nonceOf 8, [100, 101]⟩]

theorem truncatedExactly_twoChunks :
    TruncatedExactly numberTexts checksum (List.replicate 16 0)
      (assemble (List.replicate 16 0) twoChunks) (twoChunks.flatMap Chunk.plain) "text/plain" 4 :=
  (truncatedExactly_iff numberTexts rfl (by decide) "text/plain" 4).2 (.inl (by decide))

/-- A view of five bytes, all of which it has, says that there are more. -/
theorem not_truncatedExactly_full :
    ¬ TruncatedExactly numberTexts checksum (List.replicate 16 0)
      (assemble (List.replicate 16 0) twoChunks) (twoChunks.flatMap Chunk.plain) "text/plain"
      5 := by
  rintro ⟨truncated, hread, hflag⟩
  have hcut : (filteredObject numberTexts checksum (List.replicate 16 0)
      (assemble (List.replicate 16 0) twoChunks) "text/plain" 5).toOption.map Prod.snd =
        some true := by decide +kernel
  rw [hread] at hcut
  have htrue : truncated = true := Option.some.inj hcut
  have hlt := hflag.mp htrue
  exact absurd hlt (by decide)

end RelayLifeline.Capture
