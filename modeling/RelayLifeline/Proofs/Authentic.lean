import RelayLifeline.Capture.Objects

/-!
# Which images of an object decrypt to what was captured

All bodies of a capture are sealed under one data key, each chunk on its own:
with a nonce of its own, but with nothing about the object it belongs to, its
place in it or whether another chunk follows. `whole_iff` says what that comes
to. Of the images put together from chunks sealed under the record's key, in
any selection, order and multiplicity, every one decrypts; the one that
decrypts to the captured body and to nothing else is the image
`encryptChunks` wrote, byte for byte.
-/

namespace RelayLifeline.Capture

open Lib

variable {g : Gcm}

/-- One body of a record: the object it is stored under and the call of
`encryptChunks` that wrote it. -/
structure Body (g : Gcm) where
  object : String
  source : Source
  limit : Nat
  nonces : List (Nonce g)
  faults : List (Option String) := []

def Body.encryption (key : Bytes) (b : Body g) : Encryption g :=
  encryptChunks key { faults := b.faults } b.source b.limit b.nonces

/-- What the object holds on disk. -/
def Body.image (key : Bytes) (b : Body g) : Bytes := (b.encryption key).destination.written

/-- An image in the place of a body's object is taken for the body as a whole:
what decrypts is the captured bytes, and any other image is refused. -/
def Body.Whole (key : Bytes) (b : Body g) (image : Bytes) : Prop :=
  (∀ out, decryptChunks g key image buffer [] = (out, none) →
    out = b.source.content.take b.limit) ∧
  (image ≠ b.image key → (decryptChunks g key image buffer []).2 ≠ none)

theorem image_eq_assemble {key : Bytes} {b : Body g} (h : (b.encryption key).err = none) :
    b.image key = assemble key (b.encryption key).chunks := by
  obtain ⟨-, hstored⟩ := encryptChunks_ok h
  exact hstored.written

/-- What was written is read back. -/
theorem decryptChunks_image {key : Bytes} {b : Body g} (h : (b.encryption key).err = none) :
    decryptChunks g key (b.image key) buffer [] = (b.source.content.take b.limit, none) := by
  obtain ⟨⟨g', hg⟩, hstored⟩ := encryptChunks_ok h
  rw [image_eq_assemble h, Body.encryption, decryptChunks_assemble hg chunks_encryptChunks,
    hstored.content]

/-- An image made of chunks that were sealed under the record's key is taken
for a body as a whole exactly when it is the image written for that body. -/
theorem whole_iff {key : Bytes} (bodies : List (Body g)) {b : Body g}
    (hwritten : (b.encryption key).err = none) {cs : List (Chunk g)}
    (hcs : ∀ c ∈ cs, ∃ b' ∈ bodies, c ∈ (b'.encryption key).chunks) :
    b.Whole key (assemble key cs) ↔ assemble key cs = b.image key := by
  obtain ⟨⟨g', hg⟩, -⟩ := encryptChunks_ok hwritten
  have hlen : ∀ c ∈ cs, c.plain.length ≤ chunkSize := by
    intro c hc
    obtain ⟨b', -, hc'⟩ := hcs c hc
    exact chunks_encryptChunks c hc'
  have hopens := decryptChunks_assemble hg hlen
  constructor
  · -- Every such image opens, so a refusal of all others leaves only the one written.
    intro ⟨_, hrefused⟩
    by_contra hne
    exact hrefused hne (by rw [hopens])
  · intro himage
    refine ⟨fun out hout => ?_, fun hne => absurd himage hne⟩
    rw [himage, decryptChunks_image hwritten] at hout
    injection hout with hout
    exact hout.symm

/-! ## A body of two chunks -/

def recordKey : Bytes := List.replicate 32 7

def drawn (n : UInt8) : Nonce checksum := ⟨List.replicate 12 n, rfl⟩

/-- A body the reader hands over in two pieces. -/
def twoPieces : Body checksum where
  object := "request.body.enc"
  source := [([0x61, 0x62], none), ([0x63], none)]
  limit := 1024
  nonces := [drawn 1, drawn 2, drawn 3]

theorem whole_twoPieces_reverse :
    ¬twoPieces.Whole recordKey (assemble recordKey (twoPieces.encryption recordKey).chunks.reverse) :=
  mt (whole_iff [twoPieces] (by decide +kernel)
    (fun _ hc => ⟨twoPieces, by simp, List.mem_reverse.mp hc⟩)).mp (by decide +kernel)

/-- With its last chunk cut off the body still decrypts, to its first two
bytes. -/
theorem cut_accepted :
    ¬twoPieces.Whole recordKey (assemble recordKey (twoPieces.encryption recordKey).chunks.dropLast) := by
  intro ⟨hout, _⟩
  have hopens : decryptChunks checksum recordKey
      (assemble recordKey (twoPieces.encryption recordKey).chunks.dropLast) buffer [] =
        ([0x61, 0x62], none) := by
    decide +kernel
  have hprefix := hout _ hopens
  revert hprefix
  decide

end RelayLifeline.Capture
