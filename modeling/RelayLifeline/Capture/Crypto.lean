import Mathlib.Data.UInt
import RelayLifeline.Lib.Aead

/-!
# The encrypted objects of a capture

A captured body is stored as one object: four bytes of magic and then the
chunks, each with the length of its sealed text, its nonce and the sealed text.
`encryptChunks` writes an object from what a reader hands over, up to a limit;
`decryptChunks` reads it back chunk by chunk into a writer. The cipher is a
parameter: AES-GCM as the code gets it from `newGCM`.

The environment of a call is data. A `Source` lists what the reader's calls
still have to answer, a `Sink` says which of the coming writes fail, and
`nonces` is what the random source will give. `chunks` is not in the code: it
records the calls of `Seal`, in order.
-/

namespace RelayLifeline.Capture

open Lib

def objectMagic : Bytes := [0x52, 0x4C, 0x43, 0x31]

def chunkSize : Nat := 2 ^ 20

inductive Failure
  | keySize (size : Nat)
  | invalidObject
  | chunkLength (length : Nat)
  | short (how : Short)
  | authentication
  | failed (text : String)
  deriving DecidableEq, Repr

def Failure.message : Failure → String
  | keySize size => s!"crypto/aes: invalid key size {size}"
  | invalidObject => "invalid encrypted capture object"
  | chunkLength length => s!"invalid encrypted chunk length {length}"
  | short .eof => "EOF"
  | short .unexpectedEOF => "unexpected EOF"
  | authentication => "cipher: message authentication failed"
  | failed text => text

/-- AES in Galois counter mode with the sizes of the standard library. -/
structure Gcm extends Aead where
  size_nonce : nonceSize = 12
  size_tag : overhead = 16

/-- The cipher under a key, or the refusal of a key of a length AES does not
have. -/
def newGCM (g : Gcm) (key : Bytes) : Except Failure Gcm :=
  if key.length = 16 ∨ key.length = 24 ∨ key.length = 32 then .ok g
  else .error (.keySize key.length)

/-! ## What a call reads from and writes to -/

/-- What a reader still has to answer. A reader asked for fewer bytes than its
next answer holds keeps the remainder for the call after. -/
abbrev Source := List (Bytes × Option Failure)

structure Read where
  bytes : Bytes
  err : Option Failure
  source : Source

def Source.read (n : Nat) : Source → Read
  | [] => ⟨[], some (.short .eof), []⟩
  | (bytes, err) :: source =>
      if bytes.length ≤ n then ⟨bytes, err, source⟩
      else ⟨bytes.take n, none, (bytes.drop n, err) :: source⟩

/-- What the reader hands over before its first error. -/
def Source.content : Source → Bytes
  | [] => []
  | (bytes, none) :: source => bytes ++ content source
  | (bytes, some _) :: _ => bytes

/-- What the loops over a reader go down on. -/
def Source.size : Source → Nat
  | [] => 0
  | (bytes, _) :: source => bytes.length + 1 + size source

structure Sink where
  written : Bytes := []
  faults : List (Option String) := []

def Sink.write (s : Sink) (data : Bytes) : Sink × Option Failure :=
  match s.faults with
  | [] => ({ s with written := s.written ++ data }, none)
  | none :: faults => (⟨s.written ++ data, faults⟩, none)
  | some text :: faults => (⟨s.written, faults⟩, some (.failed text))

abbrev Nonce (g : Gcm) : Type := { bytes : Bytes // bytes.length = g.nonceSize }

/-- One call of `Seal`: the nonce it drew and the bytes it sealed. -/
structure Chunk (g : Gcm) where
  nonce : Nonce g
  plain : Bytes

variable (g : Gcm) (key : Bytes)

def Chunk.sealed {g : Gcm} (c : Chunk g) : Bytes := g.sealText key c.nonce.1 c.plain []

/-- The bytes of one chunk in an object. -/
def Chunk.frame {g : Gcm} (c : Chunk g) : Bytes :=
  putUint32 (c.sealed key).length ++ c.nonce.1 ++ c.sealed key

/-- An object made of the given chunks. -/
def assemble {g : Gcm} (chunks : List (Chunk g)) : Bytes :=
  objectMagic ++ chunks.flatMap (Chunk.frame key)

/-! ## Encryption -/

structure Encryption where
  source : Source
  destination : Sink
  nonces : List (Nonce g)
  original : Nat := 0
  stored : Nat := 0
  truncated : Bool := false
  err : Option Failure := none
  chunks : List (Chunk g) := []

variable {g}

/-- The three writes of a chunk, each only if the one before it succeeded. -/
def writeChunk (e : Encryption g) (c : Chunk g) : Encryption g :=
  let length := e.destination.write (putUint32 (c.sealed key).length)
  if length.2.isSome then { e with destination := length.1, err := length.2 }
  else
    let nonce := length.1.write c.nonce.1
    if nonce.2.isSome then { e with destination := nonce.1, err := nonce.2 }
    else
      let sealed := nonce.1.write (c.sealed key)
      if sealed.2.isSome then { e with destination := sealed.1, err := sealed.2 }
      else
        { e with
          destination := sealed.1
          stored := e.stored + (4 + c.nonce.1.length + (c.sealed key).length) }

/-- What the loop does with the bytes of one read. -/
def sealChunk (e : Encryption g) (plain : Bytes) : Encryption g :=
  if plain = [] then e
  else
    match e.nonces with
    | [] => { e with original := e.original + plain.length, err := some (.failed "rand") }
    | nonce :: nonces =>
        writeChunk key
          { e with
            original := e.original + plain.length
            nonces
            chunks := e.chunks ++ [⟨nonce, plain⟩] } ⟨nonce, plain⟩

/-- The read past the limit, which only asks whether there is more. -/
def probe (e : Encryption g) : Encryption g :=
  let read := e.source.read 1
  match read.err with
  | some (.short .eof) | none =>
      { e with
        source := read.source
        original := e.original + read.bytes.length
        stored := e.stored + objectMagic.length
        truncated := decide (0 < read.bytes.length) }
  | some err => { e with source := read.source, err := some err }

/-- A chunk goes to the destination, and what is read and sealed stays. -/
theorem writeChunk_rest (e : Encryption g) (c : Chunk g) :
    (writeChunk key e c).source = e.source ∧ (writeChunk key e c).chunks = e.chunks ∧
      (writeChunk key e c).original = e.original ∧
        (writeChunk key e c).truncated = e.truncated := by
  rw [writeChunk]
  dsimp only
  split
  · exact ⟨rfl, rfl, rfl, rfl⟩
  · split
    · exact ⟨rfl, rfl, rfl, rfl⟩
    · split
      · exact ⟨rfl, rfl, rfl, rfl⟩
      · exact ⟨rfl, rfl, rfl, rfl⟩

@[simp] theorem source_sealChunk (e : Encryption g) (plain : Bytes) :
    (sealChunk key e plain).source = e.source := by
  rw [sealChunk]
  split
  · rfl
  · split
    · rfl
    · rw [(writeChunk_rest key _ _).1]

/-- A read that reports nothing takes something off the reader. -/
theorem Source.size_read {source : Source} {n : Nat} (hn : 0 < n)
    (h : (source.read n).err = none) : (source.read n).source.size < source.size := by
  match source with
  | [] => cases h
  | (bytes, err) :: rest =>
      rw [Source.read]
      split
      · show Source.size rest < bytes.length + 1 + Source.size rest
        omega
      next hlen =>
        show (bytes.drop n).length + 1 + Source.size rest < bytes.length + 1 + Source.size rest
        rw [List.length_drop]
        omega

def encryptLoop (limit : Nat) (e : Encryption g) : Encryption g :=
  if e.original < limit then
    let read := e.source.read (min chunkSize (limit - e.original))
    let next := sealChunk key { e with source := read.source } read.bytes
    if next.err.isSome then next
    else
      match _hr : read.err with
      | some (.short .eof) => { next with stored := next.stored + objectMagic.length }
      | some err => { next with err := some err }
      | none => encryptLoop limit next
  else probe e
termination_by e.source.size
decreasing_by
  rw [source_sealChunk]
  exact Source.size_read (Nat.lt_min.mpr ⟨by decide, by omega⟩) _hr

def encryptChunks (destination : Sink) (source : Source) (limit : Nat) (nonces : List (Nonce g)) :
    Encryption g :=
  match newGCM g key with
  | .error err => { source, destination, nonces, err := some err }
  | .ok _ =>
      let magic := destination.write objectMagic
      if magic.2.isSome then { source, destination := magic.1, nonces, err := magic.2 }
      else encryptLoop key limit { source, destination := magic.1, nonces }

/-! ## Decryption -/

/-- Where the plaintext goes: a write takes the bytes, or stops the reading. -/
structure Writer (σ : Type*) where
  write (destination : σ) (data : Bytes) : σ × Option Failure

/-- A buffer, which takes everything. -/
def buffer : Writer Bytes := ⟨fun destination data => (destination ++ data, none)⟩

/-- One round of the loop: the plaintext of the next chunk and what follows
it, or nothing at the end of the object. -/
def nextChunk (g : Gcm) (key source : Bytes) : Except Failure (Option (Bytes × Bytes)) :=
  match readFull 4 source with
  | .error .eof => .ok none
  | .error .unexpectedEOF => .error (.short .unexpectedEOF)
  | .ok (length, source) =>
      if chunkSize + g.overhead < getUint length then .error (.chunkLength (getUint length))
      else
        match readFull g.nonceSize source with
        | .error err => .error (.short err)
        | .ok (nonce, source) =>
            match readFull (getUint length) source with
            | .error err => .error (.short err)
            | .ok (sealed, source) =>
                match g.openText key nonce sealed [] with
                | none => .error .authentication
                | some plain => .ok (some (plain, source))

theorem nextChunk_some {g : Gcm} {key source plain rest : Bytes}
    (h : nextChunk g key source = .ok (some (plain, rest))) :
    ∃ nonce sealed, source = putUint32 sealed.length ++ (nonce ++ (sealed ++ rest)) ∧
      nonce.length = g.nonceSize ∧ sealed.length ≤ chunkSize + g.overhead ∧
      g.openText key nonce sealed [] = some plain := by
  rw [nextChunk] at h
  split at h
  · cases h
  · cases h
  next length source' hlength =>
    obtain ⟨hsource, hfour⟩ := readFull_ok hlength
    split at h
    · cases h
    next hle =>
      split at h
      · cases h
      next nonce source'' hnonce =>
        obtain ⟨hsource', hsize⟩ := readFull_ok hnonce
        split at h
        · cases h
        next sealed tail hsealed =>
          obtain ⟨hsource'', hlen⟩ := readFull_ok hsealed
          split at h
          · cases h
          next plain' hopen =>
            injection h with h
            injection h with h
            injection h with hp hr
            subst hp hr
            refine ⟨nonce, sealed, ?_, hsize, ?_, hopen⟩
            · rw [hlen, putUint32_getUint hfour, hsource, hsource', hsource'']
            · rw [hlen]
              omega

theorem nextChunk_lt {g : Gcm} {key source plain rest : Bytes}
    (h : nextChunk g key source = .ok (some (plain, rest))) : rest.length < source.length := by
  obtain ⟨nonce, sealed, rfl, -⟩ := nextChunk_some h
  rw [List.length_append, List.length_append, List.length_append, length_putUint32]
  omega

def decryptLoop {σ : Type*} (g : Gcm) (key : Bytes) (w : Writer σ) (source : Bytes)
    (destination : σ) : σ × Option Failure :=
  match _h : nextChunk g key source with
  | .error err => (destination, some err)
  | .ok none => (destination, none)
  | .ok (some (plain, rest)) =>
      let written := w.write destination plain
      if written.2.isSome then written else decryptLoop g key w rest written.1
termination_by source.length
decreasing_by exact nextChunk_lt _h

def decryptChunks {σ : Type*} (g : Gcm) (key source : Bytes) (w : Writer σ)
    (destination : σ) : σ × Option Failure :=
  match newGCM g key with
  | .error err => (destination, some err)
  | .ok _ =>
      match readFull objectMagic.length source with
      | .error _ => (destination, some .invalidObject)
      | .ok (magic, source) =>
          if magic = objectMagic then decryptLoop g key w source destination
          else (destination, some .invalidObject)

/-- A cipher to run the model with: it leaves the text in the clear and tags it
with a checksum. -/
def checksum : Gcm where
  nonceSize := 12
  overhead := 16
  sealText key nonce plaintext aad :=
    plaintext ++ List.replicate 16 (key ++ nonce ++ plaintext ++ aad).sum
  openText key nonce sealed aad :=
    let plaintext := sealed.take (sealed.length - 16)
    if sealed.drop (sealed.length - 16) =
        List.replicate 16 (key ++ nonce ++ plaintext ++ aad).sum then some plaintext
    else none
  length_sealText key nonce plaintext aad := by
    rw [List.length_append, List.length_replicate]
  openText_sealText key nonce plaintext aad := by
    dsimp only
    rw [List.length_append, List.length_replicate, Nat.add_sub_cancel, List.take_left,
      List.drop_left, if_pos rfl]
  size_nonce := rfl
  size_tag := rfl

/-- A nonce for it. -/
def nonceOf (b : UInt8) : Nonce checksum := ⟨List.replicate 12 b, List.length_replicate⟩

end RelayLifeline.Capture
