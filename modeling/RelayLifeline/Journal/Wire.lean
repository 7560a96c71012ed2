import RelayLifeline.Lib.Json.Struct
import RelayLifeline.Time

/-!
# The entries of a journal as they are written

An entry is what is in the file: strings are bytes, which need not be UTF-8, a
time has its zone, and a payload is a text. It is chained to the one before it
by the hash of its own JSON without the hash. The journal is read by
`json.Unmarshal`, which takes more texts than `json.Marshal` writes.

Braces in the texts are written `\\x7b` and `\\x7d`.
-/

namespace RelayLifeline.Journal.Wire

open Lib.Json

/-- `SchemaVersion`. -/
def currentSchemaVersion : Nat := 1

/-- `journal.Entry`. -/
structure Entry where
  schemaVersion : Int := 0
  sequence : Nat := 0
  time : Time := { instant := 0 }
  entityID : Text := []
  type : Text := []
  payload : Text := []
  previousHash : Text := []
  hash : Text := []
  deriving DecidableEq

/-- What `json.Marshal` gives for the payload of an append: the text of a
document without whitespace, escaped for HTML. -/
structure Payload where
  document : Document
  wellFormed : document.WellFormed

def Payload.text (p : Payload) : Text := p.document.compact.text

/-- The payload nil. -/
def Payload.null : Payload := ⟨.token .null, trivial⟩

/-! ## Writing -/

/-- A field with `omitempty`. -/
def omitEmpty (name : String) (value : Text) (write : Text → Option Text) :
    Option (List (Text × Text)) :=
  if value = [] then some [] else (write value).map fun text => [(utf8 name, text)]

/-- The fields that `entryHash` hashes: all but the hash. -/
def Entry.fields (e : Entry) : Option (List (Text × Text)) := do
  let time ← e.time.marshalJSON
  let payload ← omitEmpty "payload" e.payload compact
  let previousHash ← omitEmpty "previousHash" e.previousHash (some ∘ encodeString)
  some ([(utf8 "schemaVersion", utf8 e.schemaVersion.repr), (utf8 "sequence", utf8 e.sequence.repr),
    (utf8 "time", utf8 time), (utf8 "entityId", encodeString e.entityID),
    (utf8 "type", encodeString e.type)] ++ (payload ++ previousHash))

/-- `json.Marshal(entry)`. -/
def Entry.marshal (e : Entry) : Option Text :=
  e.fields.map fun fields => objectText (fields ++ [(utf8 "hash", encodeString e.hash)])

/-- What `entryHash` hashes. -/
def Entry.hashable (e : Entry) : Option Text := e.fields.map objectText

/-- The text of the digest of a text. -/
@[irreducible] def digest (text : Text) : Text := utf8 (hex (sha256 text))

/-- `entryHash`. It does not look whether the entry marshals, and hashes nothing
where it does not. -/
def entryHash (e : Entry) : Text := digest (e.hashable.getD [])

/-! ## Reading -/

/-- A value for a field of type `uint64`, which for null is left as it is. -/
def unmarshalUint (data : Text) : Option (Option Nat) :=
  if data = nullWord then some none
  else if data.all isDigit ∧ Time.value data < 2 ^ 64 then some (some (Time.value data))
  else none

/-- And for one of type `int`. -/
def unmarshalInt (data : Text) : Option (Option Int) :=
  if data = nullWord then some none
  else if data.head? = some 0x2d then
    if data.tail.all isDigit ∧ Time.value data.tail ≤ 2 ^ 63 then
      some (some (-(Time.value data.tail : Int)))
    else none
  else if data.all isDigit ∧ Time.value data < 2 ^ 63 then some (some (Time.value data : Int))
  else none

def named (name : String) (field : Text × Text) : Bool := foldName field.1 = foldName (utf8 name)

/-- What a member of the object does to the entry. -/
def Entry.set (e : Entry) (field : Text × Text) : Option Entry :=
  if named "schemaVersion" field then
    (unmarshalInt field.2).map fun n => { e with schemaVersion := n.getD e.schemaVersion }
  else if named "sequence" field then
    (unmarshalUint field.2).map fun n => { e with sequence := n.getD e.sequence }
  else if named "time" field then
    (Time.unmarshalJSON Time.parseLayout field.2).map fun t => { e with time := t.getD e.time }
  else if named "entityId" field then
    (unmarshalText field.2).map fun s => { e with entityID := s.getD e.entityID }
  else if named "type" field then
    (unmarshalText field.2).map fun s => { e with type := s.getD e.type }
  else if named "payload" field then some { e with payload := field.2 }
  else if named "previousHash" field then
    (unmarshalText field.2).map fun s => { e with previousHash := s.getD e.previousHash }
  else if named "hash" field then
    (unmarshalText field.2).map fun s => { e with hash := s.getD e.hash }
  else some e

/-- `json.Unmarshal(line, &entry)`. -/
def unmarshal (line : Text) : Option Entry :=
  (unmarshalFields line).bind fun fields => fields.foldlM Entry.set {}

/-! ## What is read -/

/-- The payload as it is written again. -/
def Entry.normal (e : Entry) : Entry := { e with payload := compactFrom .outside 0 e.payload }

/-- What the reader makes: the zone shows minutes, strings are UTF-8, and the
payload is a document that nests less deep than a line may. -/
structure Entry.Readable (e : Entry) : Prop where
  sequence : e.sequence < 2 ^ 64
  minutes : e.time.offset % 60 = 0
  bare : e.time.monotonic = none
  entityID : IsUTF8 e.entityID
  type : IsUTF8 e.type
  payload : e.payload = [] ∨
    ∃ d : Document, d.WellFormed ∧ d.depth < maxNestingDepth ∧ d.text = e.payload
  previousHash : IsUTF8 e.previousHash
  hash : IsUTF8 e.hash

theorem readable_empty : ({} : Entry).Readable where
  sequence := by decide
  minutes := rfl
  bare := rfl
  entityID := .nil
  type := .nil
  payload := .inl rfl
  previousHash := .nil
  hash := .nil

/-- A string in a document is UTF-8. -/
theorem isUTF8_unmarshalText {d : Document} (hd : d.WellFormed) {s : Text}
    (h : unmarshalText d.text = some (some s)) : IsUTF8 s := by
  rw [unmarshalText] at h
  split at h
  next => cases h
  next =>
    split at h
    next hquote =>
      cases h
      cases d with
      | token token =>
        cases token with
        | null => cases hquote
        | bool b => cases b <;> cases hquote
        | number text =>
            obtain ⟨c, t, rfl, hc⟩ := IsNumber.cons hd
            rw [Document.text, Token.text, List.head?_cons, Option.some.injEq] at hquote
            rcases hc with rfl | hdigit
            · cases hquote
            · rw [hquote] at hdigit
              cases hdigit
        | string text =>
            rw [Document.text, Token.text, List.tail_cons, List.dropLast_concat]
            exact isUTF8_unquote hd
      | emptyArray _ => cases hquote
      | array _ => cases hquote
      | emptyObject _ => cases hquote
      | object _ => cases hquote
    next => cases h

end RelayLifeline.Journal.Wire
