import RelayLifeline.Journal.Wire
import RelayLifeline.Lib.Json.Sound
import RelayLifeline.Proofs.Times

/-!
# Entries written and read

An entry that has been read is one of a kind, and one of that kind that can be
written is read back from its line as it is but for the layout of its payload.
What is hashed of an entry is the text of an object, so that two entries with
the same text have the same fields.
-/

namespace RelayLifeline

open Lib.Json

/-! ## Times that are read -/

namespace Time

/-- The offset of a zone that is read is of whole minutes. -/
theorem minutes_parseZone {s : Text} {offset : Int} (h : parseZone s = some offset) :
    offset % 60 = 0 := by
  unfold parseZone at h
  split at h
  next =>
    split at h
    · cases h
      rfl
    · cases h
  next =>
    obtain ⟨hours, -, h⟩ := Option.bind_eq_some_iff.1 h
    obtain ⟨minutes, -, h⟩ := Option.bind_eq_some_iff.1 h
    split at h
    · dsimp only at h
      split at h <;> cases h <;> omega
    · cases h
  next => cases h

theorem minutes_getzone {s : Text} {offset : Int} (h : getzone s = some offset) :
    offset % 60 = 0 := by
  unfold getzone at h
  split at h
  next =>
    split at h
    · cases h
      rfl
    · cases h
  next =>
    obtain ⟨hours, -, h⟩ := Option.bind_eq_some_iff.1 h
    obtain ⟨minutes, -, h⟩ := Option.bind_eq_some_iff.1 h
    split at h
    · dsimp only at h
      split at h <;> cases h <;> omega
    · cases h
  next => cases h

theorem minutes_parseRFC3339 {s : Text} {t : Time} (h : parseRFC3339 s = some t) :
    t.offset % 60 = 0 ∧ t.monotonic = none := by
  unfold parseRFC3339 at h
  simp only [Option.bind_eq_some_iff] at h
  obtain ⟨year, -, month, -, day, -, hours, -, minutes, -, seconds, -, h⟩ := h
  split at h
  · obtain ⟨offset, hzone, rfl⟩ := Option.map_eq_some_iff.1 h
    exact ⟨minutes_parseZone hzone, rfl⟩
  · cases h

theorem minutes_parseLayout {s : Text} {read : Int × Int} (h : parseLayout s = some read) :
    read.2 % 60 = 0 := by
  simp only [parseLayout, Option.bind_eq_bind, Option.bind_eq_some_iff, Option.some.injEq,
    Prod.exists] at h
  obtain ⟨_, _, -, _, _, -, _, _, -, _, _, -, _, _, -, _, _, -, offset, hzone, rfl⟩ := h
  exact minutes_getzone hzone

theorem minutes_unmarshalJSON {data : Text} {t : Time}
    (h : unmarshalJSON parseLayout data = some (some t)) :
    t.offset % 60 = 0 ∧ t.monotonic = none := by
  rw [unmarshalJSON] at h
  split at h
  · cases h
  · split at h
    · obtain ⟨t', hparse, heq⟩ := Option.map_eq_some_iff.1 h
      cases heq
      rw [parse, Option.or_eq_some_iff] at hparse
      rcases hparse with hstrict | ⟨-, helse⟩
      · exact minutes_parseRFC3339 hstrict
      · obtain ⟨read, hread, rfl⟩ := Option.map_eq_some_iff.1 helse
        exact ⟨minutes_parseLayout hread, rfl⟩
    · cases h

end Time

namespace Journal.Wire

/-! ## Entries that are read -/

theorem unmarshalUint_lt {data : Text} {n : Nat} (h : unmarshalUint data = some (some n)) :
    n < 2 ^ 64 := by
  rw [unmarshalUint] at h
  split at h
  · cases h
  · split at h
    next hdigits =>
      cases h
      exact hdigits.2
    next => cases h

/-- A member of a line keeps the entry of the kind that is read. -/
theorem Entry.Readable.set {e e' : Entry} {field : Text × Text} (he : e.Readable)
    (hfield : ∃ d : Document, d.WellFormed ∧ d.depth < maxNestingDepth ∧ field.2 = d.text)
    (h : e.set field = some e') : e'.Readable := by
  obtain ⟨d, hd, hdepth, htext⟩ := hfield
  have hstring : ∀ {s : Option Text} {old : Text}, unmarshalText field.2 = some s → IsUTF8 old →
      IsUTF8 (s.getD old) := by
    intro s old hs hold
    cases s with
    | none => exact hold
    | some s =>
        rw [htext] at hs
        exact isUTF8_unmarshalText hd hs
  rw [Entry.set] at h
  split at h
  · obtain ⟨n, -, rfl⟩ := Option.map_eq_some_iff.1 h
    exact { he with }
  split at h
  · obtain ⟨n, hn, rfl⟩ := Option.map_eq_some_iff.1 h
    cases n with
    | none => exact he
    | some n => exact { he with sequence := unmarshalUint_lt hn }
  split at h
  · obtain ⟨t, ht, rfl⟩ := Option.map_eq_some_iff.1 h
    cases t with
    | none => exact he
    | some t =>
        obtain ⟨hminutes, hbare⟩ := Time.minutes_unmarshalJSON ht
        exact { he with minutes := hminutes, bare := hbare }
  split at h
  · obtain ⟨s, hs, rfl⟩ := Option.map_eq_some_iff.1 h
    exact { he with entityID := hstring hs he.entityID }
  split at h
  · obtain ⟨s, hs, rfl⟩ := Option.map_eq_some_iff.1 h
    exact { he with type := hstring hs he.type }
  split at h
  · cases h
    exact { he with payload := .inr ⟨d, hd, hdepth, htext.symm⟩ }
  split at h
  · obtain ⟨s, hs, rfl⟩ := Option.map_eq_some_iff.1 h
    exact { he with previousHash := hstring hs he.previousHash }
  split at h
  · obtain ⟨s, hs, rfl⟩ := Option.map_eq_some_iff.1 h
    exact { he with hash := hstring hs he.hash }
  · cases h
    exact he

/-- Whatever is read is of the kind that is read. -/
theorem readable_unmarshal {line : Text} {e : Entry} (h : unmarshal line = some e) :
    e.Readable := by
  obtain ⟨fields, hfields, hfold⟩ := Option.bind_eq_some_iff.1 h
  have hall : ∀ field ∈ fields, ∃ d : Document, d.WellFormed ∧ d.depth < maxNestingDepth ∧
      field.2 = d.text := fun _ hmem => mem_unmarshalFields hfields hmem
  clear hfields h
  have hinit := readable_empty
  generalize ({} : Entry) = start at hfold hinit
  induction fields generalizing start with
  | nil =>
      cases hfold
      exact hinit
  | cons field fields ih =>
      rw [List.foldlM_cons] at hfold
      obtain ⟨next, hset, hrest⟩ := Option.bind_eq_some_iff.1 hfold
      exact ih (fun f hf => hall f (List.mem_cons_of_mem _ hf)) next hrest
        (hinit.set (hall field List.mem_cons_self) hset)

/-! ## Numbers -/

/-- The digits of a number begin with a zero only if they are that. -/
theorem toDigits_cons : ∀ {n : Nat}, 0 < n → ∃ c l, Nat.toDigits 10 n = c :: l ∧ c ≠ '0' := by
  intro n
  induction n using Nat.strongRecOn with
  | ind n ih =>
    intro hpos
    by_cases hsmall : n < 10
    · have hchar : ∀ n < 10, 0 < n → n.digitChar ≠ '0' := by decide
      rw [Nat.toDigits_of_lt_base hsmall]
      exact ⟨_, [], rfl, hchar n hsmall hpos⟩
    · obtain ⟨c, l, hdigits, hc⟩ := ih (n / 10) (by omega) (by omega)
      rw [Nat.toDigits_of_base_le (by decide) (by omega), hdigits]
      exact ⟨c, _, rfl, hc⟩

theorem utf8_repr (n : Nat) : utf8 n.repr = (Nat.toDigits 10 n).map Time.digitByte := by
  rw [Nat.repr_eq_ofList_toDigits]
  exact Time.utf8_digits fun c hc => Nat.isDigit_of_mem_toDigits (by decide) (by decide) hc

theorem decimal_repr (n : Nat) : Time.Decimal (Nat.toDigits 10 n).length n (utf8 n.repr) := by
  have hdecimal := Time.decimal_digits (l := Nat.toDigits 10 n) fun c hc =>
    Nat.isDigit_of_mem_toDigits (by decide) (by decide) hc
  rwa [Nat.ofDigitChars_ten_toDigits, ← utf8_repr] at hdecimal

theorem isNumber_repr (n : Nat) : IsNumber (utf8 n.repr) := by
  have hinteger : IsInteger (utf8 n.repr) := by
    rcases Nat.eq_zero_or_pos n with rfl | hpos
    · exact .zero
    · have hall := List.all_eq_true.1 (decimal_repr n).digits
      obtain ⟨c, l, hdigits, hc⟩ := toDigits_cons hpos
      rw [utf8_repr, hdigits, List.map_cons] at hall ⊢
      refine .digits (fun hzero => hc ?_) ⟨List.cons_ne_nil _ _, hall⟩
      have hdigit := Nat.isDigit_of_mem_toDigits (b := 10) (n := n) (by decide) (by decide)
        (hdigits ▸ List.mem_cons_self)
      have hspec := (Time.digitByte_spec hdigit).2
      have hlow := (Lib.Strconv.bounds_of_isDigit hdigit).1
      rw [hzero] at hspec
      change 0x30 - 0x30 = c.toNat - 48 at hspec
      have hchar : c.toNat = '0'.toNat := by
        change c.toNat = 48
        omega
      exact Char.toNat_inj.1 hchar
  have happ : utf8 n.repr = utf8 n.repr ++ [] ++ [] := by rw [List.append_nil, List.append_nil]
  rw [happ]
  exact .plain ⟨hinteger, .none, .none⟩

theorem unmarshalUint_repr {n : Nat} (h : n < 2 ^ 64) :
    unmarshalUint (utf8 n.repr) = some (some n) := by
  have hdecimal := decimal_repr n
  have hnull : utf8 n.repr ≠ nullWord := by
    intro heq
    have hdigits := hdecimal.digits
    rw [heq] at hdigits
    exact absurd hdigits (by decide)
  rw [unmarshalUint, if_neg hnull, hdecimal.value, if_pos ⟨hdecimal.digits, h⟩]

/-! ## The fields -/

/-- The payload as it is written, which one that is read always is. -/
theorem Entry.Readable.compact_payload {e : Entry} (he : e.Readable) (hne : e.payload ≠ []) :
    compact e.payload = some e.normal.payload ∧
      ∃ d : Document, d.WellFormed ∧ d.depth < maxNestingDepth ∧ d.compact = d ∧
        d.text = e.normal.payload := by
  rcases he.payload with hempty | ⟨d, hd, hdepth, htext⟩
  · exact absurd hempty hne
  · have hnormal : e.normal.payload = d.compact.text := by
      rw [Entry.normal, ← htext, Document.compactFrom_text hd]
    refine ⟨?_, d.compact, Document.wellFormed_compact hd, ?_, Document.compact_idem hd,
      hnormal.symm⟩
    · rw [hnormal, ← htext, compact_document hd (Nat.le_of_lt hdepth)]
    · rwa [Document.depth_compact]

theorem normal_payload_eq_nil {e : Entry} (he : e.Readable) :
    e.normal.payload = [] ↔ e.payload = [] := by
  constructor
  · intro hnormal
    by_contra hne
    obtain ⟨-, d, hd, -, -, htext⟩ := he.compact_payload hne
    obtain ⟨c, t, hcons, -⟩ := Document.cons hd
    rw [← htext, hcons] at hnormal
    cases hnormal
  · intro hempty
    rw [Entry.normal, hempty]
    rfl

/-- The fields that are always written. -/
def Entry.leading (e : Entry) : List (Text × Text) :=
  [(utf8 "schemaVersion", utf8 e.schemaVersion.repr), (utf8 "sequence", utf8 e.sequence.repr),
    (utf8 "time", (Token.string (utf8 e.time.format)).text),
    (utf8 "entityId", encodeString e.entityID), (utf8 "type", encodeString e.type)]

/-- And those that are written unless they are empty. -/
def Entry.trailing (e : Entry) : List (Text × Text) :=
  (if e.payload = [] then [] else [(utf8 "payload", e.normal.payload)]) ++
    if e.previousHash = [] then [] else [(utf8 "previousHash", encodeString e.previousHash)]

/-- An entry that has been read has its fields written just if its time can
be. -/
theorem fields_eq {e : Entry} (he : e.Readable) :
    e.fields = if e.time.Writable then some (e.leading ++ e.trailing) else none := by
  rw [Entry.fields, Time.marshalJSON]
  split
  next =>
    have hpayload : omitEmpty "payload" e.payload compact =
        some (if e.payload = [] then [] else [(utf8 "payload", e.normal.payload)]) := by
      rw [omitEmpty]
      split
      next => rfl
      next hne => rw [(he.compact_payload hne).1]; rfl
    have hprevious : omitEmpty "previousHash" e.previousHash (some ∘ encodeString) =
        some (if e.previousHash = [] then []
          else [(utf8 "previousHash", encodeString e.previousHash)]) := by
      rw [omitEmpty]
      split
      next => rfl
      next => rfl
    have htime : utf8 ("\"" ++ (e.time.format ++ "\"")) =
        (Token.string (utf8 e.time.format)).text := by
      rw [utf8_append, utf8_append, show utf8 "\"" = [quoteMark] by decide, Token.text,
        List.singleton_append]
    rw [hpayload, hprevious, Entry.leading, Entry.trailing, ← htime]
    simp only [Option.bind_eq_bind, Option.bind_some]
  next => rfl

/-! ## The document of a line -/

/-- A member of the object that a line is. -/
structure IsMember (field : Text × Text) : Prop where
  name : unquote field.1 = field.1
  value : ∃ d, IsField field d
  printable : Printable field.2

theorem isMember_document {name : String} (d : Document) (hname : Time.Plain (utf8 name))
    (hunquote : unquote (utf8 name) = utf8 name) (h : d.WellFormed)
    (hdepth : d.depth < maxNestingDepth) (hprintable : Printable d.text) :
    IsMember (utf8 name, d.text) where
  name := hunquote
  value := ⟨d, isString_of_plain hname, h, hdepth, rfl⟩
  printable := hprintable

theorem isMember_token {name : String} (token : Token) (hname : Time.Plain (utf8 name))
    (hunquote : unquote (utf8 name) = utf8 name) (h : token.WellFormed) :
    IsMember (utf8 name, token.text) :=
  isMember_document (.token token) hname hunquote h (by rw [Document.depth]; decide)
    (Token.printable h)

theorem isMember_string {name : String} {s : Text} (hname : Time.Plain (utf8 name))
    (hunquote : unquote (utf8 name) = utf8 name) (h : IsUTF8 s) :
    IsMember (utf8 name, encodeString s) :=
  isMember_token (.string (encodeFrom s.length s)) hname hunquote
    (wellFormed_encodeString h)

theorem isMember_leading {e : Entry} (he : e.Readable) (hschema : e.schemaVersion = 1) :
    ∀ field ∈ e.leading, IsMember field := by
  have hone : utf8 e.schemaVersion.repr = utf8 (1 : Nat).repr := by
    rw [hschema]
    decide
  rw [Entry.leading, hone]
  simp only [List.forall_mem_cons]
  exact ⟨isMember_token (.number (utf8 (1 : Nat).repr)) (by decide) (by decide)
      (isNumber_repr 1),
    isMember_token (.number (utf8 e.sequence.repr)) (by decide) (by decide)
      (isNumber_repr _),
    isMember_token (.string (utf8 e.time.format)) (by decide) (by decide)
      (Time.isString_format e.time),
    isMember_string (by decide) (by decide) he.entityID,
    isMember_string (by decide) (by decide) he.type, fun _ h => absurd h List.not_mem_nil⟩

theorem isMember_trailing {e : Entry} (he : e.Readable) :
    ∀ field ∈ e.trailing, IsMember field := by
  rw [Entry.trailing]
  refine List.forall_mem_append.2 ⟨?_, ?_⟩
  · split
    next => exact fun _ h => absurd h List.not_mem_nil
    next hne =>
      obtain ⟨-, d, hd, hdepth, hcompact, htext⟩ := he.compact_payload hne
      have hprintable := Document.printable hd
      rw [hcompact] at hprintable
      rw [← htext]
      exact List.forall_mem_singleton.2
        (isMember_document d (by decide) (by decide) hd hdepth hprintable)
  · split
    next => exact fun _ h => absurd h List.not_mem_nil
    next =>
      exact List.forall_mem_singleton.2
        (isMember_string (by decide) (by decide) he.previousHash)

/-- An object of members is read back as them, whatever whitespace follows. -/
theorem unmarshalFields_members {fields : List (Text × Text)} (hne : fields ≠ [])
    (h : ∀ field ∈ fields, IsMember field) {after : Text} (hafter : IsSpaces after) :
    unmarshalFields (objectText fields ++ after) = some fields := by
  have hnames : fields.map (fun field => (unquote field.1, field.2)) = fields := by
    refine (List.map_congr_left fun field hmem => ?_).trans (List.map_id _)
    rw [(h field hmem).name]
    rfl
  obtain ⟨field, fields, rfl⟩ := List.exists_cons_of_ne_nil hne
  rw [unmarshalFields_objectText (fun f hf => (h f hf).value) hafter, hnames]

theorem printable_members {fields : List (Text × Text)} (h : ∀ field ∈ fields, IsMember field) :
    Printable (objectText fields) := by
  refine printable_objectText fun field hmem => ?_
  obtain ⟨d, hd⟩ := (h field hmem).value
  exact ⟨hd.name.printable, (h field hmem).printable⟩

/-! ## Reading back -/

section

variable (e : Entry) (v : Text)

theorem set_schemaVersion : e.set (utf8 "schemaVersion", v) =
    (unmarshalInt v).map fun n => { e with schemaVersion := n.getD e.schemaVersion } := rfl

theorem set_sequence : e.set (utf8 "sequence", v) =
    (unmarshalUint v).map fun n => { e with sequence := n.getD e.sequence } := rfl

theorem set_time : e.set (utf8 "time", v) =
    (Time.unmarshalJSON Time.parseLayout v).map fun t => { e with time := t.getD e.time } := rfl

theorem set_entityID : e.set (utf8 "entityId", v) =
    (unmarshalText v).map fun s => { e with entityID := s.getD e.entityID } := rfl

theorem set_type : e.set (utf8 "type", v) =
    (unmarshalText v).map fun s => { e with type := s.getD e.type } := rfl

theorem set_payload : e.set (utf8 "payload", v) = some { e with payload := v } := rfl

theorem set_previousHash : e.set (utf8 "previousHash", v) =
    (unmarshalText v).map fun s => { e with previousHash := s.getD e.previousHash } := rfl

theorem set_hash : e.set (utf8 "hash", v) =
    (unmarshalText v).map fun s => { e with hash := s.getD e.hash } := rfl

end

theorem foldlM_leading {e : Entry} (he : e.Readable) (hschema : e.schemaVersion = 1)
    (htime : e.time.Writable) :
    e.leading.foldlM Entry.set {} =
      some { e with payload := [], previousHash := [], hash := [] } := by
  have hbare : { e.time with monotonic := none } = e.time := by
    rw [← he.bare]
  have hone : unmarshalInt (utf8 e.schemaVersion.repr) = some (some e.schemaVersion) := by
    rw [hschema]
    decide
  simp only [Entry.leading, List.foldlM_cons, List.foldlM_nil, set_schemaVersion, set_sequence,
    set_time, set_entityID, set_type, hone, unmarshalUint_repr he.sequence,
    Time.unmarshalJSON_format Time.parseLayout htime he.minutes, hbare,
    unmarshalText_encodeString he.entityID, unmarshalText_encodeString he.type, Option.map_some,
    Option.getD_some, Option.bind_eq_bind, Option.bind_some]
  rfl

theorem foldlM_trailing {e : Entry} (he : e.Readable) (start : Entry)
    (hpayload : start.payload = []) (hprevious : start.previousHash = []) :
    e.trailing.foldlM Entry.set start =
      some { start with payload := e.normal.payload, previousHash := e.previousHash } := by
  rw [Entry.trailing, List.foldlM_append]
  have hfirst : (if e.payload = [] then [] else [(utf8 "payload", e.normal.payload)]).foldlM
      Entry.set start = some { start with payload := e.normal.payload } := by
    split
    next hempty => rw [(normal_payload_eq_nil he).2 hempty, ← hpayload]; rfl
    next => rfl
  rw [hfirst, Option.bind_eq_bind, Option.bind_some]
  split
  next hempty => rw [hempty, ← hprevious]; rfl
  next =>
    rw [List.foldlM_cons, set_previousHash, unmarshalText_encodeString he.previousHash]
    rfl

/-- The members of the object that its line is. -/
def Entry.members (e : Entry) : List (Text × Text) :=
  e.leading ++ e.trailing ++ [(utf8 "hash", encodeString e.hash)]

theorem members_ne_nil (e : Entry) : e.members ≠ [] :=
  List.append_ne_nil_of_right_ne_nil _ (List.cons_ne_nil _ _)

theorem isMember_members {e : Entry} (he : e.Readable) (hschema : e.schemaVersion = 1) :
    ∀ field ∈ e.members, IsMember field :=
  List.forall_mem_append.2 ⟨List.forall_mem_append.2
    ⟨isMember_leading he hschema, isMember_trailing he⟩,
    List.forall_mem_singleton.2 (isMember_string (by decide) (by decide) he.hash)⟩

theorem marshal_eq {e : Entry} (he : e.Readable) (htime : e.time.Writable) :
    e.marshal = some (objectText e.members) := by
  rw [Entry.marshal, fields_eq he, if_pos htime, Option.map_some, Entry.members]

theorem writable_of_marshal {e : Entry} (he : e.Readable) (h : e.marshal ≠ none) :
    e.time.Writable := by
  by_contra htime
  rw [Entry.marshal, fields_eq he, if_neg htime] at h
  exact h rfl

/-- **An entry is read back from its line.** -/
theorem unmarshal_marshal {e : Entry} (he : e.Readable) (hschema : e.schemaVersion = 1)
    (htime : e.time.Writable) :
    unmarshal (objectText e.members) = some e.normal ∧ Printable (objectText e.members) := by
  have hall := isMember_members he hschema
  have hread := unmarshalFields_members (members_ne_nil e) hall isSpaces_nil
  rw [List.append_nil] at hread
  have hfold : e.members.foldlM Entry.set {} = some e.normal := by
    rw [Entry.members, List.foldlM_append, List.foldlM_append, foldlM_leading he hschema htime,
      Option.bind_eq_bind, Option.bind_some, foldlM_trailing he _ rfl rfl, Option.bind_some,
      List.foldlM_cons, set_hash, unmarshalText_encodeString he.hash]
    rfl
  exact ⟨by rw [unmarshal, hread, Option.bind_some, hfold], printable_members hall⟩

/-- A line that is cut off is not. -/
theorem unmarshal_torn {e : Entry} (he : e.Readable) (hschema : e.schemaVersion = 1)
    {part rest : Text} (heq : part ++ rest = objectText e.members) (hrest : rest ≠ []) :
    unmarshal part = none := by
  have hall := isMember_members he hschema
  obtain ⟨field, fields, hcons⟩ := List.exists_cons_of_ne_nil (members_ne_nil e)
  rw [hcons] at heq hall
  obtain ⟨members, hwell, -, -, htext⟩ := exists_object fun f hf => (hall f hf).value
  rw [htext] at heq
  rw [unmarshal, unmarshalFields_torn hwell heq hrest, Option.bind_none]

/-! ## What is hashed -/

theorem Entry.Readable.normal {e : Entry} (he : e.Readable) : e.normal.Readable :=
  { he with
    payload := by
      by_cases hempty : e.payload = []
      · exact .inl ((normal_payload_eq_nil he).2 hempty)
      · obtain ⟨-, d, hd, hdepth, -, htext⟩ := he.compact_payload hempty
        exact .inr ⟨d, hd, hdepth, htext⟩ }

theorem normal_normal {e : Entry} (he : e.Readable) : e.normal.normal = e.normal := by
  have hpayload : e.normal.normal.payload = e.normal.payload := by
    by_cases hempty : e.payload = []
    · rw [(normal_payload_eq_nil he.normal).2 ((normal_payload_eq_nil he).2 hempty),
        (normal_payload_eq_nil he).2 hempty]
    · obtain ⟨-, d, hd, -, hcompact, htext⟩ := he.compact_payload hempty
      show compactFrom .outside 0 e.normal.payload = e.normal.payload
      rw [← htext, Document.compactFrom_text hd, hcompact]
  calc e.normal.normal = { e.normal with payload := e.normal.normal.payload } := rfl
    _ = e.normal := by rw [hpayload]

theorem trailing_normal {e : Entry} (he : e.Readable) : e.normal.trailing = e.trailing := by
  rw [Entry.trailing, Entry.trailing, normal_normal he]
  simp only [normal_payload_eq_nil he]
  rfl

theorem fields_normal {e : Entry} (he : e.Readable) : e.normal.fields = e.fields := by
  rw [fields_eq he, fields_eq he.normal, trailing_normal he]
  rfl

/-- The layout of the payload is not hashed. -/
theorem entryHash_normal {e : Entry} (he : e.Readable) : entryHash e.normal = entryHash e := by
  rw [entryHash, entryHash, Entry.hashable, Entry.hashable, fields_normal he]

/-- What is hashed has all of the entry but the layout of its payload and the
hash. -/
theorem unmarshal_hashable {e : Entry} (he : e.Readable) (hschema : e.schemaVersion = 1)
    {text : Text} (h : e.hashable = some text) :
    unmarshal text = some { e.normal with hash := [] } := by
  rw [Entry.hashable, fields_eq he] at h
  split at h
  next htime =>
    have hne : e.leading ++ e.trailing ≠ [] :=
      List.append_ne_nil_of_left_ne_nil (List.cons_ne_nil _ _) _
    have hread := unmarshalFields_members hne
      (List.forall_mem_append.2 ⟨isMember_leading he hschema, isMember_trailing he⟩) isSpaces_nil
    rw [List.append_nil] at hread
    rw [← Option.some.inj h, unmarshal, hread, Option.bind_some, List.foldlM_append,
      foldlM_leading he hschema htime, Option.bind_eq_bind, Option.bind_some,
      foldlM_trailing he _ rfl rfl]
    rfl
  next => cases h

theorem hashable_isSome {e : Entry} (he : e.Readable) :
    e.hashable.isSome = true ↔ e.time.Writable := by
  rw [Entry.hashable, fields_eq he]
  split
  next h => simp [h]
  next h => simp [h]

theorem hashable_ne_nil {e : Entry} {text : Text} (h : e.hashable = some text) : text ≠ [] := by
  obtain ⟨fields, -, rfl⟩ := Option.map_eq_some_iff.1 h
  exact List.cons_ne_nil _ _

/-! ## Digests -/

theorem entryHash_eq (e : Entry) : entryHash e = digest (e.hashable.getD []) := rfl

/-- What is written in hexadecimal. -/
theorem hex_bytes (bytes : Text) : (utf8 (hex bytes)).length = 2 * bytes.length ∧
    ∀ b ∈ utf8 (hex bytes), isDigit b = true ∨ 0x61 ≤ b ∧ b ≤ 0x66 := by
  obtain ⟨hlength, hall⟩ := toList_hex bytes
  have hone : ∀ c, isHex c = true →
      ∃ b, String.utf8EncodeChar c = [b] ∧ (isDigit b = true ∨ 0x61 ≤ b ∧ b ≤ 0x66) := by
    intro c hc
    simp only [isHex, List.mem_cons, List.not_mem_nil, or_false, decide_eq_true_eq] at hc
    rcases hc with rfl | rfl | rfl | rfl | rfl | rfl | rfl | rfl | rfl | rfl | rfl | rfl | rfl |
      rfl | rfl | rfl <;> exact ⟨_, rfl, by decide⟩
  rw [utf8]
  generalize (hex bytes).toList = l at *
  have hspec : (l.flatMap String.utf8EncodeChar).length = l.length ∧
      ∀ b ∈ l.flatMap String.utf8EncodeChar, isDigit b = true ∨ 0x61 ≤ b ∧ b ≤ 0x66 := by
    clear hlength
    induction l with
    | nil => exact ⟨rfl, fun _ hb => absurd hb List.not_mem_nil⟩
    | cons c l ih =>
        obtain ⟨hc, hl⟩ := List.forall_mem_cons.1 hall
        obtain ⟨b, hb, hhex⟩ := hone c hc
        obtain ⟨hlen, hbytes⟩ := ih hl
        rw [List.flatMap_cons, hb, List.singleton_append, List.length_cons, List.length_cons, hlen]
        exact ⟨rfl, List.forall_mem_cons.2 ⟨hhex, hbytes⟩⟩
  exact ⟨hspec.1.trans hlength, hspec.2⟩

theorem isUTF8_hex (bytes : Text) : IsUTF8 (utf8 (hex bytes)) := by
  refine isUTF8_ascii fun b hb => ?_
  rcases (hex_bytes bytes).2 b hb with h | ⟨-, h⟩
  · rw [isDigit, Bool.and_eq_true, decide_eq_true_eq, decide_eq_true_eq] at h
    exact UInt8.lt_of_le_of_lt h.2 (by decide)
  · exact UInt8.lt_of_le_of_lt h (by decide)

theorem digest_bytes (text : Text) :
    (digest text).length = 64 ∧ ∀ b ∈ digest text, isDigit b = true ∨ 0x61 ≤ b ∧ b ≤ 0x66 := by
  obtain ⟨hlength, hall⟩ := hex_bytes (sha256 text)
  rw [length_sha256] at hlength
  rw [digest]
  exact ⟨hlength, hall⟩

theorem isUTF8_digest (text : Text) : IsUTF8 (digest text) := by
  rw [digest]
  exact isUTF8_hex _

theorem digest_ne_nil (text : Text) : digest text ≠ [] := by
  intro h
  have hlength := (digest_bytes text).1
  rw [h] at hlength
  cases hlength

end Journal.Wire

end RelayLifeline
