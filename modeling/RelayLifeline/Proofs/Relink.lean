import RelayLifeline.Proofs.Lines

/-!
# Chains linked anew

A compaction keeps some of the entries and links them anew, each with its new
place and the hash of the one before it. That makes a chain of the same
contents. An entry comes no later in it than it was, so its line is no longer.
-/

namespace RelayLifeline.Journal.Wire

open Lib.Json

/-! ## How long a line is -/

/-- The bytes that fields take, each with the mark before it. -/
def fieldsSize (fields : List (Text × Text)) : Nat :=
  (fields.map fun field => (fieldText field).length + 1).sum

theorem fieldsSize_append (fields fields' : List (Text × Text)) :
    fieldsSize (fields ++ fields') = fieldsSize fields + fieldsSize fields' := by
  rw [fieldsSize, List.map_append, List.sum_append]
  rfl

theorem fieldsSize_cons (name value : Text) (fields : List (Text × Text)) :
    fieldsSize ((name, value) :: fields) = name.length + value.length + 4 + fieldsSize fields := by
  rw [fieldsSize, List.map_cons, List.sum_cons, fieldText, List.length_cons, List.length_append,
    List.length_cons, List.length_cons]
  dsimp only
  rw [fieldsSize]
  omega

theorem fieldsSize_singleton (name value : Text) :
    fieldsSize [(name, value)] = name.length + value.length + 4 := fieldsSize_cons name value []

theorem length_objectText {fields : List (Text × Text)} (h : fields ≠ []) :
    (objectText fields).length = fieldsSize fields + 1 := by
  have hparts : ∀ {parts : List Text}, parts ≠ [] →
      (List.intercalate [comma] parts).length + 1 = (parts.map (·.length + 1)).sum := by
    intro parts hne
    induction parts with
    | nil => exact absurd rfl hne
    | cons part parts ih =>
        cases parts with
        | nil => rw [List.intercalate_singleton, List.map_cons, List.sum_cons]; rfl
        | cons part' parts =>
            rw [List.intercalate_cons_cons, List.map_cons, List.sum_cons,
              ← ih (List.cons_ne_nil _ _), List.length_append, List.length_append,
              List.length_singleton]
            omega
  have hne : fields.map fieldText ≠ [] := by simpa using h
  have hsize := hparts hne
  rw [List.map_map] at hsize
  rw [objectText, List.length_cons, List.length_append, List.length_singleton]
  exact congrArg (· + 1) hsize

theorem length_repr_le {m n : Nat} (h : m ≤ n) :
    (utf8 m.repr).length ≤ (utf8 n.repr).length := by
  rw [(decimal_repr m).length, (decimal_repr n).length,
    Nat.length_toDigits_le_iff (by decide) Nat.length_toDigits_pos]
  exact Nat.lt_of_le_of_lt h
    ((Nat.length_toDigits_le_iff (by decide) Nat.length_toDigits_pos).1 (Nat.le_refl _))

/-- A digest is written as it is, in quotes. -/
theorem length_encodeString_digest (text : Text) : (encodeString (digest text)).length = 66 := by
  obtain ⟨hlength, hbytes⟩ := digest_bytes text
  have hplain : ∀ b : UInt8, isDigit b = true ∨ 0x61 ≤ b ∧ b ≤ 0x66 →
      b < 0x80 ∧ encodeByte b = [b] := by
    intro b hb
    have hall : ∀ n < 256, isDigit (UInt8.ofNat n) = true ∨
        0x61 ≤ UInt8.ofNat n ∧ UInt8.ofNat n ≤ 0x66 →
          UInt8.ofNat n < 0x80 ∧ encodeByte (UInt8.ofNat n) = [UInt8.ofNat n] := by
      decide +kernel
    have hspec := hall b.toNat b.toNat_lt
    rw [UInt8.ofNat_toNat] at hspec
    exact hspec hb
  have hencode : ∀ (s : Text) (n : Nat), (∀ b ∈ s, b < 0x80 ∧ encodeByte b = [b]) → s.length ≤ n →
      encodeFrom n s = s := by
    intro s
    induction s with
    | nil =>
        intro n _ _
        cases n with
        | zero => rfl
        | succ n => rfl
    | cons b s ih =>
        intro n hs hn
        obtain ⟨⟨hlow, hbyte⟩, hs⟩ := List.forall_mem_cons.1 hs
        rw [List.length_cons] at hn
        obtain ⟨n, rfl⟩ : ∃ m, n = m + 1 := ⟨n - 1, by omega⟩
        rw [encodeFrom, if_pos hlow, hbyte, ih n hs (by omega), List.singleton_append]
  rw [encodeString, hencode _ _ (fun b hb => hplain b (hbytes b hb)) (Nat.le_refl _),
    List.length_append, List.length_cons, hlength]
  rfl

/-- A hash that an entry goes on from. -/
def IsLink (hash : Text) : Prop := hash = [] ∨ ∃ text, hash = digest text

theorem isUTF8_link {hash : Text} (h : IsLink hash) : IsUTF8 hash := by
  rcases h with rfl | ⟨text, rfl⟩
  · exact .nil
  · exact isUTF8_digest text

/-- The bytes an entry spends on the hash of the one before it. -/
def linkSize (previousHash : Text) : Nat :=
  fieldsSize (if previousHash = [] then []
    else [(utf8 "previousHash", encodeString previousHash)])

theorem linkSize_digest (text : Text) : linkSize (digest text) = 82 := by
  have hname : (utf8 "previousHash").length = 12 := by decide
  rw [linkSize, if_neg (digest_ne_nil text), fieldsSize_singleton, length_encodeString_digest,
    hname]

theorem linkSize_le {hash : Text} (h : IsLink hash) (text : Text) :
    linkSize hash ≤ linkSize (digest text) := by
  rcases h with rfl | ⟨text', rfl⟩
  · exact Nat.zero_le _
  · rw [linkSize_digest, linkSize_digest]

theorem hashSize_digest (text : Text) :
    fieldsSize [(utf8 "hash", encodeString (digest text))] = 74 := by
  have hname : (utf8 "hash").length = 4 := by decide
  rw [fieldsSize_singleton, length_encodeString_digest, hname]

/-- An entry with a new place in a chain. -/
def Entry.moved (e : Entry) (sequence : Nat) (previousHash hash : Text) : Entry :=
  { e with sequence := sequence, previousHash := previousHash, hash := hash }

/-- An entry moved to an earlier place has a line no longer. -/
theorem length_members_le {e : Entry} {sequence : Nat} {previousHash text : Text} (text' : Text)
    (hsequence : sequence ≤ e.sequence)
    (hprevious : linkSize previousHash ≤ linkSize e.previousHash)
    (hhash : e.hash = digest text) :
    (objectText (e.moved sequence previousHash (digest text')).members).length ≤
      (objectText e.members).length := by
  have hdigits := length_repr_le hsequence
  have hold : fieldsSize e.trailing =
      fieldsSize (if e.payload = [] then [] else [(utf8 "payload", e.normal.payload)]) +
        linkSize e.previousHash := fieldsSize_append _ _
  have hnew : fieldsSize (e.moved sequence previousHash (digest text')).trailing =
      fieldsSize (if e.payload = [] then [] else [(utf8 "payload", e.normal.payload)]) +
        linkSize previousHash := fieldsSize_append _ _
  rw [length_objectText (members_ne_nil _), length_objectText (members_ne_nil _), Entry.members,
    Entry.members, fieldsSize_append, fieldsSize_append, fieldsSize_append, fieldsSize_append, hold,
    hnew]
  simp only [Entry.leading, Entry.moved, fieldsSize, fieldText, List.map_cons, List.map_nil,
    List.sum_cons, List.sum_nil, List.length_cons, List.length_append, length_encodeString_digest,
    hhash]
  omega

/-! ## Linking anew -/

/-- The entry at its place in the new chain. -/
def Entry.placed (e : Entry) (index : Nat) (previousHash : Text) : Entry :=
  e.moved ((index + 1) % 2 ^ 64) previousHash
    (entryHash (e.moved ((index + 1) % 2 ^ 64) previousHash e.hash))

theorem relink_cons (index : Nat) (previousHash : Text) (e : Entry) (es : List Entry) :
    Store.relink index previousHash (e :: es) =
      e.placed index previousHash ::
        Store.relink (index + 1) (e.placed index previousHash).hash es := rfl

theorem hash_placed (e : Entry) (index : Nat) (previousHash : Text) :
    (e.placed index previousHash).hash =
      digest ((e.moved ((index + 1) % 2 ^ 64) previousHash e.hash).hashable.getD []) := rfl

theorem isLink_placed (e : Entry) (index : Nat) (previousHash : Text) :
    IsLink (e.placed index previousHash).hash :=
  .inr ⟨_, hash_placed e index previousHash⟩

theorem chain_relink (es : List Entry) : ∀ (index : Nat) (previousHash : Text),
    Chain (index % 2 ^ 64) previousHash (Store.relink index previousHash es) := by
  induction es with
  | nil => exact fun _ _ => .nil
  | cons e es ih =>
      intro index previousHash
      rw [relink_cons]
      exact .cons (Nat.mod_add_mod index (2 ^ 64) 1).symm rfl rfl
        (ih (index + 1) (e.placed index previousHash).hash)

theorem chain_rebuildChain (es : List Entry) : Chain 0 [] (Store.rebuildChain es) :=
  chain_relink es 0 []

theorem Entry.Readable.moved {e : Entry} (he : e.Readable) {sequence : Nat}
    {previousHash hash : Text} (hsequence : sequence < 2 ^ 64) (hprevious : IsUTF8 previousHash)
    (hhash : IsUTF8 hash) : (e.moved sequence previousHash hash).Readable :=
  { he with sequence := hsequence, previousHash := hprevious, hash := hhash }

theorem Entry.Readable.placed {e : Entry} (he : e.Readable) (index : Nat) {previousHash : Text}
    (hprevious : IsLink previousHash) : (e.placed index previousHash).Readable :=
  he.moved (Nat.mod_lt _ (by decide)) (isUTF8_link hprevious)
    (isUTF8_link (isLink_placed e index previousHash))

/-- What is linked anew are the entries, each at a place. -/
theorem mem_relink {e' : Entry} : ∀ {es : List Entry} {index : Nat} {previousHash : Text},
    IsLink previousHash → e' ∈ Store.relink index previousHash es →
      ∃ e ∈ es, ∃ index previousHash, IsLink previousHash ∧ e' = e.placed index previousHash := by
  intro es
  induction es with
  | nil => exact fun _ h => absurd h List.not_mem_nil
  | cons e es ih =>
      intro index previousHash hlink h
      rw [relink_cons] at h
      rcases List.mem_cons.1 h with rfl | h
      · exact ⟨e, List.mem_cons_self, index, previousHash, hlink, rfl⟩
      · obtain ⟨e₀, hmem, hplaced⟩ := ih (isLink_placed e index previousHash) h
        exact ⟨e₀, List.mem_cons_of_mem _ hmem, hplaced⟩

theorem length_relink (es : List Entry) : ∀ (index : Nat) (previousHash : Text),
    (Store.relink index previousHash es).length = es.length := by
  induction es with
  | nil => exact fun _ _ => rfl
  | cons e es ih =>
      intro index previousHash
      rw [relink_cons, List.length_cons, ih, List.length_cons]

theorem content_relink (es : List Entry) : ∀ (index : Nat) (previousHash : Text),
    (Store.relink index previousHash es).map Entry.content = es.map Entry.content := by
  induction es with
  | nil => exact fun _ _ => rfl
  | cons e es ih =>
      intro index previousHash
      rw [relink_cons, List.map_cons, ih, List.map_cons]
      rfl

theorem content_rebuildChain (es : List Entry) :
    (Store.rebuildChain es).map Entry.content = es.map Entry.content := content_relink es 0 []

variable {es : List Entry}

theorem readable_rebuildChain (h : ∀ e ∈ es, e.Readable ∧ e.schemaVersion = 1) :
    ∀ e ∈ Store.rebuildChain es, e.Readable ∧ e.schemaVersion = 1 := by
  intro e hmem
  obtain ⟨e₀, hmem₀, index, previousHash, hlink, rfl⟩ := mem_relink (.inl rfl) hmem
  exact ⟨(h e₀ hmem₀).1.placed index hlink, (h e₀ hmem₀).2⟩

/-- Where every entry marshals, all of them can be read again. -/
theorem written_rebuildChain (h : ∀ e ∈ es, e.Readable ∧ e.schemaVersion = 1)
    (hmarshal : ∀ e ∈ Store.rebuildChain es, e.marshal ≠ none) :
    ∀ e ∈ Store.rebuildChain es, e.Written := by
  intro e hmem
  obtain ⟨hreadable, hschema⟩ := readable_rebuildChain h e hmem
  exact ⟨hreadable, hschema, writable_of_marshal hreadable (hmarshal e hmem)⟩

theorem normal_rebuildChain (h : ∀ e ∈ es, e.normal = e) :
    ∀ e ∈ Store.rebuildChain es, e.normal = e := by
  intro e hmem
  obtain ⟨e₀, hmem₀, index, previousHash, -, rfl⟩ := mem_relink (.inl rfl) hmem
  show e₀.normal.moved _ _ _ = e₀.moved _ _ _
  rw [h e₀ hmem₀]
  rfl

theorem fits_relink (keep : Entry → Bool) (hes : ∀ e ∈ es, e.Written ∧ e.Fits) :
    ∀ {index sequence : Nat} {newHash oldHash : Text}, Chain sequence oldHash es →
      sequence + es.length < 2 ^ 64 → index ≤ sequence → IsLink newHash →
      linkSize newHash ≤ linkSize oldHash →
      ∀ e ∈ Store.relink index newHash (es.filter keep), e.Fits := by
  induction es with
  | nil => exact fun _ _ _ _ _ _ h => absurd h List.not_mem_nil
  | cons e es ih =>
      intro index sequence newHash oldHash hchain hlong hindex hlink hsize
      obtain ⟨⟨he, hfits⟩, hrest⟩ := List.forall_mem_cons.1 hes
      cases hchain with
      | cons hsequence hprevious hhash hchain =>
          rw [List.length_cons] at hlong
          have hplace : e.sequence = sequence + 1 := by
            rw [hsequence, Nat.mod_eq_of_lt (by omega)]
          have hdigest : e.hash = digest (e.hashable.getD []) := hhash.trans (entryHash_eq e)
          cases hkeep : keep e with
          | false =>
              rw [List.filter_cons_of_neg (by simp [hkeep])]
              refine ih hrest hchain (by omega) (by omega) hlink ?_
              rw [hdigest]
              exact linkSize_le hlink _
          | true =>
              have hindex' : (index + 1) % 2 ^ 64 = index + 1 := Nat.mod_eq_of_lt (by omega)
              have hplaced : (e.placed index newHash).Written :=
                ⟨he.readable.placed index hlink, he.schema, he.writable⟩
              have hlength := length_members_le
                ((e.moved ((index + 1) % 2 ^ 64) newHash e.hash).hashable.getD [])
                (show (index + 1) % 2 ^ 64 ≤ e.sequence by omega) (hprevious ▸ hsize) hdigest
              rw [List.filter_cons_of_pos hkeep, relink_cons]
              refine List.forall_mem_cons.2 ⟨?_, ?_⟩
              · rw [Entry.Fits, line_eq he] at hfits
                rw [Entry.Fits, line_eq hplaced]
                exact (Nat.succ_le_succ hlength).trans hfits
              · refine ih hrest hchain (by omega) (by omega) (isLink_placed e index newHash) ?_
                rw [hdigest]
                exact linkSize_le (isLink_placed e index newHash) _

/-- **Linking anew makes no line longer.** So a journal whose lines are as this
program writes them is left with none that is too long. -/
theorem fits_rebuildChain (keep : Entry → Bool) (hes : ∀ e ∈ es, e.Written ∧ e.Fits)
    (hchain : Chain 0 [] es) (hlong : es.length < 2 ^ 64) :
    ∀ e ∈ Store.rebuildChain (es.filter keep), e.Fits :=
  fits_relink keep hes hchain (by rwa [Nat.zero_add]) (Nat.le_refl 0) (.inl rfl) (Nat.le_refl _)

end RelayLifeline.Journal.Wire
