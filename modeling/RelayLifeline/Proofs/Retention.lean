import RelayLifeline.Proofs.Durability

/-!
# What a compaction keeps

A compaction that is committed keeps the entries of the entities it should, in
their order and with their contents, links them anew, and compacts no more when
it is repeated. The file it leaves is read as what it keeps just if every line
in it fits: the reader takes lines that are laid out differently, and one of
those can grow beyond what it takes when it is written again.
-/

namespace RelayLifeline.Journal.Wire

open Lib.Json

/-- The instant after the first entry. -/
def afterMidnight : Time := { instant := World.midnight + 1 }

namespace Store

/-- The store has a valid journal open: its entries are a chain, of which it has
the tip, and the file is read as them but for the layout of the payloads. -/
structure Mirrors (s : Store) (disk : Disk) : Prop where
  chain : Chain 0 [] s.entries
  readable : ∀ e ∈ s.entries, e.Readable ∧ e.schemaVersion = 1
  tip : (s.sequence, s.lastHash) = tip s.entries
  file : ∃ es, readAndVerify disk.journal = .ok es ∧
    es.map Entry.normal = s.entries.map Entry.normal

/-- Every journal that is opened is one. -/
theorem mirrors_opened {disk disk' : Disk} {sync : Bool} {key : Text} {s : Store}
    (hopen : openWithIntegrity disk sync key = (disk', .ok s)) : s.Mirrors disk' := by
  obtain ⟨hjournal, ⟨err, herror⟩ | ⟨es, hread, hok⟩⟩ := openWithIntegrity_cases disk sync key
  · rw [hopen] at herror
    cases herror
  · rw [hopen] at hok hjournal
    obtain rfl := Except.ok.inj hok
    obtain ⟨hchain, hreadable⟩ := sound_of_ok hread
    rw [readAndVerify_eq_ok, ← hjournal, ← readAndVerify_eq_ok] at hread
    exact ⟨hchain, hreadable, rfl, es, hread, rfl⟩

/-- What a compaction should do. -/
structure Compacts (s : Store) (cutoff : Time) (protectedEntities : List Text)
    (outcome : Outcome Nat) : Prop where
  retained : outcome.store.entries.map Entry.content =
    keepContents (s.entries.map Entry.content) cutoff protectedEntities
  removed : ∀ removed, outcome.result = .ok removed →
    outcome.store.entries.length + removed = s.entries.length
  mirrors : outcome.store.Mirrors outcome.disk
  links : ∀ now entityID eventType payload fault e,
    (outcome.store.append outcome.disk now entityID eventType payload fault).result = .ok e →
      Chain 0 [] (outcome.store.entries ++ [e])
  idempotent : ∀ fault, outcome.store.compact outcome.disk cutoff protectedEntities fault =
    ⟨outcome.disk, outcome.store, .ok 0⟩

variable {s : Store} {disk : Disk} {cutoff : Time} {protectedEntities : List Text}

/-! ## What is kept is kept again -/

theorem keepContents_idem (contents : List Content) (cutoff : Time)
    (protectedEntities : List Text) :
    keepContents (keepContents contents cutoff protectedEntities) cutoff protectedEntities =
      keepContents contents cutoff protectedEntities := by
  rw [keepContents, List.filter_eq_self]
  intro c hc
  rw [keepContents, List.mem_filter, decide_eq_true_eq] at hc
  obtain ⟨-, hprotected | hrecent⟩ := hc
  · exact decide_eq_true (.inl hprotected)
  · obtain ⟨d, hd, hdecide⟩ := List.any_eq_true.1 hrecent
    refine decide_eq_true (.inr (List.any_eq_true.2 ⟨d, ?_, hdecide⟩))
    rw [decide_eq_true_eq] at hdecide
    -- The recent entry that keeps this one keeps itself.
    refine List.mem_filter.2 ⟨hd, decide_eq_true (.inr (List.any_eq_true.2 ⟨d, hd, ?_⟩))⟩
    exact decide_eq_true ⟨hdecide.1, rfl⟩

theorem retained_eq_self (h : s.entries.map Entry.content =
    keepContents (s.entries.map Entry.content) cutoff protectedEntities) :
    s.retained cutoff protectedEntities = s.entries := by
  have hlength := congrArg List.length (s.content_retained cutoff protectedEntities)
  rw [← h, List.length_map, List.length_map] at hlength
  exact List.filter_sublist.eq_of_length hlength

theorem compact_of_retained (h : s.retained cutoff protectedEntities = s.entries)
    (fault : Option Fault) :
    s.compact disk cutoff protectedEntities fault = ⟨disk, s, .ok 0⟩ := by
  rw [compact]
  dsimp only
  rw [h, if_pos (Nat.sub_self _)]

/-- An append that is acknowledged goes on from the chain. -/
theorem chain_append_ok (hchain : Chain 0 [] s.entries)
    (htip : (s.sequence, s.lastHash) = Wire.tip s.entries) {now : Int} {entityID eventType : Text}
    {payload : Option Payload} {fault : Option Fault} {e : Entry}
    (h : (s.append disk now entityID eventType payload fault).result = .ok e) :
    Chain 0 [] (s.entries ++ [e]) := by
  rcases s.append_cases disk now entityID eventType payload fault with
    hrefuses | ⟨p, -, hacknowledges⟩
  · obtain ⟨err, hresult⟩ := hrefuses.result
    cases h.symm.trans hresult
  · obtain rfl := Except.ok.inj (h.symm.trans hacknowledges.result)
    refine chain_concat hchain ?_ ?_ (hash_nextEntry _ _ _ _ _)
    all_goals
      rw [← htip]
      rfl

/-! ## What is compacted -/

/-- A compaction commits, if nothing fails and everything marshals. -/
theorem compact_none
    (hremoved : (s.retained cutoff protectedEntities).length < s.entries.length)
    (hmarshals : ∀ e ∈ rebuildChain (s.retained cutoff protectedEntities), e.marshal ≠ none) :
    (s.compact disk cutoff protectedEntities none).result =
      .ok (s.entries.length - (s.retained cutoff protectedEntities).length) := by
  have hcommit : ¬ ((none : Option Fault).any Fault.precedes = true ∨
      ((rebuildChain (s.retained cutoff protectedEntities)).any fun e => e.marshal.isNone) =
        true) := by
    rw [not_or, Bool.not_eq_true, Bool.not_eq_true, List.any_eq_false]
    refine ⟨rfl, fun e hmem hnone => hmarshals e hmem ?_⟩
    exact Option.isNone_iff_eq_none.1 hnone
  rw [compact]
  dsimp only
  rw [if_neg (Nat.sub_ne_zero_of_lt hremoved), if_neg hcommit]
  obtain ⟨-, ⟨hresult, -⟩ | ⟨hfault, -⟩⟩ := commit_cases _ _ none _ _
  · exact hresult
  · exact absurd rfl hfault

/-- What is left where nothing is removed. -/
theorem compacts_nothing (h : s.Mirrors disk)
    (hall : s.retained cutoff protectedEntities = s.entries) :
    s.Compacts cutoff protectedEntities ⟨disk, s, .ok 0⟩ where
  retained := by rw [← content_retained, hall]
  removed removed hremoved := by
    cases hremoved
    rfl
  mirrors := h
  links _ _ _ _ _ _ hok := chain_append_ok h.chain h.tip hok
  idempotent := compact_of_retained hall

/-- The file that is left is read just if its lines fit. -/
theorem Rewrites.file_iff {kept : List Entry} {removed : Nat} {fault : Option Fault}
    {outcome : Outcome Nat} (h : s.Rewrites disk (rebuildChain kept) removed fault outcome)
    (hreadable : ∀ e ∈ kept, e.Readable ∧ e.schemaVersion = 1) :
    (∃ es, readAndVerify outcome.disk.journal = .ok es ∧
        es.map Entry.normal = outcome.store.entries.map Entry.normal) ↔
      ∀ e ∈ rebuildChain kept, e.Fits := by
  have hwritten := written_rebuildChain hreadable h.marshals
  rw [h.journal, h.entries]
  constructor
  · rintro ⟨es, hread, -⟩ e hmem
    rw [readAndVerify_eq_ok, Option.getD_some, lines_fileText hwritten] at hread
    exact readLines_all hread e.line (List.mem_map_of_mem hmem)
  · intro hfits
    refine ⟨_, (readAndVerify_fileText (chain_rebuildChain kept) hwritten).2 hfits, ?_⟩
    rw [List.map_map]
    exact List.map_congr_left fun e hmem => normal_normal (hwritten e hmem).readable

/-- A new file whose lines fit is as it should be. -/
theorem Rewrites.compacts {fault : Option Fault} {outcome : Outcome Nat} (h : s.Mirrors disk)
    (hrewrites : s.Rewrites disk (rebuildChain (s.retained cutoff protectedEntities))
      (s.entries.length - (s.retained cutoff protectedEntities).length) fault outcome)
    (hfits : ∀ e ∈ rebuildChain (s.retained cutoff protectedEntities), e.Fits) :
    s.Compacts cutoff protectedEntities outcome := by
  have hreadable : ∀ e ∈ s.retained cutoff protectedEntities, e.Readable ∧ e.schemaVersion = 1 :=
    fun e hmem => h.readable e (List.mem_of_mem_filter hmem)
  have hcontent := s.content_retained cutoff protectedEntities
  have hle : (s.retained cutoff protectedEntities).length ≤ s.entries.length :=
    List.length_filter_le _ _
  generalize s.retained cutoff protectedEntities = kept at *
  have hentries := hrewrites.entries
  have hkept : outcome.store.entries.map Entry.content =
      keepContents (s.entries.map Entry.content) cutoff protectedEntities := by
    rw [hentries, content_rebuildChain, hcontent]
  have hchain : Chain 0 [] outcome.store.entries := hentries ▸ chain_rebuildChain kept
  have htip : (outcome.store.sequence, outcome.store.lastHash) = Wire.tip outcome.store.entries :=
    hentries ▸ hrewrites.tip
  refine ⟨hkept, ?_, ⟨hchain, ?_, htip, (hrewrites.file_iff hreadable).2 hfits⟩, ?_, ?_⟩
  · intro removed hremoved
    have hlength : outcome.store.entries.length = kept.length := by
      rw [hentries]
      exact length_relink kept 0 []
    rcases hrewrites.result with ⟨hresult, -⟩ | ⟨-, hresult, -⟩
    · have heq := Except.ok.inj (hresult.symm.trans hremoved)
      omega
    · cases hresult.symm.trans hremoved
  · rw [hentries]
    exact readable_rebuildChain hreadable
  · exact fun _ _ _ _ _ _ hok => chain_append_ok hchain htip hok
  · refine compact_of_retained (retained_eq_self ?_)
    rw [hkept, keepContents_idem]

/-- **A compaction that is committed does what it should, just if the lines it
writes can be read.** -/
theorem compacts_iff {fault : Option Fault} (h : s.Mirrors disk)
    (hcommitted : (s.compact disk cutoff protectedEntities fault).result ≠
      .error .uncommitted) :
    s.Compacts cutoff protectedEntities (s.compact disk cutoff protectedEntities fault) ↔
      (s.retained cutoff protectedEntities ≠ s.entries →
        ∀ e ∈ rebuildChain (s.retained cutoff protectedEntities), e.Fits) := by
  rcases s.compact_cases disk cutoff protectedEntities fault with
    ⟨-, -, ⟨-, hall⟩ | hresult⟩ | ⟨hsome, hrewrites⟩
  · rw [compact_of_retained hall]
    exact ⟨fun _ hsome => absurd hall hsome, fun _ => compacts_nothing h hall⟩
  · exact absurd hresult hcommitted
  · have hreadable : ∀ e ∈ s.retained cutoff protectedEntities, e.Readable ∧ e.schemaVersion = 1 :=
      fun e hmem => h.readable e (List.mem_of_mem_filter hmem)
    constructor
    · exact fun hcompacts _ => (hrewrites.file_iff hreadable).1 hcompacts.mirrors.file
    · exact fun hfits => hrewrites.compacts h (hfits hsome)

/-- Where every line is as this program writes it, that is so. -/
theorem compacts_of_written {fault : Option Fault} (h : s.Mirrors disk)
    (hwritten : ∀ e ∈ s.entries, e.Written ∧ e.Fits) (hlong : s.entries.length < 2 ^ 64)
    (hcommitted : (s.compact disk cutoff protectedEntities fault).result ≠
      .error .uncommitted) :
    s.Compacts cutoff protectedEntities (s.compact disk cutoff protectedEntities fault) := by
  rcases s.compact_cases disk cutoff protectedEntities fault with
    ⟨-, -, ⟨-, hall⟩ | hresult⟩ | ⟨-, hrewrites⟩
  · rw [compact_of_retained hall]
    exact compacts_nothing h hall
  · exact absurd hresult hcommitted
  · exact hrewrites.compacts h (fits_rebuildChain _ hwritten h.chain hlong)

end Store

/-! ## A line that grows -/

/-- The line of an entry with its payload laid out as it is. -/
def Entry.plainLine (e : Entry) : Text :=
  objectText (e.leading ++ ([(utf8 "payload", e.payload),
    (utf8 "previousHash", encodeString e.previousHash)] ++ [(utf8 "hash", encodeString e.hash)]))

theorem unmarshal_plainLine {e : Entry} (he : e.Written) {d : Document} (hd : d.WellFormed)
    (hdepth : d.depth < maxNestingDepth) (htext : d.text = e.payload)
    (hprintable : Printable e.payload) :
    unmarshal e.plainLine = some e ∧ Printable e.plainLine := by
  have hpayload : IsMember (utf8 "payload", e.payload) :=
    htext ▸ isMember_document d (by decide) (by decide) hd hdepth (htext ▸ hprintable)
  have hprevious : IsMember (utf8 "previousHash", encodeString e.previousHash) :=
    isMember_string (by decide) (by decide) he.readable.previousHash
  have hhash : IsMember (utf8 "hash", encodeString e.hash) :=
    isMember_string (by decide) (by decide) he.readable.hash
  have hall : ∀ field ∈ e.leading ++ ([(utf8 "payload", e.payload),
      (utf8 "previousHash", encodeString e.previousHash)] ++
        [(utf8 "hash", encodeString e.hash)]), IsMember field := by
    simp only [List.forall_mem_append, List.forall_mem_cons]
    exact ⟨isMember_leading he.readable he.schema, ⟨hpayload, hprevious, fun _ h =>
      absurd h List.not_mem_nil⟩, hhash, fun _ h => absurd h List.not_mem_nil⟩
  have hne : e.leading ++ ([(utf8 "payload", e.payload),
      (utf8 "previousHash", encodeString e.previousHash)] ++
        [(utf8 "hash", encodeString e.hash)]) ≠ [] :=
    List.append_ne_nil_of_right_ne_nil _ (List.cons_ne_nil _ _)
  have hread := unmarshalFields_members hne hall isSpaces_nil
  rw [List.append_nil] at hread
  refine ⟨?_, printable_members hall⟩
  rw [Entry.plainLine, unmarshal, hread, Option.bind_some, List.foldlM_append,
    foldlM_leading he.readable he.schema he.writable, Option.bind_eq_bind, Option.bind_some]
  simp only [List.cons_append, List.nil_append, List.foldlM_cons, List.foldlM_nil, set_payload,
    set_previousHash, set_hash, unmarshalText_encodeString he.readable.previousHash,
    unmarshalText_encodeString he.readable.hash, Option.map_some, Option.getD_some,
    Option.bind_eq_bind, Option.bind_some]
  rfl

/-- So many angle brackets in a string. -/
def brackets (n : Nat) : Document := .token (.string (List.replicate n 0x3c))

theorem wellFormed_brackets (n : Nat) : (brackets n).WellFormed := by
  show IsString (List.replicate n 0x3c)
  induction n with
  | zero => exact .nil
  | succ n ih => exact .char (by decide) (by decide) (by decide) ih

/-- Each takes six bytes when it is written again. -/
theorem length_compact_brackets (n : Nat) : (brackets n).compact.text.length = 6 * n + 2 := by
  have hstring : ∀ n, (compactString (List.replicate n 0x3c)).length = 6 * n := by
    intro n
    induction n with
    | zero => rfl
    | succ n ih =>
        rw [compactString, List.replicate_succ, compactFrom, if_pos (by decide),
          List.length_append, show Place.inside.next 0x3c = .inside from by decide]
        rw [compactString] at ih
        rw [ih]
        show 6 + 6 * n = _
        omega
  show (quoteMark :: (compactString (List.replicate n 0x3c) ++ [quoteMark])).length = _
  rw [List.length_cons, List.length_append, hstring]
  rfl

/-- A later entry, of another entity, with so many angle brackets for its
payload. -/
def Entry.brackets (n : Nat) : Entry :=
  let e : Entry :=
    { schemaVersion := 1, sequence := 2, time := afterMidnight, entityID := utf8 "request-2",
      type := utf8 "start", payload := (Wire.brackets n).text,
      previousHash := World.first.hash }
  { e with hash := entryHash e }

section

variable (n : Nat)

theorem hash_brackets : (Entry.brackets n).hash = entryHash (Entry.brackets n) := rfl

theorem written_brackets : (Entry.brackets n).Written where
  readable :=
    { sequence := by show 2 < 2 ^ 64; decide
      minutes := rfl
      bare := rfl
      entityID := isUTF8_of_all (s := utf8 "request-2") (by decide)
      type := isUTF8_of_all (s := utf8 "start") (by decide)
      payload := .inr ⟨Wire.brackets n, wellFormed_brackets n, by show 0 < 10000; decide, rfl⟩
      previousHash := World.first_written.1.readable.hash
      hash := hash_brackets n ▸ isUTF8_digest _ }
  schema := rfl
  writable := by show Time.Writable afterMidnight; decide

theorem fieldsSize_leading_brackets : fieldsSize (Entry.brackets n).leading ≤ 200 := by
  show fieldsSize (Entry.brackets 0).leading ≤ 200
  decide +kernel

/-- The line may be short enough with its payload as it is. -/
theorem length_plainLine_brackets (hn : n ≤ 16000000) :
    (Entry.brackets n).plainLine.length + 1 ≤ maxLine := by
  have hleading := fieldsSize_leading_brackets n
  have hpayload : fieldsSize [(utf8 "payload", (Entry.brackets n).payload)] = n + 13 := by
    have hname : (utf8 "payload").length = 7 := by decide
    have hlength : (Entry.brackets n).payload.length = n + 2 := by
      show (quoteMark :: (List.replicate n 0x3c ++ [quoteMark])).length = _
      rw [List.length_cons, List.length_append, List.length_replicate]
      rfl
    rw [fieldsSize_singleton, hname, hlength]
    omega
  have hprevious : fieldsSize [(utf8 "previousHash",
      encodeString (Entry.brackets n).previousHash)] = 82 := by
    have hname : (utf8 "previousHash").length = 12 := by decide
    rw [show (Entry.brackets n).previousHash = World.first.hash from rfl, World.first_hash,
      fieldsSize_singleton, length_encodeString_digest, hname]
  have hhash : fieldsSize [(utf8 "hash", encodeString (Entry.brackets n).hash)] = 74 := by
    rw [hash_brackets, entryHash_eq, hashSize_digest]
  have hne : (Entry.brackets n).leading ++ ([(utf8 "payload", (Entry.brackets n).payload)] ++
      [(utf8 "previousHash", encodeString (Entry.brackets n).previousHash)] ++
        [(utf8 "hash", encodeString (Entry.brackets n).hash)]) ≠ [] :=
    List.append_ne_nil_of_right_ne_nil _ (List.cons_ne_nil _ _)
  have hsize := length_objectText hne
  rw [fieldsSize_append, fieldsSize_append, fieldsSize_append, hpayload, hprevious, hhash] at hsize
  rw [Entry.plainLine, maxLine]
  exact (congrArg (· + 1) hsize).le.trans (by omega)

/-- And is too long with it laid out again. -/
theorem not_fits_brackets (hn : 3000000 ≤ n) {index : Nat} {previousHash : Text}
    (hlink : IsLink previousHash) : ¬ ((Entry.brackets n).placed index previousHash).Fits := by
  have hwritten : ((Entry.brackets n).placed index previousHash).Written :=
    ⟨(written_brackets n).readable.placed index hlink, rfl, (written_brackets n).writable⟩
  have hpayload : ((Entry.brackets n).placed index previousHash).normal.payload.length =
      6 * n + 2 := by
    show (compactFrom .outside 0 (Wire.brackets n).text).length = _
    rw [Document.compactFrom_text (wellFormed_brackets n), length_compact_brackets]
  have hne : ((Entry.brackets n).placed index previousHash).payload ≠ [] := List.cons_ne_nil _ _
  rw [Entry.Fits, line_eq hwritten, length_objectText (members_ne_nil _), Entry.members,
    fieldsSize_append, fieldsSize_append, Entry.trailing, if_neg hne, fieldsSize_append,
    fieldsSize_singleton, hpayload, maxLine]
  omega

/-- A journal of the two. -/
def bracketsFile : Text :=
  World.first.line ++ newline :: ((Entry.brackets n).plainLine ++ [newline])

/-- What an open makes of it. -/
def bracketsStore : Store := .ofEntries [World.first, Entry.brackets n] false []

theorem readAndVerify_brackets (hn : n ≤ 16000000) :
    readAndVerify (some (bracketsFile n)) = .ok [World.first, Entry.brackets n] := by
  have hdepth : (Wire.brackets n).depth < maxNestingDepth := by show 0 < 10000; decide
  have hplain : Printable (Entry.brackets n).payload := by
    refine List.forall_mem_cons.2 ⟨by decide, List.forall_mem_append.2 ⟨fun c hc => ?_, ?_⟩⟩
    · rw [List.eq_of_mem_replicate hc]
      decide
    · exact List.forall_mem_singleton.2 (by decide)
  obtain ⟨hread, hprintable⟩ :=
    unmarshal_plainLine (written_brackets n) (wellFormed_brackets n) hdepth rfl hplain
  have htaken : Taken World.first.sequence World.first.hash (Entry.brackets n).plainLine
      (Entry.brackets n) := by
    refine ⟨length_plainLine_brackets n hn, ?_, rfl, rfl, rfl, hash_brackets n⟩
    rw [dropCR_printable hprintable, hread]
  rw [readAndVerify_eq_ok, Option.getD_some, bracketsFile,
    lines_append (newline_notMem World.first_written.1.line.2.2.1),
    lines_append (newline_notMem hprintable) [], World.first_taken.readLines, htaken.readLines]
  rfl

theorem fits_brackets_one : ((Entry.brackets 1).placed 0 []).Fits := by
  have hwritten : ((Entry.brackets 1).placed 0 []).Written :=
    ⟨(written_brackets 1).readable.placed 0 (.inl rfl), rfl, (written_brackets 1).writable⟩
  have hleading : fieldsSize ((Entry.brackets 1).placed 0 []).leading ≤ 200 := by
    decide +kernel
  have htrailing : fieldsSize ((Entry.brackets 1).placed 0 []).trailing ≤ 200 := by
    decide +kernel
  rw [Entry.Fits, line_eq hwritten, length_objectText (members_ne_nil _), Entry.members,
    fieldsSize_append, fieldsSize_append, hash_placed, hashSize_digest, maxLine]
  omega

/-- One entry goes, and the line of the other is short enough. -/
theorem compacts_iff_brackets :
    (bracketsStore 1).Compacts afterMidnight [] ((bracketsStore 1).compact
      { journal := some (bracketsFile 1) } afterMidnight [] none) := by
  have hkept : (bracketsStore 1).retained afterMidnight [] = [Entry.brackets 1] := rfl
  have hmarshals : ∀ e ∈ Store.rebuildChain ((bracketsStore 1).retained afterMidnight []),
      e.marshal ≠ none := by
    rw [hkept]
    exact List.forall_mem_singleton.2 (by decide +kernel)
  have hopened : (bracketsStore 1).Mirrors { journal := some (bracketsFile 1) } :=
    Store.mirrors_opened (World.open_keyless (readAndVerify_brackets 1 (by decide)))
  refine (Store.compacts_iff hopened ?_).mpr fun _ => ?_
  · rw [Store.compact_none (by rw [hkept]; decide) hmarshals]
    exact fun h => nomatch h
  · rw [hkept]
    exact List.forall_mem_singleton.2 fits_brackets_one

/-- The line of the entry that is kept is written anew, and cannot be read. -/
theorem not_compacts_brackets :
    openWithIntegrity { journal := some (bracketsFile 4000000) } false [] =
        ({ journal := some (bracketsFile 4000000) }, .ok (bracketsStore 4000000)) ∧
      ((bracketsStore 4000000).compact { journal := some (bracketsFile 4000000) } afterMidnight []
        none).result = .ok 1 ∧
      ¬ (bracketsStore 4000000).Compacts afterMidnight [] ((bracketsStore 4000000).compact
        { journal := some (bracketsFile 4000000) } afterMidnight [] none) := by
  have hread := readAndVerify_brackets 4000000 (by decide)
  have hlong := @not_fits_brackets 4000000 (by decide)
  generalize (4000000 : Nat) = n at *
  have hopen := World.open_keyless hread
  have hkept : (bracketsStore n).retained afterMidnight [] = [Entry.brackets n] := rfl
  have hrebuilt : Store.rebuildChain [Entry.brackets n] = [(Entry.brackets n).placed 0 []] := rfl
  have hwritten : ((Entry.brackets n).placed 0 []).Written :=
    ⟨(written_brackets n).readable.placed 0 (.inl rfl), rfl, (written_brackets n).writable⟩
  have hmarshals : ∀ e ∈ Store.rebuildChain ((bracketsStore n).retained afterMidnight []),
      e.marshal ≠ none := by
    rw [hkept, hrebuilt, List.forall_mem_singleton]
    exact hwritten.line.1 ▸ Option.some_ne_none _
  have hremoved : ((bracketsStore n).retained afterMidnight []).length <
      (bracketsStore n).entries.length := by
    rw [hkept]
    exact Nat.lt_succ_self 1
  have hresult : ((bracketsStore n).compact { journal := some (bracketsFile n) } afterMidnight []
      none).result = .ok 1 := by
    rw [Store.compact_none hremoved hmarshals, hkept]
    rfl
  refine ⟨hopen, hresult, fun hcompacts => ?_⟩
  rcases (bracketsStore n).compact_cases { journal := some (bracketsFile n) } afterMidnight [] none with
    ⟨-, -, ⟨hnothing, -⟩ | huncommitted⟩ | ⟨-, hrewrites⟩
  · cases hresult.symm.trans hnothing
  · cases hresult.symm.trans huncommitted
  · rw [hkept] at hrewrites
    have hreadable : ∀ e ∈ [Entry.brackets n], e.Readable ∧ e.schemaVersion = 1 :=
      List.forall_mem_singleton.2 ⟨(written_brackets n).readable, rfl⟩
    have hfits := (hrewrites.file_iff hreadable).1 hcompacts.mirrors.file
    rw [hrebuilt, List.forall_mem_singleton] at hfits
    exact hlong (.inl rfl) hfits

end

end RelayLifeline.Journal.Wire
