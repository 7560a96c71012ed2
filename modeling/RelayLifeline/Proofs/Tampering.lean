import RelayLifeline.Proofs.Relink

/-!
# What the last hash of a journal says about it

Going back from the end, a hash that stands for one text only leaves one entry,
and that one the hash before it. But `entryHash` hashes nothing for an entry that
does not marshal, and a time can be read that cannot be written: of such an entry
the hash says nothing, and another one can stand in its place.
-/

namespace RelayLifeline.Journal.Wire

open Lib Lib.Json

/-! ## Evidence -/

/-- The texts that were hashed for the entries. -/
def hashed (es : List Entry) : List Text := es.map fun e => e.hashable.getD []

/-- No two of them have one digest. -/
def CollisionFree (es : List Entry) : Prop :=
  ∀ a ∈ hashed es, ∀ b ∈ hashed es, digest a = digest b → a = b

/-- Nobody has made up the code of the anchor: the message it is for is that of
these entries. -/
def Unforged (key data : Text) (es : List Entry) : Prop :=
  ∀ anchor, unmarshalAnchor data = some anchor →
    anchor.mac = anchorMAC key anchor.schemaVersion anchor.sequence anchor.hash →
      anchorMessage anchor.schemaVersion anchor.sequence anchor.hash =
        anchorMessage currentSchemaVersion (tip es).1 (tip es).2

/-- A journal that ends as this one does is this one, and so is one that is
accepted with its anchor. -/
structure Evident (es : List Entry) : Prop where
  ends : ∀ journal es', readAndVerify journal = .ok es' → tip es' = tip es →
    CollisionFree (es ++ es') → es'.map Entry.normal = es.map Entry.normal
  anchored : ∀ key journal data es', key ≠ [] →
    verifyWithIntegrity { journal, anchor := some data } key = .ok es' →
      Unforged key data es → CollisionFree (es ++ es') →
        es'.map Entry.normal = es.map Entry.normal

theorem CollisionFree.mono {es es' : List Entry} (h : CollisionFree es') (hsub : es ⊆ es') :
    CollisionFree es := fun a ha b hb =>
  h a (List.map_subset _ hsub ha) b (List.map_subset _ hsub hb)

/-! ## Back from the end -/

variable {es es' : List Entry}

/-- Entries of one hash are one entry, if that can be written. -/
theorem normal_of_hash {e e' : Entry} (he : e.Written)
    (he' : e'.Readable ∧ e'.schemaVersion = 1) (hhash : e.hash = entryHash e)
    (hhash' : e'.hash = entryHash e') (heq : e'.hash = e.hash)
    (hfree : digest (e'.hashable.getD []) = digest (e.hashable.getD []) →
      e'.hashable.getD [] = e.hashable.getD []) : e'.normal = e.normal := by
  obtain ⟨text, htext⟩ := Option.isSome_iff_exists.1
    ((hashable_isSome he.readable).2 he.writable)
  have hsame : e'.hashable.getD [] = text := by
    rw [hhash, hhash', entryHash_eq, entryHash_eq] at heq
    rw [hfree heq, htext, Option.getD_some]
  have htext' : e'.hashable = some text := by
    cases hnone : e'.hashable with
    | none =>
        rw [hnone] at hsame
        exact absurd hsame.symm (hashable_ne_nil htext)
    | some text' => rw [hnone] at hsame; exact congrArg some hsame
  have hread := unmarshal_hashable he.readable he.schema htext
  rw [unmarshal_hashable he'.1 he'.2 htext', Option.some.injEq] at hread
  calc e'.normal = { e'.normal with hash := e'.hash } := rfl
    _ = { ({ e'.normal with hash := [] } : Entry) with hash := e'.hash } := rfl
    _ = { ({ e.normal with hash := [] } : Entry) with hash := e.hash } := by rw [hread, heq]
    _ = e.normal := rfl

theorem tip_ne_nil {e : Entry} (h : Chain 0 [] (es ++ [e])) : (tip (es ++ [e])).2 ≠ [] := by
  obtain ⟨-, h⟩ := chain_append.1 h
  cases h with
  | cons _ _ hhash _ =>
      rw [tip_append, hhash, entryHash_eq]
      exact digest_ne_nil _

/-- **A chain of entries that can be written is the only one that ends as it
does.** The induction goes back from the end. -/
theorem normal_of_tip (hchain : Chain 0 [] es) (hes : ∀ e ∈ es, e.Written)
    (hchain' : Chain 0 [] es') (hes' : ∀ e ∈ es', e.Readable ∧ e.schemaVersion = 1)
    (htip : tip es' = tip es) (hfree : CollisionFree (es ++ es')) :
    es'.map Entry.normal = es.map Entry.normal := by
  induction es using List.reverseRecOn generalizing es' with
  | nil =>
      rcases List.eq_nil_or_concat es' with rfl | ⟨es', e', rfl⟩
      · rfl
      · rw [List.concat_eq_append] at *
        exact absurd (congrArg Prod.snd htip) (tip_ne_nil hchain')
  | append_singleton es e ih =>
      rcases List.eq_nil_or_concat es' with rfl | ⟨es', e', rfl⟩
      · exact absurd (congrArg Prod.snd htip).symm (tip_ne_nil hchain)
      · rw [List.concat_eq_append] at *
        obtain ⟨hes, he⟩ := List.forall_mem_append.1 hes
        obtain ⟨hes', he'⟩ := List.forall_mem_append.1 hes'
        obtain ⟨hchain, hlast⟩ := chain_append.1 hchain
        obtain ⟨hchain', hlast'⟩ := chain_append.1 hchain'
        rw [tip_append, tip_append, Prod.mk.injEq] at htip
        obtain ⟨hsequence, hhash⟩ := htip
        rw [← tip_eq] at hlast hlast'
        cases hlast with
        | cons hseq hprev hown _ =>
          cases hlast' with
          | cons hseq' hprev' hown' _ =>
            have hnormal : e'.normal = e.normal := by
              refine normal_of_hash (he e (List.mem_singleton_self e))
                (he' e' (List.mem_singleton_self e')) hown hown' hhash ?_
              exact hfree _ (List.mem_map_of_mem (by simp)) _ (List.mem_map_of_mem (by simp))
            have hprevious : e'.previousHash = e.previousHash := by
              show e'.normal.previousHash = e.normal.previousHash
              rw [hnormal]
            have hlt := tip_lt fun e hmem => ⟨(hes e hmem).readable, (hes e hmem).schema⟩
            have hlt' := tip_lt hes'
            have hbefore : tip es' = tip es := by
              refine Prod.ext ?_ (hprev'.symm.trans (hprevious.trans hprev))
              omega
            have hrest := ih hchain hes hchain' hes' hbefore
              (hfree.mono (by simp [List.subset_def]; tauto))
            rw [List.map_append, List.map_append, hrest, List.map_singleton, List.map_singleton,
              hnormal]

/-! ## The anchor -/

theorem any_iff {α : Type} {x : Option α} {p : α → Bool} :
    x.any p = true ↔ ∃ a, x = some a ∧ p a = true := by
  cases x with
  | none => simp
  | some a => simp

/-- An anchor that is accepted is read as one for where the journal ends. -/
theorem verifyAnchorData_iff {data key : Text} {sequence : Nat} {hash : Text} :
    verifyAnchorData data key sequence hash = true ↔ ∃ anchor, unmarshalAnchor data = some anchor ∧
      anchor.schemaVersion = (currentSchemaVersion : Int) ∧ anchor.sequence = sequence ∧
        anchor.hash = hash ∧
          anchor.mac = anchorMAC key anchor.schemaVersion anchor.sequence anchor.hash := by
  rw [verifyAnchorData, any_iff]
  simp only [decide_eq_true_eq]

theorem verifyWithIntegrity_ok {journal : Option Text} {data key : Text} (hkey : key ≠ [])
    (h : verifyWithIntegrity { journal, anchor := some data } key = .ok es) :
    readAndVerify journal = .ok es ∧ verifyAnchorData data key (tip es).1 (tip es).2 = true := by
  rw [verifyWithIntegrity] at h
  split at h
  next => cases h
  next es' hread =>
    rw [if_neg hkey] at h
    split at h
    next hverify =>
      obtain rfl := Except.ok.inj h
      exact ⟨hread, hverify⟩
    next => cases h

theorem repr_inj {m n : Nat} (h : utf8 m.repr = utf8 n.repr) : m = n := by
  rw [← (decimal_repr m).value, ← (decimal_repr n).value, h]

/-- The message says where the journal ends: no digit is a colon. -/
theorem anchorMessage_inj {schema : Int} {sequence sequence' : Nat} {hash hash' : Text}
    (h : anchorMessage schema sequence hash = anchorMessage schema sequence' hash') :
    sequence = sequence' ∧ hash = hash' := by
  have hdigits : ∀ (n : Nat) (rest : Text),
      (utf8 n.repr ++ colon :: rest).takeWhile isDigit = utf8 n.repr := by
    intro n rest
    rw [List.takeWhile_append_of_pos (List.all_eq_true.1 (decimal_repr n).digits),
      List.takeWhile_cons_of_neg (by decide), List.append_nil]
  rw [anchorMessage, anchorMessage, List.append_cancel_left_eq, List.cons.injEq] at h
  have hrepr := congrArg (List.takeWhile isDigit) h.2
  rw [hdigits, hdigits] at hrepr
  have hrest := h.2
  rw [hrepr, List.append_cancel_left_eq, List.cons.injEq] at hrest
  exact ⟨repr_inj hrepr, hrest.2⟩

/-- Where every entry can be written, the last hash and the anchor are evidence
of all of them. -/
theorem evident_of_writable (hchain : Chain 0 [] es) (hes : ∀ e ∈ es, e.Written) : Evident es := by
  have hends : ∀ journal es', readAndVerify journal = .ok es' → tip es' = tip es →
      CollisionFree (es ++ es') → es'.map Entry.normal = es.map Entry.normal := by
    intro journal es' hread htip hfree
    obtain ⟨hchain', hes'⟩ := sound_of_ok hread
    exact normal_of_tip hchain hes hchain' hes' htip hfree
  refine ⟨hends, ?_⟩
  intro key journal data es' hkey haccepted hunforged hfree
  obtain ⟨hread, hverify⟩ := verifyWithIntegrity_ok hkey haccepted
  obtain ⟨anchor, hanchor, hschema, hsequence, hhash, hmac⟩ := verifyAnchorData_iff.1 hverify
  have hmessage := hunforged anchor hanchor hmac
  rw [hschema] at hmessage
  obtain ⟨hsequence', hhash'⟩ := anchorMessage_inj hmessage
  exact hends journal es' hread
    (Prod.ext (hsequence.symm.trans hsequence') (hhash.symm.trans hhash')) hfree

/-! ## An entry that cannot be written -/

/-- The hash of an entry that does not marshal is that of nothing. -/
theorem entryHash_unwritable {e : Entry} (he : e.Readable) (h : ¬ e.time.Writable) :
    e.hashable.getD [] = [] ∧ entryHash e = digest [] := by
  have hnone : e.hashable = none := by
    rw [← Option.not_isSome_iff_eq_none, hashable_isSome he]
    exact h
  rw [entryHash_eq, hnone]
  exact ⟨rfl, rfl⟩

/-- A zone of 24 hours is read, and is not written. -/
def farTime : Text := (Token.string (utf8 "0001-01-02T00:00:00+24:00")).text

/-- An entry with a time in it. -/
def Entry.far (sequence : Nat) (previousHash entityID : Text) : Entry :=
  { schemaVersion := 1, sequence, time := { instant := 0, offset := 86400 }, entityID, previousHash
    hash := digest [] }

/-- A line that is read as the entry. -/
def farLine (sequence : Nat) (previousHash entityID : Text) : Text :=
  objectText [(utf8 "schemaVersion", utf8 (1 : Nat).repr), (utf8 "sequence", utf8 sequence.repr),
    (utf8 "time", farTime), (utf8 "entityId", encodeString entityID),
    (utf8 "previousHash", encodeString previousHash), (utf8 "hash", encodeString (digest []))]

theorem readable_far {sequence : Nat} {previousHash entityID : Text} (hsequence : sequence < 2 ^ 64)
    (hprevious : IsUTF8 previousHash) (hid : IsUTF8 entityID) :
    (Entry.far sequence previousHash entityID).Readable where
  sequence := hsequence
  minutes := rfl
  bare := rfl
  entityID := hid
  type := .nil
  payload := .inl rfl
  previousHash := hprevious
  hash := isUTF8_digest []

theorem not_writable_far (sequence : Nat) (previousHash entityID : Text) :
    ¬ (Entry.far sequence previousHash entityID).time.Writable := by
  show ¬ Time.Writable { instant := 0, offset := 86400 }
  decide

theorem unmarshal_farTime : Time.unmarshalJSON Time.parseLayout farTime =
    some (some { instant := 0, offset := 86400 }) := by
  decide +kernel

theorem unmarshal_farLine {sequence : Nat} {previousHash entityID : Text}
    (hsequence : sequence < 2 ^ 64) (hprevious : IsUTF8 previousHash) (hid : IsUTF8 entityID) :
    unmarshal (farLine sequence previousHash entityID) =
        some (Entry.far sequence previousHash entityID) ∧
      Printable (farLine sequence previousHash entityID) := by
  have hhash : IsUTF8 (digest []) := isUTF8_digest []
  have hall : ∀ field ∈ [(utf8 "schemaVersion", utf8 (1 : Nat).repr),
      (utf8 "sequence", utf8 sequence.repr), (utf8 "time", farTime),
      (utf8 "entityId", encodeString entityID), (utf8 "previousHash", encodeString previousHash),
      (utf8 "hash", encodeString (digest []))], IsMember field := by
    simp only [List.forall_mem_cons]
    exact ⟨isMember_token (.number (utf8 (1 : Nat).repr)) (by decide) (by decide) (isNumber_repr 1),
      isMember_token (.number (utf8 sequence.repr)) (by decide) (by decide) (isNumber_repr _),
      isMember_token (.string (utf8 "0001-01-02T00:00:00+24:00")) (by decide) (by decide)
        (isString_of_plain (List.all_iff_forall_prop.1 (by decide))),
      isMember_string (by decide) (by decide) hid,
      isMember_string (by decide) (by decide) hprevious,
      isMember_string (by decide) (by decide) hhash, fun _ h => absurd h List.not_mem_nil⟩
  have hschema : unmarshalInt (utf8 (1 : Nat).repr) = some (some 1) := by decide
  have hread := unmarshalFields_members (List.cons_ne_nil _ _) hall isSpaces_nil
  rw [List.append_nil] at hread
  refine ⟨?_, printable_members hall⟩
  rw [unmarshal, farLine, hread, Option.bind_some]
  simp only [List.foldlM_cons, List.foldlM_nil, set_schemaVersion, set_sequence, set_time,
    set_entityID, set_previousHash, set_hash, hschema, unmarshalUint_repr hsequence,
    unmarshal_farTime, unmarshalText_encodeString hid, unmarshalText_encodeString hprevious,
    unmarshalText_encodeString hhash, Option.map_some, Option.getD_some, Option.bind_eq_bind,
    Option.bind_some]
  rfl

theorem length_encodeString_link {hash : Text} (h : IsLink hash) :
    (encodeString hash).length ≤ 66 := by
  rcases h with rfl | ⟨text, rfl⟩
  · decide
  · exact (length_encodeString_digest text).le

theorem farLine_fits {sequence : Nat} {previousHash entityID : Text} (hsequence : sequence < 2 ^ 64)
    (hlink : IsLink previousHash) (hid : (encodeString entityID).length ≤ 100) :
    (farLine sequence previousHash entityID).length + 1 ≤ maxLine := by
  have hnumber := length_repr_le hsequence.le
  have hmost : (utf8 (2 ^ 64 : Nat).repr).length = 20 := by decide
  have hprevious := length_encodeString_link hlink
  have hnames : (utf8 "schemaVersion").length = 13 ∧ (utf8 "sequence").length = 8 ∧
      (utf8 "time").length = 4 ∧ (utf8 "entityId").length = 8 ∧
        (utf8 "previousHash").length = 12 ∧ (utf8 "hash").length = 4 := by decide
  have hconstants : (utf8 (1 : Nat).repr).length = 1 ∧ farTime.length = 27 := by decide
  obtain ⟨h₁, h₂, h₃, h₄, h₅, h₆⟩ := hnames
  rw [farLine, length_objectText (List.cons_ne_nil _ _), fieldsSize_cons, fieldsSize_cons,
    fieldsSize_cons, fieldsSize_cons, fieldsSize_cons, hashSize_digest, h₁, h₂, h₃, h₄, h₅,
    hconstants.1, hconstants.2, maxLine]
  omega

/-! ## One entry for another -/

/-- An entry can stand for another of the same place and hash: what follows does
not tell them apart. -/
theorem readLines_replace {line : Text} {e e' : Entry} {post : List Entry}
    (htaken : ∀ {sequence : Nat} {previousHash l : Text}, Taken sequence previousHash l e →
      Taken sequence previousHash line e')
    (hsequence : e'.sequence = e.sequence) (hhash : e'.hash = e.hash) {pre : List Entry} :
    ∀ {ls : List Text} {sequence : Nat} {previousHash : Text},
      readLines sequence previousHash ls = (pre ++ e :: post, none) →
        ∃ ls', (∀ l ∈ ls', l ∈ ls ∨ l = line) ∧
          readLines sequence previousHash ls' = (pre ++ e' :: post, none) := by
  induction pre with
  | nil =>
      intro ls sequence previousHash h
      cases ls with
      | nil => cases h
      | cons l rest =>
          obtain ⟨_, _, heq, hl, hrest⟩ := readLines_cons_none h
          cases heq
          refine ⟨line :: rest, ?_, ?_⟩
          · exact List.forall_mem_cons.2 ⟨.inr rfl, fun l hl => .inl (List.mem_cons_of_mem _ hl)⟩
          · rw [(htaken hl).readLines, hsequence, hhash, hrest]
            rfl
  | cons first pre ih =>
      intro ls sequence previousHash h
      cases ls with
      | nil => cases h
      | cons l rest =>
          obtain ⟨_, _, heq, hl, hrest⟩ := readLines_cons_none h
          cases heq
          obtain ⟨ls', hmem, hread⟩ := ih hrest
          refine ⟨l :: ls', ?_, by rw [hl.readLines, hread]; rfl⟩
          refine List.forall_mem_cons.2 ⟨.inl List.mem_cons_self, fun l hl => ?_⟩
          rcases hmem l hl with hold | hnew
          · exact .inl (List.mem_cons_of_mem _ hold)
          · exact .inr hnew

theorem newline_notMem_lines : ∀ {file : Text}, ∀ l ∈ lines file, newline ∉ l := by
  intro file
  induction file with
  | nil => exact fun _ h => absurd h List.not_mem_nil
  | cons c file ih =>
      rw [lines]
      split
      next => exact List.forall_mem_cons.2 ⟨List.not_mem_nil, ih⟩
      next hc =>
        split
        next => exact List.forall_mem_singleton.2 (by simpa using Ne.symm hc)
        next line others heq =>
          rw [heq] at ih
          obtain ⟨hline, hothers⟩ := List.forall_mem_cons.1 ih
          refine List.forall_mem_cons.2 ⟨?_, hothers⟩
          rw [List.mem_cons, not_or]
          exact ⟨Ne.symm hc, hline⟩

theorem lines_join {ls : List Text} (h : ∀ l ∈ ls, newline ∉ l) :
    lines (ls.flatMap (· ++ [newline])) = ls := by
  induction ls with
  | nil => rfl
  | cons l ls ih =>
      obtain ⟨hl, hls⟩ := List.forall_mem_cons.1 h
      rw [List.flatMap_cons, List.append_assoc, List.singleton_append, lines_append hl, ih hls]

theorem isLink_tip (h : Chain 0 [] es) : IsLink (tip es).2 := by
  rcases List.eq_nil_or_concat es with rfl | ⟨es, e, rfl⟩
  · exact .inl rfl
  · rw [List.concat_eq_append] at *
    obtain ⟨-, hlast⟩ := chain_append.1 h
    cases hlast with
    | cons _ _ hhash _ =>
        rw [tip_append, hhash, entryHash_eq]
        exact .inr ⟨_, rfl⟩

theorem entityID_normal (e : Entry) : e.normal.entityID = e.entityID := rfl

/-- The same end, with another entry before it. -/
theorem tip_replace {pre post : List Entry} {e e' : Entry} (hsequence : e'.sequence = e.sequence)
    (hhash : e'.hash = e.hash) : tip (pre ++ e' :: post) = tip (pre ++ e :: post) := by
  rw [tip_eq, tip_eq, tipFrom_append, tipFrom_append, tipFrom_cons, tipFrom_cons, hsequence, hhash]

/-- An entry that cannot be written can be exchanged for another entity's, in a
file of the same end. -/
theorem exists_exchanged {journal : Option Text} {pre post : List Entry} {e : Entry}
    (hread : readAndVerify journal = .ok (pre ++ e :: post)) (htime : ¬ e.time.Writable) :
    ∃ journal' e', readAndVerify journal' = .ok (pre ++ e' :: post) ∧
      e'.sequence = e.sequence ∧ e'.hash = e.hash ∧ e'.entityID ≠ e.entityID ∧
        e'.hashable.getD [] = e.hashable.getD [] := by
  obtain ⟨hchain, hall⟩ := sound_of_ok hread
  obtain ⟨he, hschema⟩ := hall e (by simp)
  obtain ⟨hpre, hrest⟩ := chain_append.1 hchain
  rw [← tip_eq] at hrest
  cases hrest with
  | cons hsequence hprevious hhash _ =>
      have hlink : IsLink e.previousHash := hprevious ▸ isLink_tip hpre
      obtain ⟨id, hid, hutf8, hlength⟩ : ∃ id, id ≠ e.entityID ∧ IsUTF8 id ∧
          (encodeString id).length ≤ 100 := by
        by_cases hfirst : e.entityID = utf8 "request-1"
        · refine ⟨utf8 "request-2", ?_, isUTF8_of_all (by decide), by decide⟩
          rw [hfirst]
          decide
        · exact ⟨utf8 "request-1", Ne.symm hfirst, isUTF8_of_all (by decide), by decide⟩
      obtain ⟨hline, hprintable⟩ := unmarshal_farLine he.sequence he.previousHash hutf8
      obtain ⟨htexts, hown⟩ := entryHash_unwritable
        (readable_far he.sequence he.previousHash hutf8) (not_writable_far _ _ _)
      obtain ⟨htext, hdigest⟩ := entryHash_unwritable he htime
      have hsame : (Entry.far e.sequence e.previousHash id).hash = e.hash :=
        hdigest.symm.trans hhash.symm
      have hplace : (Entry.far e.sequence e.previousHash id).sequence = e.sequence := rfl
      have htaken : ∀ {sequence : Nat} {previousHash l : Text}, Taken sequence previousHash l e →
          Taken sequence previousHash (farLine e.sequence e.previousHash id)
            (.far e.sequence e.previousHash id) := by
        intro sequence previousHash l h
        refine ⟨farLine_fits he.sequence hlink hlength, ?_, rfl, h.place, h.link, hown.symm⟩
        rw [dropCR_printable hprintable, hline]
      obtain ⟨ls, hmem, hlines⟩ :=
        readLines_replace htaken hplace hsame (readAndVerify_eq_ok.1 hread)
      refine ⟨some (ls.flatMap (· ++ [newline])), _, ?_, hplace, hsame, hid,
        htexts.trans htext.symm⟩
      rw [readAndVerify_eq_ok, Option.getD_some, lines_join, hlines]
      intro l hl
      rcases hmem l hl with hold | rfl
      · exact newline_notMem_lines l hold
      · exact newline_notMem hprintable

theorem writable_of_evident {journal : Option Text} (hread : readAndVerify journal = .ok es)
    (hfree : CollisionFree es) (h : Evident es) : ∀ e ∈ es, e.time.Writable := by
  intro e hmem
  by_contra htime
  obtain ⟨pre, post, rfl⟩ := List.append_of_mem hmem
  obtain ⟨journal', e', hread', hsequence, hhash, hid, htexts⟩ := exists_exchanged hread htime
  have hsame : hashed (pre ++ e' :: post) = hashed (pre ++ e :: post) := by
    rw [hashed, hashed, List.map_append, List.map_append, List.map_cons, List.map_cons, htexts]
  have hfree' : CollisionFree (pre ++ e :: post ++ (pre ++ e' :: post)) := by
    rw [CollisionFree, hashed, List.map_append]
    intro a ha b hb
    rw [← hashed, ← hashed, hsame, List.mem_append, or_self] at ha hb
    exact hfree a ha b hb
  have heq := h.ends journal' _ hread' (tip_replace hsequence hhash) hfree'
  rw [List.map_append, List.map_append, List.append_cancel_left_eq, List.map_cons, List.map_cons,
    List.cons.injEq] at heq
  exact hid (by rw [← entityID_normal, heq.1, entityID_normal])

/-- **The end of a journal is evidence of all of it just if every time in it can
be written.** -/
theorem tamperEvident_iff {journal : Option Text} (hread : readAndVerify journal = .ok es)
    (hfree : CollisionFree es) : Evident es ↔ ∀ e ∈ es, e.time.Writable := by
  obtain ⟨hchain, hall⟩ := sound_of_ok hread
  constructor
  · exact writable_of_evident hread hfree
  · intro htimes
    exact evident_of_writable hchain fun e hmem =>
      ⟨(hall e hmem).1, (hall e hmem).2, htimes e hmem⟩

theorem readAndVerify_far {entityID : Text} (hutf8 : IsUTF8 entityID)
    (hlength : (encodeString entityID).length ≤ 100) :
    readAndVerify (some (farLine 1 [] entityID ++ [newline])) = .ok [.far 1 [] entityID] := by
  have hsequence : 1 < 2 ^ 64 := by decide
  obtain ⟨hline, hprintable⟩ := unmarshal_farLine hsequence .nil hutf8
  obtain ⟨-, hown⟩ := entryHash_unwritable (readable_far hsequence .nil hutf8)
    (not_writable_far _ _ _)
  have hfits := farLine_fits hsequence (.inl rfl) hlength
  rw [readAndVerify_eq_ok, Option.getD_some, lines_append (newline_notMem hprintable) []]
  have htaken : Taken 0 [] (farLine 1 [] entityID) (.far 1 [] entityID) := by
    refine ⟨hfits, ?_, rfl, rfl, rfl, hown.symm⟩
    rw [dropCR_printable hprintable, hline]
  rw [htaken.readLines]
  rfl

theorem collisionFree_far {sequence : Nat} {previousHash entityID entityID' : Text}
    (h : (Entry.far sequence previousHash entityID).Readable)
    (h' : (Entry.far sequence previousHash entityID').Readable) :
    CollisionFree [.far sequence previousHash entityID, .far sequence previousHash entityID'] := by
  obtain ⟨htext, -⟩ := entryHash_unwritable h (not_writable_far _ _ _)
  obtain ⟨htext', -⟩ := entryHash_unwritable h' (not_writable_far _ _ _)
  have hnil : ∀ a ∈ hashed [.far sequence previousHash entityID,
      .far sequence previousHash entityID'], a = [] := by
    rw [hashed, List.map_cons, List.map_singleton, htext, htext']
    simp
  intro a ha b hb _
  rw [hnil a ha, hnil b hb]

/-- A journal of an entry that cannot be written. -/
theorem tamperEvident_iff_far : ¬Evident [.far 1 [] (utf8 "request-1")] := by
  have hutf8 : IsUTF8 (utf8 "request-1") := isUTF8_of_all (by decide)
  have hsequence : 1 < 2 ^ 64 := by decide
  have hreadable := readable_far hsequence .nil hutf8
  have hiff := tamperEvident_iff (readAndVerify_far hutf8 (by decide))
    ((collisionFree_far hreadable hreadable).mono (by simp))
  exact fun hevident => absurd (hiff.mp hevident _ (List.mem_singleton_self _)) (by decide +kernel)

/-- Two journals of one end with different entries. No two texts were hashed. -/
theorem not_tamperEvident_far :
    readAndVerify (some (farLine 1 [] (utf8 "request-1") ++ [newline])) =
        .ok [.far 1 [] (utf8 "request-1")] ∧
      readAndVerify (some (farLine 1 [] (utf8 "request-2") ++ [newline])) =
        .ok [.far 1 [] (utf8 "request-2")] ∧
      tip [.far 1 [] (utf8 "request-2")] = tip [.far 1 [] (utf8 "request-1")] ∧
      CollisionFree [.far 1 [] (utf8 "request-1"), .far 1 [] (utf8 "request-2")] ∧
      [Entry.far 1 [] (utf8 "request-2")].map Entry.normal ≠
        [Entry.far 1 [] (utf8 "request-1")].map Entry.normal := by
  have hfirst : IsUTF8 (utf8 "request-1") := isUTF8_of_all (by decide)
  have hsecond : IsUTF8 (utf8 "request-2") := isUTF8_of_all (by decide)
  have hsequence : 1 < 2 ^ 64 := by decide
  have htip : ∀ id, tip [Entry.far 1 [] id] = (1, digest []) := fun _ => rfl
  have hfree := collisionFree_far (readable_far hsequence .nil hfirst)
    (readable_far hsequence .nil hsecond)
  refine ⟨readAndVerify_far hfirst (by decide), readAndVerify_far hsecond (by decide),
    (htip _).trans (htip _).symm, hfree, fun heq => ?_⟩
  rw [List.map_singleton, List.map_singleton, List.cons.injEq] at heq
  have hid := congrArg Entry.entityID heq.1
  rw [entityID_normal, entityID_normal] at hid
  exact absurd hid (by show utf8 "request-2" ≠ utf8 "request-1"; decide)

end RelayLifeline.Journal.Wire
