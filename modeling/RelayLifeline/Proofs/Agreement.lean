import RelayLifeline.Proofs.Durability

/-!
# What is written is opened again

As long as nothing fails, the journal that a process leaves is one that an open
accepts, with the entries the process had: its lines are read as the entries
they were written for, and its anchor is that of the last one.
-/

namespace RelayLifeline.Journal.Wire

open Lib Lib.Json

/-! ## The anchor -/

section

variable (a : Anchor) (v : Text)

theorem Anchor.set_schemaVersion : a.set (utf8 "schemaVersion", v) =
    (unmarshalInt v).map fun n => { a with schemaVersion := n.getD a.schemaVersion } := rfl

theorem Anchor.set_sequence : a.set (utf8 "sequence", v) =
    (unmarshalUint v).map fun n => { a with sequence := n.getD a.sequence } := rfl

theorem Anchor.set_hash : a.set (utf8 "hash", v) =
    (unmarshalText v).map fun s => { a with hash := s.getD a.hash } := rfl

theorem Anchor.set_mac : a.set (utf8 "mac", v) =
    (unmarshalText v).map fun s => { a with mac := s.getD a.mac } := rfl

end

/-- **An anchor is read back.** -/
theorem unmarshalAnchor_anchorText (key : Text) {sequence : Nat} {hash : Text}
    (hsequence : sequence < 2 ^ 64) (hutf8 : IsUTF8 hash) :
    unmarshalAnchor (anchorText key sequence hash) =
      some { schemaVersion := currentSchemaVersion, sequence, hash
             mac := anchorMAC key currentSchemaVersion sequence hash } := by
  have hmac : IsUTF8 (anchorMAC key currentSchemaVersion sequence hash) := isUTF8_hex _
  rw [anchorText]
  generalize anchorMAC key currentSchemaVersion sequence hash = mac at *
  have hleading : ∀ field ∈ [(utf8 "schemaVersion", utf8 (currentSchemaVersion : Int).repr),
      (utf8 "sequence", utf8 sequence.repr)], IsMember field := by
    simp only [List.forall_mem_cons]
    exact ⟨isMember_token (.number (utf8 (1 : Nat).repr)) (by decide) (by decide) (isNumber_repr 1),
      isMember_token (.number (utf8 sequence.repr)) (by decide) (by decide) (isNumber_repr _),
      fun _ h => absurd h List.not_mem_nil⟩
  have hhash : ∀ field ∈ (if hash = [] then [] else [(utf8 "hash", encodeString hash)]),
      IsMember field := by
    split
    next => exact fun _ h => absurd h List.not_mem_nil
    next => exact List.forall_mem_singleton.2 (isMember_string (by decide) (by decide) hutf8)
  have hlast : ∀ field ∈ [(utf8 "mac", encodeString mac)], IsMember field :=
    List.forall_mem_singleton.2 (isMember_string (by decide) (by decide) hmac)
  have hspace : IsSpaces [newline] := List.forall_mem_singleton.2 rfl
  have hread := unmarshalFields_members (List.append_ne_nil_of_left_ne_nil (List.cons_ne_nil _ _) _)
    (List.forall_mem_append.2 ⟨hleading, List.forall_mem_append.2 ⟨hhash, hlast⟩⟩) hspace
  have hschema : unmarshalInt (utf8 (currentSchemaVersion : Int).repr) = some (some 1) := by decide
  have hnumbers : [(utf8 "schemaVersion", utf8 (currentSchemaVersion : Int).repr),
      (utf8 "sequence", utf8 sequence.repr)].foldlM Anchor.set {} =
        some { schemaVersion := 1, sequence } := by
    simp only [List.foldlM_cons, List.foldlM_nil, Anchor.set_schemaVersion, Anchor.set_sequence,
      hschema, unmarshalUint_repr hsequence, Option.map_some, Option.getD_some,
      Option.bind_eq_bind, Option.bind_some]
    rfl
  have hlink : (if hash = [] then [] else [(utf8 "hash", encodeString hash)]).foldlM Anchor.set
      { schemaVersion := 1, sequence } = some { schemaVersion := 1, sequence, hash } := by
    split
    next hnil => rw [hnil]; rfl
    next =>
      rw [List.foldlM_cons, Anchor.set_hash, unmarshalText_encodeString hutf8]
      rfl
  rw [unmarshalAnchor, Anchor.marshal, hread, Option.bind_some, List.foldlM_append, hnumbers,
    Option.bind_eq_bind, Option.bind_some, List.foldlM_append, hlink, Option.bind_eq_bind,
    Option.bind_some, List.foldlM_cons, Anchor.set_mac, unmarshalText_encodeString hmac]
  rfl

theorem verifyAnchorData_anchorText (key : Text) {sequence : Nat} {hash : Text}
    (hsequence : sequence < 2 ^ 64) (hutf8 : IsUTF8 hash) :
    verifyAnchorData (anchorText key sequence hash) key sequence hash = true := by
  rw [verifyAnchorData, unmarshalAnchor_anchorText key hsequence hutf8, Option.any_some]
  exact decide_eq_true ⟨rfl, rfl, rfl, rfl⟩

namespace World

/-! ## Runs in which nothing fails -/

/-- Nothing fails in an operation. -/
def Faultless : Input → Prop
  | .append _ _ _ _ fault => fault = none
  | .compact _ _ fault => fault = none
  | _ => True

/-- The journal is what the store has, which is what was acknowledged, and an
open finds that. -/
def Agrees (w : World) : Prop :=
  ∃ s, w.store = some s ∧ s.entries.map Entry.content = w.acknowledged ∧
    readAndVerify w.disk.journal = .ok s.entries ∧
      ∀ sync, openWithIntegrity w.disk sync w.key =
        (w.disk, .ok (.ofEntries s.entries sync w.key))

/-- The anchor is one for these entries. -/
def Anchored (w : World) (es : List Entry) : Prop :=
  w.key = [] ∨ ∃ data, w.disk.anchor = some data ∧
    verifyAnchorData data w.key (tip es).1 (tip es).2 = true

/-- The journal is whole. -/
structure Whole (w : World) (body : Text) (es : List Entry) : Prop where
  rests : w.Rests body [] es
  store : w.store ≠ none
  journal : w.disk.journal ≠ none
  anchored : w.Anchored es

/-- The invariant of a run in which nothing fails. -/
def Intact (w : World) : Prop := ∃ body es, w.Whole body es

variable {w : World} {body : Text} {es : List Entry}

/-- A whole journal is opened with nothing changed. -/
theorem Whole.opens (h : w.Whole body es) (sync : Bool) :
    readAndVerify w.disk.journal = .ok es ∧
      openWithIntegrity w.disk sync w.key = (w.disk, .ok (.ofEntries es sync w.key)) := by
  have hread : readAndVerify w.disk.journal = .ok es := by
    rw [readAndVerify_eq_ok, h.rests.file, List.append_nil, h.rests.read]
  have hjournal : some (w.disk.journal.getD []) = w.disk.journal := by
    obtain ⟨file, hfile⟩ := Option.ne_none_iff_exists'.1 h.journal
    rw [hfile, Option.getD_some]
  have hdisk : { w.disk with journal := some (w.disk.journal.getD []) } = w.disk := by
    rw [hjournal]
  refine ⟨hread, ?_⟩
  rw [openWithIntegrity, hread]
  dsimp only
  rw [hdisk]
  split
  next => rfl
  next hkey =>
    obtain ⟨data, hdata, hverify⟩ := h.anchored.resolve_left hkey
    rw [hdata]
    dsimp only
    rw [if_pos hverify]
    rfl

theorem Whole.agrees (h : w.Whole body es) : w.Agrees := by
  obtain ⟨s, hs⟩ := Option.ne_none_iff_exists'.1 h.store
  obtain rfl := (h.rests.store s hs).1
  exact ⟨s, hs, h.rests.acknowledged.symm, (h.opens false).1, fun sync => (h.opens sync).2⟩

/-- The anchor that is written for entries verifies them. -/
theorem verify_tip (hes : ∀ e ∈ es, e.Readable ∧ e.schemaVersion = 1) (key : Text) :
    verifyAnchorData (anchorText key (tip es).1 (tip es).2) key (tip es).1 (tip es).2 = true :=
  verifyAnchorData_anchorText key (tip_lt hes) (isUTF8_tip hes)

theorem anchored_of_anchorText {w' : World} (h : w'.Rests body [] es) (hkey : w'.key = w.key)
    (hanchor : w'.disk.anchor = if w.key = [] then w.disk.anchor
      else some (anchorText w.key (tip es).1 (tip es).2)) : w'.Anchored es := by
  rw [Anchored, hkey]
  by_cases hempty : w.key = []
  · exact .inl hempty
  · rw [if_neg hempty] at hanchor
    exact .inr ⟨_, hanchor, verify_tip h.readable w.key⟩

theorem step_key (w : World) (i : Input) : (w.step i).key = w.key := by
  cases i with
  | reopen sync =>
      rw [step]
      split
      next => rfl
      next => rfl
  | append now entityID eventType payload fault =>
      rw [step]
      split
      next => rfl
      next =>
        dsimp only
        split
        next => rfl
        next => rfl
  | compact cutoff protectedEntities fault =>
      rw [step]
      split
      next => rfl
      next =>
        dsimp only
        split
        next => rfl
        next => rfl
  | close => rfl

/-- An operation leaves the process with its store. -/
theorem step_store (h : w.store ≠ none) {i : Input} (hi : ∀ sync, i ≠ .reopen sync) :
    (w.step i).store ≠ none := by
  obtain ⟨s, hs⟩ := Option.ne_none_iff_exists'.1 h
  cases i with
  | reopen sync => exact absurd rfl (hi sync)
  | append now entityID eventType payload fault =>
      rw [step, hs]
      dsimp only
      split
      next => exact Option.some_ne_none _
      next => exact Option.some_ne_none _
  | compact cutoff protectedEntities fault =>
      rw [step, hs]
      dsimp only
      split
      next => exact Option.some_ne_none _
      next => exact Option.some_ne_none _
  | close =>
      rw [step, hs]
      exact Option.some_ne_none _

/-- What an operation that changes no file leaves is whole. -/
theorem Whole.of_disk {i : Input} (h : w.Whole body es) (hi : ∀ sync, i ≠ .reopen sync)
    (hrests : (w.step i).Rests body [] es) (hdisk : (w.step i).disk = w.disk) :
    (w.step i).Whole body es where
  rests := hrests
  store := step_store h.store hi
  journal := by
    rw [hdisk]
    exact h.journal
  anchored := by
    rw [Anchored, hdisk, step_key]
    exact h.anchored

theorem Whole.step (h : w.Whole body es) {i : Input} (hfault : Faultless i) (hkept : w.Kept i) :
    (w.step i).Intact := by
  cases i with
  | reopen sync =>
      have hstep := step_reopen (h.opens sync).2
      refine ⟨body, es, ?_, ?_, ?_, ?_⟩
      all_goals rw [hstep]
      · refine ⟨h.rests.file, h.rests.read, h.rests.normal, .inl rfl, rfl, ?_⟩
        rintro _ ⟨⟩
        exact ⟨rfl, rfl, fun _ => ⟨rfl, rfl, rfl⟩⟩
      · exact Option.some_ne_none _
      · exact h.journal
      · exact h.anchored
  | append now entityID eventType payload fault =>
      rcases h.rests.append hkept with
        ⟨tail', hrests, ⟨rfl, hdisk⟩ | hfails⟩ | ⟨e, hrests, hjournal, hanchor⟩
      · exact ⟨body, es, h.of_disk (fun _ => Input.noConfusion) hrests hdisk⟩
      · exact absurd hfault hfails
      · refine ⟨_, _, hrests, step_store h.store (fun _ => Input.noConfusion), hjournal, ?_⟩
        refine anchored_of_anchorText hrests (step_key w _) ?_
        rw [tip_append]
        exact hanchor
  | compact cutoff protectedEntities fault =>
      rcases h.rests.compact hkept with
        ⟨hrests, hdisk⟩ | ⟨es', hrests, hjournal, hanchor | hfails⟩
      · exact ⟨body, es, h.of_disk (fun _ => Input.noConfusion) hrests hdisk⟩
      · exact ⟨_, es', hrests, step_store h.store (fun _ => Input.noConfusion), hjournal,
          anchored_of_anchorText hrests (step_key w _) hanchor⟩
      · exact absurd hfault hfails
  | close =>
      exact ⟨body, es, h.of_disk (fun _ => Input.noConfusion) h.rests.close rfl⟩

/-- An open that accepts the journal has found its anchor, or written it. -/
theorem open_anchor {disk disk' : Disk} {sync : Bool} {key : Text} {s : Store}
    (hopen : openWithIntegrity disk sync key = (disk', .ok s)) :
    disk'.journal ≠ none ∧ (key = [] ∨ ∃ data, disk'.anchor = some data ∧
      (data = anchorText key s.sequence s.lastHash ∨
        verifyAnchorData data key s.sequence s.lastHash = true)) := by
  rw [openWithIntegrity] at hopen
  split at hopen
  next => cases hopen
  next =>
    dsimp only at hopen
    split at hopen
    next hkey =>
      cases hopen
      exact ⟨Option.some_ne_none _, .inl hkey⟩
    next =>
      split at hopen
      next =>
        cases hopen
        exact ⟨Option.some_ne_none _, .inr ⟨_, rfl, .inl rfl⟩⟩
      next data hdata =>
        split at hopen
        next hverify =>
          cases hopen
          exact ⟨Option.some_ne_none _, .inr ⟨data, hdata, .inr hverify⟩⟩
        next => cases hopen

theorem whole_opened {disk disk' : Disk} {sync : Bool} {key : Text} {s : Store}
    (hopen : openWithIntegrity disk sync key = (disk', .ok s))
    (hnormal : ∀ e ∈ s.entries, e.normal = e) :
    (opened key disk' s).Whole (disk.journal.getD []) s.entries := by
  obtain ⟨hrests, hs⟩ := rests_opened hopen hnormal
  obtain ⟨hjournal, hanchor⟩ := open_anchor hopen
  refine ⟨hrests, Option.some_ne_none _, hjournal, ?_⟩
  rw [hs] at hanchor
  rcases hanchor with hempty | ⟨data, hdata, rfl | hverify⟩
  · exact .inl hempty
  · exact .inr ⟨_, hdata, verify_tip hrests.readable key⟩
  · exact .inr ⟨data, hdata, hverify⟩

/-- **What is written is opened again.** -/
theorem run_agrees {disk disk' : Disk} {sync : Bool} {key : Text} {s : Store}
    (hopen : openWithIntegrity disk sync key = (disk', .ok s))
    (hnormal : ∀ e ∈ s.entries, e.normal = e) {inputs : List Input}
    (hfaultless : ∀ i ∈ inputs, Faultless i)
    (hkept : Along World.step Kept (opened key disk' s) inputs) :
    ((opened key disk' s).run inputs).Agrees := by
  have hinv : ((opened key disk' s).run inputs).Intact := by
    refine Along.invariant ?_ ?_ ((Along.of_forall hfaultless).and hkept)
    · rintro w i ⟨body, es, h⟩ ⟨hfault, hkept⟩
      exact h.step hfault hkept
    · exact ⟨_, _, whole_opened hopen hnormal⟩
  obtain ⟨body, es, h⟩ := hinv
  exact h.agrees

/-- An append, and the journal opened again. -/
theorem run_agrees_first : ((opened [0x6b]
      { journal := some [], anchor := some (anchorText [0x6b] 0 []) }
      (.ofEntries [] false [0x6b])).run
    [.append midnight (utf8 "request-1") (utf8 "start") (some .null) none, .close,
      .reopen false]).Agrees := by
  refine @run_agrees {} _ false [0x6b] (.ofEntries [] false [0x6b]) rfl
    (fun _ h => absurd h List.not_mem_nil) _ ?_ ⟨?_, trivial, trivial, trivial⟩
  · simp [Faultless]
  · rintro _ ⟨⟩ - -
    exact ⟨.inl rfl, isUTF8_of_all (by decide), isUTF8_of_all (by decide), by decide, first_fits⟩

/-! ## A string that is not UTF-8 -/

theorem not_isUTF8 : ¬ IsUTF8 [0xff] := fun h =>
  absurd (unquote_encodeFrom h 1 (Nat.le_refl 1)) (by decide)

/-- An append acknowledges an entry that is not read back. -/
theorem not_agrees_invalid :
    openWithIntegrity {} false [] = ({ journal := some [] }, .ok (.ofEntries [] false [])) ∧
      ¬ ((opened [] { journal := some [] } (.ofEntries [] false [])).run
        [.append midnight [0xff] (utf8 "start") (some .null) none]).Agrees := by
  refine ⟨rfl, fun hagrees => ?_⟩
  have hmarshal : ((Store.ofEntries [] false []).nextEntry midnight [0xff] (utf8 "start")
      .null).marshal ≠ none := by
    rw [Entry.marshal, Ne, Option.map_eq_none_iff]
    decide +kernel
  have hacknowledges : (Store.ofEntries [] false []).Acknowledges { journal := some [] } _ _ :=
    Store.append_none rfl rfl hmarshal
  obtain ⟨s, hs, -, hread, -⟩ := hagrees
  rw [run, List.foldl_cons, List.foldl_nil, step] at hs hread
  dsimp only [opened] at hs hread
  rw [hacknowledges.result] at hs hread
  obtain rfl := Option.some.inj hs
  rw [hacknowledges.store] at hread
  obtain ⟨hreadable, -⟩ := (sound_of_ok hread).2 _ (List.mem_append_right _ List.mem_cons_self)
  exact not_isUTF8 hreadable.entityID

end World

end RelayLifeline.Journal.Wire
