import RelayLifeline.Lib.Trace
import RelayLifeline.Proofs.Relink

/-!
# What the journal has acknowledged

Whatever fails, what the store has in memory is what it has acknowledged, and
the file begins with it: a failed append leaves nothing behind it but a part of
its own line, and a compaction puts a whole file into place. The invariant says
so of the file's bytes. It is kept where every line that is written can be read
and no line is glued to one that was not ended.
-/

namespace RelayLifeline.Journal.Wire

open Lib Lib.Json

/-! ## What the operations do -/

namespace Store

theorem state_recordFailure (s : Store) (stage : Stage) :
    (s.recordFailure stage).state ≠ .healthy := by
  rw [recordFailure]
  dsimp only
  split
  next => exact State.noConfusion
  next h =>
    rw [not_not] at h
    rw [h]
    exact State.noConfusion

/-- The last part of an operation returns with the anchor in place, or fails
with it or without. -/
theorem commit_cases {α : Type} (s : Store) (disk : Disk) (fault : Option Fault) (done : Store)
    (value : α) :
    let outcome := s.commit disk fault done value
    outcome.disk.journal = disk.journal ∧
      ((outcome.result = .ok value ∧ outcome.store = done ∧
          outcome.disk.anchor = if s.integrityKey = [] then disk.anchor
            else some (anchorText s.integrityKey s.sequence s.lastHash)) ∨
        fault ≠ none ∧ outcome.result = .error (.failed .anchor) ∧
          outcome.store = s.recordFailure .anchor) := by
  intro outcome
  rw [show outcome = s.commit disk fault done value from rfl, commit]
  split
  next => exact ⟨rfl, .inl ⟨rfl, rfl, rfl⟩⟩
  next =>
    split
    next hanchor => exact ⟨rfl, .inr ⟨by rw [hanchor]; exact Option.some_ne_none _, rfl, rfl⟩⟩
    next =>
      dsimp only
      split
      next hdirectory =>
        exact ⟨rfl, .inr ⟨by rw [hdirectory]; exact Option.some_ne_none _, rfl, rfl⟩⟩
      next => exact ⟨rfl, .inl ⟨rfl, rfl, rfl⟩⟩

/-- An append that is not acknowledged: the store takes no more, and a failure
has put some part of the line at most behind what was in the file. -/
structure Refuses (s : Store) (disk : Disk) (entry : Option Entry) (fault : Option Fault)
    (outcome : Outcome Entry) : Prop where
  result : ∃ err, outcome.result = .error err
  entries : outcome.store.entries = s.entries
  key : outcome.store.integrityKey = s.integrityKey
  state : outcome.store.state ≠ .healthy
  disk : outcome.disk = disk ∨ s.state = .healthy ∧ fault ≠ none ∧
    ∃ e ∈ entry, e.marshal ≠ none ∧ ∃ written, outcome.disk.journal =
      some (disk.journal.getD [] ++ (e.line ++ [newline]).take written)

/-- An append that is. -/
structure Acknowledges (s : Store) (disk : Disk) (entry : Entry) (outcome : Outcome Entry) :
    Prop where
  result : outcome.result = .ok entry
  state : s.state = .healthy
  marshals : entry.marshal ≠ none
  store : outcome.store =
    { s with
      sequence := entry.sequence
      lastHash := entry.hash
      entries := s.entries ++ [entry] }
  journal : outcome.disk.journal = some (disk.journal.getD [] ++ (entry.line ++ [newline]))
  anchor : outcome.disk.anchor = if s.integrityKey = [] then disk.anchor
    else some (anchorText s.integrityKey entry.sequence entry.hash)

/-- **What an append does.** -/
theorem append_cases (s : Store) (disk : Disk) (now : Int) (entityID eventType : Text)
    (payload : Option Payload) (fault : Option Fault) :
    s.Refuses disk (payload.map (s.nextEntry now entityID eventType)) fault
        (s.append disk now entityID eventType payload fault) ∨
      ∃ p ∈ payload, s.Acknowledges disk (s.nextEntry now entityID eventType p)
        (s.append disk now entityID eventType payload fault) := by
  cases payload with
  | none => exact .inl ⟨⟨_, rfl⟩, rfl, rfl, s.state_recordFailure .encode, .inl rfl⟩
  | some p =>
    rw [append]
    dsimp only
    split
    next => exact .inl ⟨⟨_, rfl⟩, rfl, rfl, s.state_recordFailure .write, .inl rfl⟩
    next hopen =>
      split
      next hdegraded =>
        have hstate : s.state ≠ .healthy := by rw [hdegraded]; exact State.noConfusion
        exact .inl ⟨⟨_, rfl⟩, rfl, rfl, hstate, .inl rfl⟩
      next hdegraded =>
        have hhealthy : s.state = .healthy := by
          cases hstate : s.state with
          | healthy => rfl
          | degraded => exact absurd hstate hdegraded
          | closed => exact absurd (.inr hstate) hopen
        have hline : ∀ {line : Text}, (s.nextEntry now entityID eventType p).marshal = some line →
            (s.nextEntry now entityID eventType p).marshal ≠ none ∧
              (s.nextEntry now entityID eventType p).line = line := by
          intro line hmarshal
          rw [Entry.line, hmarshal]
          exact ⟨Option.some_ne_none _, rfl⟩
        split
        next => exact .inl ⟨⟨_, rfl⟩, rfl, rfl, s.state_recordFailure .encode, .inl rfl⟩
        next _ line written hmarshal =>
          obtain ⟨hsome, hline⟩ := hline hmarshal
          refine .inl ⟨⟨_, rfl⟩, rfl, rfl, s.state_recordFailure .write, .inr ⟨hhealthy,
            Option.some_ne_none _, _, rfl, hsome, written, ?_⟩⟩
          rw [hline]
          rfl
        next fault _ _ line hmarshal _ =>
          obtain ⟨hsome, hline⟩ := hline hmarshal
          have hwhole : (disk.write (line ++ [newline])).journal =
              some (disk.journal.getD [] ++
                ((s.nextEntry now entityID eventType p).line ++ [newline]).take
                  (line ++ [newline]).length) := by
            rw [hline, List.take_length]
            rfl
          split
          next hsync =>
            refine .inl ⟨⟨_, rfl⟩, rfl, rfl, s.state_recordFailure .sync, .inr ⟨hhealthy, ?_, _,
              rfl, hsome, _, hwhole⟩⟩
            rw [hsync.2]
            exact Option.some_ne_none _
          next =>
            obtain ⟨hjournal, ⟨hresult, hstore, hanchor⟩ | ⟨hfault, hresult, hstore⟩⟩ :=
              ({ s with
                sequence := (s.nextEntry now entityID eventType p).sequence
                lastHash := (s.nextEntry now entityID eventType p).hash } : Store).commit_cases
                (disk.write (line ++ [newline])) fault
                { s with
                  sequence := (s.nextEntry now entityID eventType p).sequence
                  lastHash := (s.nextEntry now entityID eventType p).hash
                  entries := s.entries ++ [s.nextEntry now entityID eventType p] }
                (s.nextEntry now entityID eventType p)
            · right
              refine ⟨p, rfl, hresult, hhealthy, hsome, hstore, ?_, hanchor⟩
              rw [hjournal, hline]
              rfl
            · left
              refine ⟨⟨_, hresult⟩, ?_, ?_, ?_, .inr ⟨hhealthy, hfault, _, rfl, hsome, _,
                hjournal.trans hwhole⟩⟩
              · rw [hstore]
                rfl
              · rw [hstore]
                rfl
              · rw [hstore]
                exact state_recordFailure _ .anchor

theorem hash_nextEntry (s : Store) (now : Int) (entityID eventType : Text) (payload : Payload) :
    (s.nextEntry now entityID eventType payload).hash =
      entryHash (s.nextEntry now entityID eventType payload) := rfl

variable {s : Store} {disk : Disk} {now : Int} {entityID eventType : Text} {payload : Payload}

/-- An append to a healthy store acknowledges what marshals, if nothing fails. -/
theorem append_none (hfile : s.file = true) (hstate : s.state = .healthy)
    (hmarshal : (s.nextEntry now entityID eventType payload).marshal ≠ none) :
    s.Acknowledges disk (s.nextEntry now entityID eventType payload)
      (s.append disk now entityID eventType (some payload) none) := by
  obtain ⟨line, hline⟩ := Option.ne_none_iff_exists'.1 hmarshal
  rcases s.append_cases disk now entityID eventType (some payload) none with
    hrefuses | ⟨p, ⟨⟩, hacknowledges⟩
  · obtain ⟨err, hresult⟩ := hrefuses.result
    have hopen : ¬ ((!s.file) = true ∨ s.state = .closed) := by simp [hfile, hstate]
    rw [append, if_neg hopen, if_neg (by simp [hstate])] at hresult
    dsimp only at hresult
    rw [hline] at hresult
    dsimp only at hresult
    rw [if_neg (by simp)] at hresult
    obtain ⟨-, ⟨hok, -⟩ | ⟨hfault, -⟩⟩ := commit_cases _ (disk.write (line ++ [newline])) none _ _
    · cases hok.symm.trans hresult
    · exact absurd rfl hfault
  · exact hacknowledges

/-- A write that fails leaves what it has written. -/
theorem append_write (hfile : s.file = true) (hstate : s.state = .healthy)
    (hmarshal : (s.nextEntry now entityID eventType payload).marshal ≠ none) (written : Nat) :
    s.append disk now entityID eventType (some payload) (some (.write written)) =
      s.fail (disk.write (((s.nextEntry now entityID eventType payload).line ++ [newline]).take
        written)) .write := by
  obtain ⟨line, hline⟩ := Option.ne_none_iff_exists'.1 hmarshal
  have hopen : ¬ ((!s.file) = true ∨ s.state = .closed) := by simp [hfile, hstate]
  rw [append, if_neg hopen, if_neg (by simp [hstate]), Entry.line]
  dsimp only
  rw [hline]
  rfl

/-- A compaction that has replaced the journal. What the store has is in the
new file, whether or not its anchor is written. -/
structure Rewrites (s : Store) (disk : Disk) (rebuilt : List Entry) (removed : Nat)
    (fault : Option Fault) (outcome : Outcome Nat) : Prop where
  marshals : ∀ e ∈ rebuilt, e.marshal ≠ none
  journal : outcome.disk.journal = some (fileText rebuilt)
  entries : outcome.store.entries = rebuilt
  tip : (outcome.store.sequence, outcome.store.lastHash) = tip rebuilt
  key : outcome.store.integrityKey = s.integrityKey
  result : outcome.result = .ok removed ∧ outcome.store.state = s.state ∧
      outcome.disk.anchor = (if s.integrityKey = [] then disk.anchor
        else some (anchorText s.integrityKey (Wire.tip rebuilt).1 (Wire.tip rebuilt).2)) ∨
    fault ≠ none ∧ outcome.result = .error (.failed .anchor) ∧ outcome.store.state ≠ .healthy

/-- **What a compaction does.** -/
theorem compact_cases (s : Store) (disk : Disk) (cutoff : Time) (protectedEntities : List Text)
    (fault : Option Fault) :
    let outcome := s.compact disk cutoff protectedEntities fault
    let kept := s.retained cutoff protectedEntities
    outcome.disk = disk ∧ outcome.store = s ∧
        (outcome.result = .ok 0 ∧ kept = s.entries ∨ outcome.result = .error .uncommitted) ∨
      kept ≠ s.entries ∧
        s.Rewrites disk (rebuildChain kept) (s.entries.length - kept.length) fault outcome := by
  intro outcome kept
  have houtcome : outcome = s.compact disk cutoff protectedEntities fault := rfl
  rw [compact] at houtcome
  dsimp only at houtcome
  split at houtcome
  next hnone =>
    left
    rw [houtcome]
    refine ⟨rfl, rfl, .inl ⟨rfl, ?_⟩⟩
    have hsublist : kept.Sublist s.entries := List.filter_sublist
    exact hsublist.eq_of_length_le (Nat.le_of_sub_eq_zero hnone)
  next hsome =>
    split at houtcome
    next =>
      left
      rw [houtcome]
      exact ⟨rfl, rfl, .inr rfl⟩
    next hcommit =>
      right
      have hmarshals : ∀ e ∈ rebuildChain kept, e.marshal ≠ none := by
        intro e hmem hnone
        refine (not_or.1 hcommit).2 (List.any_eq_true.2 ⟨e, hmem, ?_⟩)
        rw [hnone]
        rfl
      refine ⟨fun heq => hsome ?_, ?_⟩
      · rw [show s.retained cutoff protectedEntities = s.entries from heq, Nat.sub_self]
      obtain ⟨hjournal, ⟨hresult, hstore, hanchor⟩ | ⟨hfault, hresult, hstore⟩⟩ :=
        ({ s with
          file := true
          entries := rebuildChain kept
          sequence := (Wire.tip (rebuildChain kept)).1
          lastHash := (Wire.tip (rebuildChain kept)).2 } : Store).commit_cases
          { disk with journal := some (fileText (rebuildChain kept)) } fault
          { s with
            file := true
            entries := rebuildChain kept
            sequence := (Wire.tip (rebuildChain kept)).1
            lastHash := (Wire.tip (rebuildChain kept)).2 }
          (s.entries.length - kept.length)
      · rw [← houtcome] at hjournal hresult hstore hanchor
        refine ⟨hmarshals, hjournal, ?_, ?_, ?_, .inl ⟨hresult, ?_, hanchor⟩⟩
        all_goals rw [hstore]
      · rw [← houtcome] at hjournal hresult hstore
        refine ⟨hmarshals, hjournal, ?_, ?_, ?_, .inr ⟨hfault, hresult, ?_⟩⟩
        all_goals rw [hstore]
        case refine_1 => rfl
        case refine_2 => rfl
        case refine_3 => rfl
        exact state_recordFailure _ .anchor

theorem content_retained (s : Store) (cutoff : Time) (protectedEntities : List Text) :
    (s.retained cutoff protectedEntities).map Entry.content =
      keepContents (s.entries.map Entry.content) cutoff protectedEntities := by
  rw [keepContents, List.filter_map, retained]
  refine congrArg _ (List.filter_congr fun e _ => ?_)
  rw [retains, Function.comp_apply, List.any_map]
  rfl

end Store

/-! ## What is in the file -/

variable {es : List Entry}

/-- The entry of an append can be read, if its strings are UTF-8 and its payload
is not nested to the limit. -/
theorem readable_nextEntry {s : Store} (htip : (s.sequence, s.lastHash) = tip es)
    (hes : ∀ e ∈ es, e.Readable ∧ e.schemaVersion = 1) {now : Int} {entityID eventType : Text}
    {payload : Payload} (hid : IsUTF8 entityID) (htype : IsUTF8 eventType)
    (hdepth : payload.document.depth < maxNestingDepth) :
    (s.nextEntry now entityID eventType payload).Readable ∧
      (s.nextEntry now entityID eventType payload).normal =
        s.nextEntry now entityID eventType payload := by
  have hwell := Document.wellFormed_compact payload.wellFormed
  have hlast : IsUTF8 s.lastHash := by
    rw [show s.lastHash = (tip es).2 from congrArg Prod.snd htip]
    exact isUTF8_tip hes
  refine ⟨⟨Nat.mod_lt _ (by decide), rfl, rfl, hid, htype, .inr ⟨payload.document.compact, hwell,
    ?_, rfl⟩, hlast, isUTF8_digest _⟩, ?_⟩
  · rwa [Document.depth_compact]
  · show { s.nextEntry now entityID eventType payload with
      payload := compactFrom .outside 0 payload.text } = s.nextEntry now entityID eventType payload
    rw [Payload.text, Document.compactFrom_text hwell, Document.compact_idem payload.wellFormed]
    rfl

/-- What a file is read as that a part of a line follows: the part may be the
whole line, but is not read where it is less. -/
theorem readLines_part {body tail : Text} {e : Entry} {es' : List Entry} (he : e.Written)
    (hbody : readLines 0 [] (lines body) = (es, none)) (hended : Ended body)
    (htail : tail <+: e.line ++ [newline])
    (hread : readLines 0 [] (lines (body ++ tail)) = (es', none)) :
    ∀ e' ∈ es', e' ∈ es ∨ e' = e.normal := by
  obtain ⟨-, hline, hprintable, hne⟩ := he.line
  rw [lines_ended hended, readLines_append _ hbody, Prod.mk.injEq] at hread
  obtain ⟨rfl, hnone⟩ := hread
  refine List.forall_mem_append.2 ⟨fun _ => .inl, fun e' hmem => .inr ?_⟩
  have hwhole : ∀ {sequence : Nat} {previousHash : Text},
      e' ∈ (readLines sequence previousHash [e.line]).1 → e' = e.normal := by
    intro sequence previousHash hmem
    rcases readLines_cases sequence previousHash e.line with ⟨err, herror⟩ | ⟨e₀, htaken⟩
    · rw [herror] at hmem
      cases hmem
    · rw [htaken.readLines] at hmem
      have hread := htaken.read
      rw [dropCR_printable hprintable, hline, Option.some.injEq] at hread
      exact (List.mem_singleton.1 hmem).trans hread.symm
  rcases List.prefix_concat_iff.1 htail with rfl | ⟨rest, hpart⟩
  · rw [he.lines] at hmem
    exact hwhole hmem
  · have htorn : ∀ c ∈ tail, c ∈ e.line := fun c hc => hpart ▸ List.mem_append_left _ hc
    by_cases hnil : tail = []
    · rw [hnil] at hmem
      cases hmem
    · have hprintable' : Printable tail := fun c hc => hprintable c (htorn c hc)
      rw [lines_of_notMem hnil (newline_notMem hprintable')] at hmem hnone
      by_cases hrest : rest = []
      · rw [hrest, List.append_nil] at hpart
        rw [hpart] at hmem
        exact hwhole hmem
      · obtain ⟨e₀, -, -, htaken, -⟩ := readLines_cons_none (Prod.ext rfl hnone)
        have hread := htaken.read
        rw [dropCR_printable hprintable', he.torn hpart hrest] at hread
        cases hread

/-- What an open makes of the entries it has read. -/
def Store.ofEntries (entries : List Entry) (sync : Bool) (key : Text) : Store :=
  { entries, sequence := (tip entries).1, lastHash := (tip entries).2, sync, integrityKey := key }

/-- What an open does: it refuses the journal, or has its entries. -/
theorem openWithIntegrity_cases (disk : Disk) (sync : Bool) (key : Text) :
    (openWithIntegrity disk sync key).1.journal.getD [] = disk.journal.getD [] ∧
      ((∃ err, (openWithIntegrity disk sync key).2 = .error err) ∨
        ∃ es, readAndVerify disk.journal = .ok es ∧
          (openWithIntegrity disk sync key).2 = .ok (.ofEntries es sync key)) := by
  rw [openWithIntegrity]
  split
  next err _ => exact ⟨rfl, .inl ⟨_, rfl⟩⟩
  next es hread =>
    dsimp only
    split
    next => exact ⟨rfl, .inr ⟨es, hread, rfl⟩⟩
    next =>
      split
      next => exact ⟨rfl, .inr ⟨es, hread, rfl⟩⟩
      next =>
        split
        next => exact ⟨rfl, .inr ⟨es, hread, rfl⟩⟩
        next => exact ⟨rfl, .inl ⟨_, rfl⟩⟩

namespace World

/-! ## What a run keeps -/

/-- The lines that an input writes are ones that the reader takes, and do not
follow a line that was not ended. -/
def Kept (w : World) : Input → Prop
  | .append now entityID eventType (some payload) _ =>
      ∀ s ∈ w.store, s.state = .healthy →
        (s.nextEntry now entityID eventType payload).marshal ≠ none →
          Ended (w.disk.journal.getD []) ∧ IsUTF8 entityID ∧ IsUTF8 eventType ∧
            payload.document.depth < maxNestingDepth ∧
              (s.nextEntry now entityID eventType payload).Fits
  | .compact cutoff protectedEntities _ =>
      ∀ s ∈ w.store, s.retained cutoff protectedEntities ≠ s.entries →
        (∀ e ∈ Store.rebuildChain (s.retained cutoff protectedEntities), e.marshal ≠ none) →
          ∀ e ∈ Store.rebuildChain (s.retained cutoff protectedEntities), e.Fits
  | _ => True

/-- The journal has the entries, and behind them at most a part of a line that
was not acknowledged. -/
structure Rests (w : World) (body tail : Text) (es : List Entry) : Prop where
  file : w.disk.journal.getD [] = body ++ tail
  read : readLines 0 [] (lines body) = (es, none)
  normal : ∀ e ∈ es, e.normal = e
  part : tail = [] ∨ Ended body ∧
    ∃ e : Entry, e.Written ∧ e.normal = e ∧ tail <+: e.line ++ [newline]
  acknowledged : w.acknowledged = es.map Entry.content
  store : ∀ s ∈ w.store, s.entries = es ∧ s.integrityKey = w.key ∧
    (s.state = .healthy → tail = [] ∧ (s.sequence, s.lastHash) = tip es ∧ w.refused = false)

/-- The invariant of a run. -/
def Inv (w : World) : Prop := ∃ body tail es, w.Rests body tail es

variable {w : World} {body tail : Text}

theorem Rests.readable (h : w.Rests body tail es) : ∀ e ∈ es, e.Readable ∧ e.schemaVersion = 1 := by
  have hsound := @readLines_sound (lines body) 0 []
  rw [h.read] at hsound
  exact hsound.2

/-- An append that is refused leaves what was there, and at most a part of its
line. -/
theorem Rests.refuse (h : w.Rests body tail es) {s : Store} (hstore : w.store = some s) {now : Int}
    {entityID eventType : Text} {payload : Option Payload} {fault : Option Fault}
    {outcome : Outcome Entry} (hkept : w.Kept (.append now entityID eventType payload fault))
    (hrefuses : s.Refuses w.disk (payload.map (s.nextEntry now entityID eventType)) fault outcome) :
    ∃ tail', ({ w with disk := outcome.disk, store := some outcome.store, refused := true } :
        World).Rests body tail' es ∧ (tail' = tail ∧ outcome.disk = w.disk ∨ fault ≠ none) := by
  obtain ⟨hentries, hkey, hhealthy⟩ := h.store s hstore
  have hstore' : ∀ {tail' : Text}, ∀ s' ∈ some outcome.store,
      s'.entries = es ∧ s'.integrityKey = w.key ∧
        (s'.state = .healthy → tail' = [] ∧ (s'.sequence, s'.lastHash) = tip es ∧
          true = false) := by
    rintro _ _ ⟨⟩
    exact ⟨hrefuses.entries.trans hentries, hrefuses.key.trans hkey,
      fun hs => absurd hs hrefuses.state⟩
  rcases hrefuses.disk with hdisk | ⟨hs, hfault, e, he, hmarshal, written, hjournal⟩
  · refine ⟨tail, ⟨?_, h.read, h.normal, h.part, h.acknowledged, hstore'⟩, .inl ⟨rfl, hdisk⟩⟩
    exact (congrArg (fun disk => disk.journal.getD []) hdisk).trans h.file
  · obtain ⟨p, rfl, rfl⟩ := Option.map_eq_some_iff.1 he
    obtain ⟨rfl, htip, -⟩ := hhealthy hs
    obtain ⟨hended, hid, htype, hdepth, -⟩ := hkept s hstore hs hmarshal
    have hfile := h.file
    rw [List.append_nil] at hfile
    obtain ⟨hreadable, hnormal⟩ := readable_nextEntry htip h.readable hid htype hdepth
    have hwritten : (s.nextEntry now entityID eventType p).Written :=
      ⟨hreadable, rfl, writable_of_marshal hreadable hmarshal⟩
    refine ⟨((s.nextEntry now entityID eventType p).line ++ [newline]).take written,
      ⟨?_, h.read, h.normal, .inr ⟨hfile ▸ hended, _, hwritten, hnormal, List.take_prefix _ _⟩,
        h.acknowledged, hstore'⟩, .inr hfault⟩
    show outcome.disk.journal.getD [] = _
    rw [hjournal, Option.getD_some, hfile]

/-- One that is acknowledged goes on from what was there. -/
theorem Rests.acknowledge (h : w.Rests body tail es) {s : Store} (hstore : w.store = some s)
    {now : Int} {entityID eventType : Text} {payload : Payload} {fault : Option Fault}
    {outcome : Outcome Entry}
    (hkept : w.Kept (.append now entityID eventType (some payload) fault))
    (hacknowledges :
      s.Acknowledges w.disk (s.nextEntry now entityID eventType payload) outcome) :
    ({ w with
        disk := outcome.disk
        store := some outcome.store
        acknowledged := w.acknowledged ++ [⟨{ instant := now }, entityID, eventType,
          payload.text⟩] } : World).Rests
      (body ++ ((s.nextEntry now entityID eventType payload).line ++ [newline])) []
      (es ++ [s.nextEntry now entityID eventType payload]) := by
  obtain ⟨hentries, hkey, hhealthy⟩ := h.store s hstore
  obtain ⟨rfl, htip, hrefused⟩ := hhealthy hacknowledges.state
  obtain ⟨hended, hid, htype, hdepth, hfits⟩ :=
    hkept s hstore hacknowledges.state hacknowledges.marshals
  obtain ⟨hreadable, hnormal⟩ := readable_nextEntry htip h.readable hid htype hdepth
  have hwritten : (s.nextEntry now entityID eventType payload).Written :=
    ⟨hreadable, rfl, writable_of_marshal hreadable hacknowledges.marshals⟩
  have hfile := h.file
  rw [List.append_nil] at hfile
  rw [hfile] at hended
  refine ⟨?_, ?_, ?_, .inl rfl, ?_, ?_⟩
  · show outcome.disk.journal.getD [] = _
    rw [hacknowledges.journal, Option.getD_some, hfile, List.append_nil]
  · have hsequence : (s.nextEntry now entityID eventType payload).sequence =
        ((tip es).1 + 1) % 2 ^ 64 := by
      rw [← htip]
      rfl
    have hprevious : (s.nextEntry now entityID eventType payload).previousHash = (tip es).2 := by
      rw [← htip]
      rfl
    rw [tip_eq] at hsequence hprevious
    have htaken := hwritten.taken hfits hsequence hprevious rfl
    rw [hnormal] at htaken
    rw [lines_ended hended, hwritten.lines, readLines_append _ h.read, htaken.readLines]
    rfl
  · exact List.forall_mem_append.2 ⟨h.normal, List.forall_mem_singleton.2 hnormal⟩
  · rw [h.acknowledged, List.map_append]
    rfl
  · rintro _ ⟨⟩
    rw [hacknowledges.store]
    exact ⟨by rw [hentries], hkey, fun _ => ⟨rfl, (tip_append _ _).symm, hrefused⟩⟩

/-- An append leaves what was there and at most a part of its line, or goes on
from it. -/
theorem Rests.append (h : w.Rests body tail es) {now : Int} {entityID eventType : Text}
    {payload : Option Payload} {fault : Option Fault}
    (hkept : w.Kept (.append now entityID eventType payload fault)) :
    (∃ tail', (w.step (.append now entityID eventType payload fault)).Rests body tail' es ∧
        (tail' = tail ∧ (w.step (.append now entityID eventType payload fault)).disk = w.disk ∨
          fault ≠ none)) ∨
      ∃ e, (w.step (.append now entityID eventType payload fault)).Rests
          (body ++ (e.line ++ [newline])) [] (es ++ [e]) ∧
        (w.step (.append now entityID eventType payload fault)).disk.journal ≠ none ∧
        (w.step (.append now entityID eventType payload fault)).disk.anchor =
          if w.key = [] then w.disk.anchor else some (anchorText w.key e.sequence e.hash) := by
  cases hstore : w.store with
  | none =>
      have hstep : w.step (.append now entityID eventType payload fault) = w := by
        rw [step, hstore]
      rw [hstep]
      exact .inl ⟨tail, h, .inl ⟨rfl, rfl⟩⟩
  | some s =>
      obtain ⟨-, hkey, -⟩ := h.store s hstore
      rw [step, hstore]
      dsimp only
      rcases s.append_cases w.disk now entityID eventType payload fault with
        hrefuses | ⟨p, hp, hacknowledges⟩
      · left
        obtain ⟨err, hresult⟩ := hrefuses.result
        rw [hresult]
        exact h.refuse hstore hkept hrefuses
      · right
        obtain rfl : payload = some p := hp
        rw [hacknowledges.result]
        refine ⟨_, h.acknowledge hstore hkept hacknowledges, ?_, ?_⟩
        · show Disk.journal _ ≠ none
          rw [hacknowledges.journal]
          exact Option.some_ne_none _
        · show Disk.anchor _ = _
          rw [hacknowledges.anchor, hkey]

/-- A compaction that has replaced the journal leaves what it has kept, and
nothing behind it. -/
theorem Rests.rewrite (h : w.Rests body tail es) {s : Store} (hstore : w.store = some s)
    {cutoff : Time} {protectedEntities : List Text} {removed : Nat} {fault : Option Fault}
    {outcome : Outcome Nat} (hkept : w.Kept (.compact cutoff protectedEntities fault))
    (hsome : s.retained cutoff protectedEntities ≠ s.entries)
    (hrewrites : s.Rewrites w.disk (Store.rebuildChain (s.retained cutoff protectedEntities))
      removed fault outcome) :
    ({ w with
        disk := outcome.disk
        store := some outcome.store
        acknowledged := keepContents w.acknowledged cutoff protectedEntities } : World).Rests
      (fileText (Store.rebuildChain (s.retained cutoff protectedEntities))) []
      (Store.rebuildChain (s.retained cutoff protectedEntities)) := by
  obtain ⟨hentries, hkey, hhealthy⟩ := h.store s hstore
  have hcontent := s.content_retained cutoff protectedEntities
  rw [hentries, ← h.acknowledged] at hcontent
  have hreadable : ∀ e ∈ s.retained cutoff protectedEntities,
      e.Readable ∧ e.schemaVersion = 1 := fun e hmem =>
    h.readable e (hentries ▸ List.mem_of_mem_filter hmem)
  have hnormal : ∀ e ∈ s.retained cutoff protectedEntities, e.normal = e := fun e hmem =>
    h.normal e (hentries ▸ List.mem_of_mem_filter hmem)
  have hfits := hkept s hstore hsome hrewrites.marshals
  generalize s.retained cutoff protectedEntities = kept at *
  replace hnormal := normal_rebuildChain hnormal
  have hwritten := written_rebuildChain hreadable hrewrites.marshals
  have hread := readLines_written hwritten hfits (chain_rebuildChain _)
  rw [← lines_fileText hwritten, List.map_congr_left hnormal, List.map_id'] at hread
  rw [← content_rebuildChain] at hcontent
  refine ⟨?_, hread, hnormal, .inl rfl, hcontent.symm, ?_⟩
  · show outcome.disk.journal.getD [] = _
    rw [hrewrites.journal, Option.getD_some, List.append_nil]
  · rintro _ ⟨⟩
    refine ⟨hrewrites.entries, hrewrites.key.trans hkey, fun hs => ⟨rfl, hrewrites.tip, ?_⟩⟩
    rcases hrewrites.result with ⟨-, hstate, -⟩ | ⟨-, -, hstate⟩
    · exact (hhealthy (hstate ▸ hs)).2.2
    · exact absurd hs hstate

/-- A compaction leaves the file as it is, or puts one into place that has what
is kept and nothing behind it. -/
theorem Rests.compact (h : w.Rests body tail es) {cutoff : Time} {protectedEntities : List Text}
    {fault : Option Fault} (hkept : w.Kept (.compact cutoff protectedEntities fault)) :
    (w.step (.compact cutoff protectedEntities fault)).Rests body tail es ∧
        (w.step (.compact cutoff protectedEntities fault)).disk = w.disk ∨
      ∃ es', (w.step (.compact cutoff protectedEntities fault)).Rests (fileText es') [] es' ∧
        (w.step (.compact cutoff protectedEntities fault)).disk.journal ≠ none ∧
        ((w.step (.compact cutoff protectedEntities fault)).disk.anchor =
            (if w.key = [] then w.disk.anchor
              else some (anchorText w.key (tip es').1 (tip es').2)) ∨ fault ≠ none) := by
  cases hstore : w.store with
  | none =>
      have hstep : w.step (.compact cutoff protectedEntities fault) = w := by
        rw [step, hstore]
      rw [hstep]
      exact .inl ⟨h, rfl⟩
  | some s =>
      obtain ⟨hentries, hkey, -⟩ := h.store s hstore
      rw [step, hstore]
      dsimp only
      rcases s.compact_cases w.disk cutoff protectedEntities fault with
        ⟨hdisk, hsame, ⟨hresult, hall⟩ | hresult⟩ | ⟨hsome, hrewrites⟩
      · left
        have hcontent := s.content_retained cutoff protectedEntities
        rw [hall, hentries, ← h.acknowledged] at hcontent
        rw [hresult, hdisk, hsame]
        dsimp only
        rw [← hcontent, ← hstore]
        exact ⟨h, rfl⟩
      · left
        rw [hresult, hdisk, hsame]
        dsimp only
        rw [← hstore]
        exact ⟨h, rfl⟩
      · right
        have hrests := h.rewrite hstore hkept hsome hrewrites
        have hjournal : (s.compact w.disk cutoff protectedEntities fault).disk.journal ≠ none := by
          rw [hrewrites.journal]
          exact Option.some_ne_none _
        refine ⟨Store.rebuildChain (s.retained cutoff protectedEntities), ?_⟩
        rcases hrewrites.result with ⟨hresult, -, hanchor⟩ | ⟨hfault, hresult, -⟩
        · rw [hresult]
          exact ⟨hrests, hjournal, .inl (by rw [hanchor, hkey])⟩
        · rw [hresult]
          exact ⟨hrests, hjournal, .inr hfault⟩

theorem step_reopen {sync : Bool} {disk : Disk} {s : Store}
    (hopen : openWithIntegrity w.disk sync w.key = (disk, .ok s)) :
    w.step (.reopen sync) = opened w.key disk s := by
  rw [step, hopen]

/-- What is opened is what was there, and the line of which a part was there if
the part was all of it. -/
theorem Rests.reopen (h : w.Rests body tail es) (sync : Bool) : (w.step (.reopen sync)).Inv := by
  obtain ⟨hjournal, herror | ⟨es', hread, hok⟩⟩ := openWithIntegrity_cases w.disk sync w.key
  · obtain ⟨err, herror⟩ := herror
    have hstep : w.step (.reopen sync) =
        { w with disk := (openWithIntegrity w.disk sync w.key).1, store := none } := by
      rw [step, ← Prod.eta (openWithIntegrity w.disk sync w.key), herror]
    rw [hstep]
    exact ⟨body, tail, es, hjournal.trans h.file, h.read, h.normal, h.part, h.acknowledged,
      fun _ hs => absurd hs (Option.not_mem_none _)⟩
  · have hstep : w.step (.reopen sync) =
        opened w.key (openWithIntegrity w.disk sync w.key).1 (.ofEntries es' sync w.key) := by
      rw [step, ← Prod.eta (openWithIntegrity w.disk sync w.key), hok]
    rw [readAndVerify_eq_ok, h.file] at hread
    have hnormal : ∀ e ∈ es', e.normal = e := by
      rcases h.part with rfl | ⟨hended, e, he, hnormal, hpart⟩
      · rw [List.append_nil, h.read, Prod.mk.injEq] at hread
        exact hread.1 ▸ h.normal
      · intro e' hmem
        rcases readLines_part he h.read hended hpart hread e' hmem with hold | rfl
        · exact h.normal e' hold
        · exact normal_normal he.readable
    rw [hstep]
    refine ⟨body ++ tail, [], es', (hjournal.trans h.file).trans (List.append_nil _).symm, hread,
      hnormal, .inl rfl, rfl, ?_⟩
    rintro _ ⟨⟩
    exact ⟨rfl, rfl, fun _ => ⟨rfl, rfl, rfl⟩⟩

theorem Rests.close (h : w.Rests body tail es) : (w.step .close).Rests body tail es := by
  refine ⟨h.file, h.read, h.normal, h.part, h.acknowledged, ?_⟩
  intro s' hs'
  obtain ⟨s, hs, rfl⟩ := Option.map_eq_some_iff.1 hs'
  obtain ⟨hentries, hkey, hhealthy⟩ := h.store s hs
  rw [Store.close]
  split
  next => exact ⟨hentries, hkey, fun hstate => State.noConfusion hstate⟩
  next => exact ⟨hentries, hkey, hhealthy⟩

theorem Inv.step (h : w.Inv) {i : Input} (hkept : w.Kept i) : (w.step i).Inv := by
  obtain ⟨body, tail, es, h⟩ := h
  cases i with
  | reopen sync => exact h.reopen sync
  | append now entityID eventType payload fault =>
      rcases h.append hkept with ⟨tail', h, -⟩ | ⟨e, h, -⟩
      · exact ⟨body, tail', es, h⟩
      · exact ⟨_, [], _, h⟩
  | compact cutoff protectedEntities fault =>
      rcases h.compact hkept with ⟨h, -⟩ | ⟨es', h, -⟩
      · exact ⟨body, tail, es, h⟩
      · exact ⟨_, [], es', h⟩
  | close => exact ⟨body, tail, es, h.close⟩

/-! ## What a failure does not lose -/

/-- The store's entries are those that were acknowledged, an append that failed
is the last one, and the file begins with the entries, as a valid chain. -/
structure Sound (w : World) : Prop where
  entries : ∀ s ∈ w.store, s.entries.map Entry.content = w.acknowledged
  refused : w.refused = true → ∀ s ∈ w.store, ∀ now entityID eventType payload fault,
    (∃ err, (s.append w.disk now entityID eventType payload fault).result = .error err) ∧
      (s.append w.disk now entityID eventType payload fault).disk = w.disk
  valid : ∀ s ∈ w.store, s.entries <+: validChain w.disk.journal
  acknowledged : w.acknowledged <+: (validChain w.disk.journal).map Entry.content
  reopened : ∀ sync disk s, openWithIntegrity w.disk sync w.key = (disk, .ok s) →
    w.acknowledged <+: s.entries.map Entry.content

theorem Rests.valid (h : w.Rests body tail es) : es <+: validChain w.disk.journal := by
  rw [validChain, h.file]
  rcases h.part with rfl | ⟨hended, -⟩
  · rw [List.append_nil, h.read]
  · rw [lines_ended hended, readLines_append _ h.read]
    exact List.prefix_append _ _

theorem Inv.sound (h : w.Inv) : w.Sound := by
  obtain ⟨body, tail, es, h⟩ := h
  refine ⟨?_, ?_, ?_, ?_, ?_⟩
  · intro s hs
    rw [(h.store s hs).1, h.acknowledged]
  · intro hrefused s hs now entityID eventType payload fault
    have hstate : s.state ≠ .healthy := fun hstate =>
      Bool.noConfusion (hrefused.symm.trans ((h.store s hs).2.2 hstate).2.2)
    rcases s.append_cases w.disk now entityID eventType payload fault with
      hrefuses | ⟨p, -, hacknowledges⟩
    · refine ⟨hrefuses.result, ?_⟩
      rcases hrefuses.disk with hdisk | ⟨hhealthy, -⟩
      · exact hdisk
      · exact absurd hhealthy hstate
    · exact absurd hacknowledges.state hstate
  · intro s hs
    rw [(h.store s hs).1]
    exact h.valid
  · rw [h.acknowledged]
    exact h.valid.map Entry.content
  · intro sync disk s hopen
    obtain ⟨-, ⟨err, herror⟩ | ⟨es', hread, hok⟩⟩ := openWithIntegrity_cases w.disk sync w.key
    · rw [hopen] at herror
      cases herror
    · rw [hopen] at hok
      obtain rfl := Except.ok.inj hok
      have hvalid := h.valid
      rw [validChain_of_ok hread] at hvalid
      rw [h.acknowledged]
      exact hvalid.map Entry.content

theorem rests_opened {disk disk' : Disk} {sync : Bool} {key : Text} {s : Store}
    (hopen : openWithIntegrity disk sync key = (disk', .ok s))
    (hnormal : ∀ e ∈ s.entries, e.normal = e) :
    (opened key disk' s).Rests (disk.journal.getD []) [] s.entries ∧
      s = .ofEntries s.entries sync key := by
  obtain ⟨hjournal, ⟨err, herror⟩ | ⟨es, hread, hok⟩⟩ := openWithIntegrity_cases disk sync key
  · rw [hopen] at herror
    cases herror
  · rw [hopen] at hok hjournal
    obtain rfl := Except.ok.inj hok
    refine ⟨⟨hjournal.trans (List.append_nil _).symm, readAndVerify_eq_ok.1 hread, hnormal,
      .inl rfl, rfl, ?_⟩, rfl⟩
    rintro _ ⟨⟩
    exact ⟨rfl, rfl, fun _ => ⟨rfl, rfl, rfl⟩⟩

/-! ## A first entry -/

/-- 2025-01-05T00:00:00Z. -/
def midnight : Int := 63871632000000000000

/-- The entry that a new journal begins with. -/
def first : Entry :=
  (Store.ofEntries [] false []).nextEntry midnight (utf8 "request-1") (utf8 "start") .null

theorem written_null {s : Store} (htip : (s.sequence, s.lastHash) = tip es)
    (hes : ∀ e ∈ es, e.Readable ∧ e.schemaVersion = 1) :
    (s.nextEntry midnight (utf8 "request-1") (utf8 "start") .null).Written ∧
      (s.nextEntry midnight (utf8 "request-1") (utf8 "start") .null).normal =
        s.nextEntry midnight (utf8 "request-1") (utf8 "start") .null := by
  have hid : IsUTF8 (utf8 "request-1") := isUTF8_of_all (by decide)
  have htype : IsUTF8 (utf8 "start") := isUTF8_of_all (by decide)
  have hdepth : Payload.null.document.depth < maxNestingDepth := by decide
  obtain ⟨hreadable, hnormal⟩ := readable_nextEntry htip hes hid htype hdepth
  have htime : Time.Writable { instant := midnight } := by decide
  exact ⟨⟨hreadable, rfl, htime⟩, hnormal⟩

theorem first_written : first.Written ∧ first.normal = first :=
  have hnil : ∀ e ∈ ([] : List Entry), e.Readable ∧ e.schemaVersion = 1 :=
    fun _ h => absurd h List.not_mem_nil
  written_null rfl hnil

theorem first_hash : first.hash = digest (first.hashable.getD []) :=
  (Store.hash_nextEntry _ _ _ _ _).trans (entryHash_eq _)

theorem first_fits : first.Fits := by
  have hleading : fieldsSize first.leading ≤ 200 := by decide +kernel
  have htrailing : fieldsSize first.trailing ≤ 100 := by decide +kernel
  rw [Entry.Fits, line_eq first_written.1, length_objectText (members_ne_nil _), Entry.members,
    fieldsSize_append, fieldsSize_append, first_hash, hashSize_digest, maxLine]
  omega

theorem first_taken : Taken 0 [] first.line first := by
  obtain ⟨hwritten, hnormal⟩ := first_written
  have htaken := hwritten.taken first_fits (show first.sequence = (0 + 1) % 2 ^ 64 from rfl)
    (show first.previousHash = [] from rfl) (Store.hash_nextEntry _ _ _ _ _)
  rwa [hnormal] at htaken

/-! ## Runs -/

/-- **No failure loses or reorders an acknowledged entry.** -/
theorem failures_sound {disk disk' : Disk} {sync : Bool} {key : Text} {s : Store}
    (hopen : openWithIntegrity disk sync key = (disk', .ok s))
    (hnormal : ∀ e ∈ s.entries, e.normal = e) {inputs : List Input}
    (hkept : Along step Kept (opened key disk' s) inputs) :
    ((opened key disk' s).run inputs).Sound := by
  refine Inv.sound (Along.invariant ?_ ⟨_, _, _, (rests_opened hopen hnormal).1⟩ hkept)
  exact fun _ _ h hkept => h.step hkept

/-- A write that fails in the middle of the first line, and a journal that is
opened again. -/
theorem failures_sound_torn : ((opened [] { journal := some [] } (.ofEntries [] false [])).run
    [.append midnight (utf8 "request-1") (utf8 "start") (some .null) (some (.write 20)),
      .reopen false]).Sound := by
  refine @failures_sound {} { journal := some [] } false [] (.ofEntries [] false []) rfl
    (fun _ h => absurd h List.not_mem_nil) _ ⟨?_, trivial, trivial⟩
  rintro _ ⟨⟩ - -
  exact ⟨.inl rfl, isUTF8_of_all (by decide), isUTF8_of_all (by decide), by decide, first_fits⟩

/-! ## A line that is not ended -/

/-- An append whose write ends before the line does, and one after the journal
has been opened again. -/
def shortWrite : List Input :=
  [.append midnight (utf8 "request-1") (utf8 "start") (some .null)
      (some (.write first.line.length)),
    .reopen false, .append midnight (utf8 "request-1") (utf8 "start") (some .null) none]

/-- Without a key there is no anchor to verify. -/
theorem open_keyless {file : Text} (hread : readAndVerify (some file) = .ok es) :
    openWithIntegrity { journal := some file } false [] =
      ({ journal := some file }, .ok (.ofEntries es false [])) := by
  rw [openWithIntegrity, hread]
  rfl

/-- The line without its end is read. -/
theorem open_unended : openWithIntegrity { journal := some first.line } false [] =
    ({ journal := some first.line }, .ok (.ofEntries [first] false [])) := by
  obtain ⟨-, -, hprintable, hne⟩ := first_written.1.line
  have hread : readAndVerify (some first.line) = .ok [first] := by
    rw [readAndVerify_eq_ok, Option.getD_some, lines_of_notMem hne (newline_notMem hprintable),
      first_taken.readLines, readLines]
  exact open_keyless hread

theorem step_unended {w : World} (hkey : w.key = [])
    (hdisk : w.disk = { journal := some first.line }) :
    w.step (.reopen false) =
      opened [] { journal := some first.line } (.ofEntries [first] false []) := by
  have hopen : openWithIntegrity w.disk false w.key =
      ({ journal := some first.line }, .ok (.ofEntries [first] false [])) := by
    rw [hdisk, hkey]
    exact open_unended
  rw [step_reopen hopen, hkey]

/-- The entry that goes on from it. -/
def second : Entry :=
  (Store.ofEntries [first] false []).nextEntry midnight (utf8 "request-1") (utf8 "start") .null

theorem second_written : second.Written :=
  have hall : ∀ e ∈ [first], e.Readable ∧ e.schemaVersion = 1 :=
    List.forall_mem_singleton.2 ⟨first_written.1.readable, rfl⟩
  (written_null rfl hall).1

theorem write_new (bytes : Text) :
    Disk.write { journal := some [] } bytes = { journal := some bytes } := rfl

/-- The next line is glued to it, and with that neither is read. -/
theorem not_sound_shortWrite :
    openWithIntegrity {} false [] = ({ journal := some [] }, .ok (.ofEntries [] false [])) ∧
      ¬ ((opened [] { journal := some [] } (.ofEntries [] false [])).run shortWrite).Sound := by
  refine ⟨rfl, fun hsound => ?_⟩
  obtain ⟨hmarshal, -, hprintable, -⟩ := first_written.1.line
  obtain ⟨hmarshal', -, hprintable', -⟩ := second_written.line
  have hsome : first.marshal ≠ none := hmarshal ▸ Option.some_ne_none _
  have hsome' := hmarshal' ▸ Option.some_ne_none _
  have hwrite : (Store.ofEntries [] false []).append { journal := some [] } midnight
      (utf8 "request-1") (utf8 "start") (some .null) (some (.write first.line.length)) =
      (Store.ofEntries [] false []).fail { journal := some first.line } .write := by
    rw [Store.append_write rfl rfl hsome]
    show Store.fail _ (Disk.write _ ((first.line ++ [newline]).take first.line.length)) _ = _
    rw [List.take_left, write_new]
  have hfailed : (opened [] { journal := some [] } (.ofEntries [] false [])).step
      (.append midnight (utf8 "request-1") (utf8 "start") (some .null)
        (some (.write first.line.length))) =
      { key := []
        disk := { journal := some first.line }
        store := some ((Store.ofEntries [] false []).recordFailure .write)
        refused := true } := by
    rw [step]
    dsimp only [opened]
    rw [hwrite]
    rfl
  have hreopened : (opened [] { journal := some [] } (.ofEntries [] false [])).run shortWrite =
      (opened [] { journal := some first.line } (.ofEntries [first] false [])).step
        (.append midnight (utf8 "request-1") (utf8 "start") (some .null) none) := by
    rw [run, shortWrite, List.foldl_cons, hfailed, List.foldl_cons, step_unended rfl rfl]
    rw [List.foldl_cons, List.foldl_nil]
  have hacknowledges : (Store.ofEntries [first] false []).Acknowledges
      { journal := some first.line } second _ := Store.append_none rfl rfl hsome'
  have hstored : ∀ {file : Text} {e : Entry} {outcome : Outcome Entry},
      (Store.ofEntries [first] false []).Acknowledges { journal := some file } e outcome →
        outcome.store.entries.length = 2 ∧
          outcome.disk.journal = some (file ++ e.line ++ [newline]) := by
    intro file e outcome h
    rw [h.store, h.journal, List.append_assoc]
    exact ⟨rfl, rfl⟩
  obtain ⟨hlength, hjournal⟩ := hstored hacknowledges
  rw [hreopened, step] at hsound
  dsimp only [opened] at hsound
  rw [hacknowledges.result] at hsound
  have hvalid := (hsound.valid _ rfl).length_le
  dsimp only at hvalid
  rw [hlength, hjournal, validChain, Option.getD_some] at hvalid
  have hnewline : newline ∉ first.line ++ second.line :=
    newline_notMem (List.forall_mem_append.2 ⟨hprintable, hprintable'⟩)
  have hle := length_readLines_le (lines (first.line ++ second.line ++ [newline])) 0 []
  rw [lines_append hnewline []] at hle hvalid
  exact absurd (hvalid.trans hle) (by decide)

end World

end RelayLifeline.Journal.Wire
