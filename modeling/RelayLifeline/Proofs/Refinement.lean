import RelayLifeline.Journal.DigestNat
import RelayLifeline.Journal.Tape
import RelayLifeline.Proofs.Durability

/-!
# The journal and its tape

What the managers know of their journal is a tape: lines that are acknowledged,
perhaps one behind them that is not, and whether appends are taken. Here a run
of the journal over the bytes of its files is followed on a tape. Every call
moves the tape as the tape's own operations do, and wherever the run has been
the tape has what the store has acknowledged and what the files hold.
-/

namespace RelayLifeline.Journal

open Lib Lib.Json

/-- The tape of a store that takes no more appends. -/
def Tape.halt {P : Type} (t : Tape P) : Tape P :=
  { t with degraded := true, halted := fun _ => rfl }

/-- An append that is lost does nothing else. -/
theorem Tape.append_lost {P : Type} (t : Tape P) (line : Line P) :
    (t.append line .lost).1 = t.halt := by
  obtain ⟨entries, stray, degraded, halted⟩ := t
  cases degraded with
  | true => rfl
  | false => rfl

theorem Tape.compact_lost {P : Type} (t : Tape P) (cutoff : Int) (protectedEntities : List String) :
    t.compact cutoff protectedEntities .lost = t := by
  rw [compact]
  split
  · rfl
  · rfl

namespace Wire

variable {es : List Entry}

/-- What the reader makes of a part of a line: nothing, or the line's entry. -/
theorem readLines_tail {e : Entry} (he : e.Written) (hnormal : e.normal = e) {tail : Text}
    (htail : tail <+: e.line ++ [newline]) (sequence : Nat) (previousHash : Text) :
    (readLines sequence previousHash (lines tail)).1 = [] ∨
      (readLines sequence previousHash (lines tail)).1 = [e] := by
  obtain ⟨-, hline, hprintable, hne⟩ := he.line
  have hwhole : (readLines sequence previousHash [e.line]).1 = [] ∨
      (readLines sequence previousHash [e.line]).1 = [e] := by
    rcases readLines_cases sequence previousHash e.line with ⟨err, herror⟩ | ⟨e₀, htaken⟩
    · rw [herror]
      exact .inl rfl
    · have hread := htaken.read
      rw [dropCR_printable hprintable, hline, Option.some.injEq, hnormal] at hread
      rw [htaken.readLines, hread]
      exact .inr rfl
  rcases List.prefix_concat_iff.1 htail with rfl | ⟨rest, hpart⟩
  · rwa [he.lines]
  · by_cases hnil : tail = []
    · rw [hnil]
      exact .inl rfl
    · have hprintable' : Printable tail := fun c hc =>
        hprintable c (hpart ▸ List.mem_append_left _ hc)
      rw [lines_of_notMem hnil (newline_notMem hprintable')]
      by_cases hrest : rest = []
      · rw [hrest, List.append_nil] at hpart
        rwa [hpart]
      · rcases readLines_cases sequence previousHash tail with ⟨err, herror⟩ | ⟨e₀, htaken⟩
        · rw [herror]
          exact .inl rfl
        · have hread := htaken.read
          rw [dropCR_printable hprintable', he.torn hpart hrest] at hread
          cases hread

/-- A compaction has the journal's file open. -/
theorem Store.file_compact (s : Store) (disk : Disk) (cutoff : Time) (protectedEntities : List Text)
    (fault : Option Fault) (h : s.file = true) :
    (s.compact disk cutoff protectedEntities fault).store.file = true := by
  rw [compact]
  dsimp only
  split
  · exact h
  · split
    · exact h
    · rw [commit]
      split
      · rfl
      · split
        · rfl
        · dsimp only
          split
          · rfl
          · rfl

/-! ## The calls and what they make of the tape -/

/-- A line of the tape is of the entry that it has for a payload. -/
structure Names (l : Line Content) : Prop where
  time : l.payload.time.instant = l.time
  bare : l.payload.time.monotonic = none
  entityID : l.payload.entityID = utf8 l.entityID

/-- What a manager calls, with the identifiers it knows. -/
inductive Call where
  | reopen (sync : Bool)
  | append (now : Int) (entityID : String) (eventType : Text) (payload : Option Payload)
      (fault : Option Fault)
  | compact (cutoff : Time) (protectedEntities : List String) (fault : Option Fault)
  | close

def Call.input : Call → Input
  | .reopen sync => .reopen sync
  | .append now entityID eventType payload fault =>
      .append now (utf8 entityID) eventType payload fault
  | .compact cutoff protectedEntities fault => .compact cutoff (protectedEntities.map utf8) fault
  | .close => .close

def World.call (w : World) (c : Call) : World := w.step c.input

/-- The line that an append puts on the tape. -/
def lineOf (now : Int) (entityID : String) (eventType : Text) (payload : Payload) : Line Content :=
  ⟨now, entityID, ⟨{ instant := now }, utf8 entityID, eventType, payload.text⟩⟩

theorem names_lineOf (now : Int) (entityID : String) (eventType : Text) (payload : Payload) :
    Names (lineOf now entityID eventType payload) := ⟨rfl, rfl, rfl⟩

/-- What a call may make of the tape. An append of what does not marshal, a
close and an open that is refused end the appends. -/
def Moves (t : Tape Content) : Call → Tape Content → Prop
  | .reopen _, t' => t' = t.reopen ∨ t' = t.halt
  | .append now entityID eventType (some payload) _, t' =>
      ∃ fate, t' = (t.append (lineOf now entityID eventType payload) fate).1
  | .append _ _ _ none _, t' => t' = t.halt
  | .compact cutoff protectedEntities _, t' =>
      ∃ fate, t' = t.compact cutoff.instant protectedEntities fate
  | .close, t' => t' = t.halt

theorem utf8_injective : Function.Injective utf8 := by
  intro s t h
  rw [utf8_eq_bytes, utf8_eq_bytes] at h
  exact String.toByteArray_inj.1 (ByteArray.ext (Array.toList_inj.1 h))

theorem Names.before {l : Line Content} (h : Names l) (cutoff : Time) :
    l.payload.time.before cutoff = decide (l.time < cutoff.instant) := by
  rw [Time.before, h.bare, h.time]

theorem Names.entityID_eq {l m : Line Content} (hl : Names l) (hm : Names m) :
    m.payload.entityID = l.payload.entityID ↔ m.entityID = l.entityID := by
  rw [hl.entityID, hm.entityID, utf8_injective.eq_iff]

/-- What is kept of the entries is what is kept of their lines. -/
theorem keepContents_lines {ls : List (Line Content)} (h : ∀ l ∈ ls, Names l) (cutoff : Time)
    (protectedEntities : List String) :
    keepContents (ls.map Line.payload) cutoff (protectedEntities.map utf8) =
      (Log.compact ls cutoff.instant protectedEntities).map Line.payload := by
  rw [keepContents, Log.compact, List.filter_map]
  refine congrArg _ (List.filter_congr fun l hl => ?_)
  have hprotected : l.payload.entityID ∈ protectedEntities.map utf8 ↔
      l.entityID ∈ protectedEntities := by
    rw [(h l hl).entityID]
    exact List.mem_map_of_injective utf8_injective
  have hrecent : ((ls.map Line.payload).any fun c =>
        !c.time.before cutoff ∧ c.entityID = l.payload.entityID) =
      ls.any fun m => !(m.time < cutoff.instant) ∧ m.entityID = l.entityID := by
    rw [List.any_map, List.any_eq, List.any_eq]
    refine decide_eq_decide.2 (exists_congr fun m => and_congr_right fun hm => ?_)
    rw [Function.comp_apply, decide_eq_true_iff, decide_eq_true_iff, (h m hm).before,
      (h l hl).entityID_eq (h m hm)]
  rw [Function.comp_apply, Log.retains, hrecent]
  simp only [hprotected]

/-! ## The relation -/

/-- The tape has what the store has acknowledged and what the file holds, and
takes appends where the store does. -/
structure Plays (w : World) (t : Tape Content) : Prop where
  inv : w.Inv
  acknowledged : t.entries.map Line.payload = w.acknowledged
  file : t.file.map Line.payload = (validChain w.disk.journal).map Entry.content
  names : ∀ l ∈ t.file, Names l
  degraded : t.degraded = false ↔ ∃ s ∈ w.store, s.state = .healthy
  opened : ∀ s ∈ w.store, s.state = .healthy → s.file = true

namespace Plays

variable {w w' : World} {t : Tape Content}

theorem names_entries (h : Plays w t) : ∀ l ∈ t.entries, Names l := fun l hl =>
  h.names l (List.mem_append_left _ hl)

/-- A call after which the store takes no appends and that has changed nothing
else. -/
theorem halt (h : Plays w t) (hinv : w'.Inv) (hacknowledged : w'.acknowledged = w.acknowledged)
    (hfile : validChain w'.disk.journal = validChain w.disk.journal)
    (hclosed : ∀ s ∈ w'.store, s.state ≠ .healthy) : Plays w' t.halt where
  inv := hinv
  acknowledged := h.acknowledged.trans hacknowledged.symm
  file := hfile ▸ h.file
  names := h.names
  degraded := by
    constructor
    · intro hfalse
      cases hfalse
    · rintro ⟨s, hs, hstate⟩
      exact absurd hstate (hclosed s hs)
  opened := fun s hs hstate => absurd hstate (hclosed s hs)

/-- A call that has changed nothing. -/
theorem same (h : Plays w t) (hinv : w'.Inv) (hacknowledged : w'.acknowledged = w.acknowledged)
    (hdisk : w'.disk = w.disk) (hstore : w'.store = w.store) : Plays w' t where
  inv := hinv
  acknowledged := h.acknowledged.trans hacknowledged.symm
  file := hdisk ▸ h.file
  names := h.names
  degraded := hstore ▸ h.degraded
  opened := hstore ▸ h.opened

/-- An append that is refused is lost, or its line is in the file. -/
theorem refuse (h : Plays w t) {s : Store} (hstore : w.store = some s) {now : Int}
    {entityID : String} {eventType : Text} {payload : Payload} {fault : Option Fault}
    {outcome : Outcome Entry}
    (hkept : w.Kept (.append now (utf8 entityID) eventType (some payload) fault))
    (hrefuses : s.Refuses w.disk (some (s.nextEntry now (utf8 entityID) eventType payload)) fault
      outcome)
    (hinv : World.Inv { w with disk := outcome.disk, store := some outcome.store, refused := true }) :
    ∃ fate, Plays { w with disk := outcome.disk, store := some outcome.store, refused := true }
      (t.append (lineOf now entityID eventType payload) fate).1 := by
  have hclosed : ∀ s' ∈ some outcome.store, s'.state ≠ .healthy := by
    intro s' hs'
    rw [← Option.some.inj hs']
    exact hrefuses.state
  have hlost : validChain outcome.disk.journal = validChain w.disk.journal →
      Plays { w with disk := outcome.disk, store := some outcome.store, refused := true }
        (t.append (lineOf now entityID eventType payload) .lost).1 := by
    intro hfile
    rw [Tape.append_lost]
    exact h.halt hinv rfl hfile hclosed
  rcases hrefuses.disk with hdisk | ⟨hhealthy, -, e, he, hmarshal, written, hjournal⟩
  · exact ⟨.lost, hlost (congrArg (fun disk => validChain disk.journal) hdisk)⟩
  obtain rfl := Option.some.inj he
  obtain ⟨body, tail, es, hrests⟩ := h.inv
  obtain ⟨rfl, htip, -⟩ := (hrests.store s hstore).2.2 hhealthy
  obtain ⟨hended, hid, htype, hdepth, -⟩ := hkept s hstore hhealthy hmarshal
  obtain ⟨hreadable, hnormal⟩ := readable_nextEntry htip hrests.readable hid htype hdepth
  have hwritten : (s.nextEntry now (utf8 entityID) eventType payload).Written :=
    ⟨hreadable, rfl, writable_of_marshal hreadable hmarshal⟩
  have hbody := hrests.file
  rw [List.append_nil] at hbody
  have hold : validChain w.disk.journal = es := by
    rw [validChain, hbody, hrests.read]
  rw [hbody] at hended
  have hnew : validChain outcome.disk.journal = es ++ (readLines (tipFrom (0, []) es).1
      (tipFrom (0, []) es).2 (lines (((s.nextEntry now (utf8 entityID) eventType payload).line ++
        [newline]).take written))).1 := by
    rw [validChain, hjournal, Option.getD_some, hbody, lines_ended hended,
      readLines_append _ hrests.read]
  rcases readLines_tail hwritten hnormal (List.take_prefix written _) (tipFrom (0, []) es).1
    (tipFrom (0, []) es).2 with hnone | hall
  · rw [hnone, List.append_nil, ← hold] at hnew
    exact ⟨.lost, hlost hnew⟩
  · have hdegraded : t.degraded = false := h.degraded.2 ⟨s, hstore, hhealthy⟩
    have hstray := Tape.stray_of_healthy hdegraded
    have happend : (t.append (lineOf now entityID eventType payload) .unacknowledged).1 =
        { t with
          stray := some (lineOf now entityID eventType payload)
          degraded := true
          halted := fun _ => rfl } := by
      rw [Tape.append, if_neg (by simp [hdegraded])]
    have hentries : t.file = t.entries := by rw [Tape.file, hstray, Option.toList, List.append_nil]
    refine ⟨.unacknowledged, ?_⟩
    rw [happend]
    refine ⟨hinv, h.acknowledged, ?_, ?_, ?_, ?_⟩
    · have hfile := h.file
      rw [hold, hentries] at hfile
      show List.map _ (t.entries ++ [lineOf now entityID eventType payload]) = _
      rw [hnew, hall, List.map_append, List.map_append, hfile]
      rfl
    · exact List.forall_mem_append.2 ⟨h.names_entries,
        List.forall_mem_singleton.2 (names_lineOf now entityID eventType payload)⟩
    · constructor
      · intro hfalse
        cases hfalse
      · rintro ⟨s', hs', hstate⟩
        exact absurd hstate (hclosed s' hs')
    · exact fun s' hs' hstate => absurd hstate (hclosed s' hs')

/-- One that is acknowledged is written. -/
theorem acknowledge (h : Plays w t) {s : Store} (hstore : w.store = some s) {now : Int}
    {entityID : String} {eventType : Text} {payload : Payload} {fault : Option Fault}
    {outcome : Outcome Entry}
    (hkept : w.Kept (.append now (utf8 entityID) eventType (some payload) fault))
    (hacknowledges :
      s.Acknowledges w.disk (s.nextEntry now (utf8 entityID) eventType payload) outcome) :
    Plays { w with
        disk := outcome.disk
        store := some outcome.store
        acknowledged := w.acknowledged ++ [⟨{ instant := now }, utf8 entityID, eventType,
          payload.text⟩] }
      (t.append (lineOf now entityID eventType payload) .written).1 := by
  have hdegraded : t.degraded = false := h.degraded.2 ⟨s, hstore, hacknowledges.state⟩
  have hstray := Tape.stray_of_healthy hdegraded
  obtain ⟨body, tail, es, hrests⟩ := h.inv
  have hnext := hrests.acknowledge hstore hkept hacknowledges
  have hchain := hnext.file
  rw [List.append_nil] at hchain
  have happend : (t.append (lineOf now entityID eventType payload) .written).1 =
      { t with entries := t.entries ++ [lineOf now entityID eventType payload] } := by
    rw [Tape.append, if_neg (by simp [hdegraded])]
  have hacknowledged : (t.entries ++ [lineOf now entityID eventType payload]).map Line.payload =
      w.acknowledged ++ [⟨{ instant := now }, utf8 entityID, eventType, payload.text⟩] := by
    rw [List.map_append, h.acknowledged]
    rfl
  rw [happend]
  refine ⟨⟨_, _, _, hnext⟩, hacknowledged, ?_, ?_, ?_, ?_⟩
  · show List.map _ (t.entries ++ _ ++ t.stray.toList) = List.map _ (validChain outcome.disk.journal)
    rw [hstray, Option.toList, List.append_nil, hacknowledged, validChain]
    have hread := hnext.read
    rw [hchain, hread]
    exact hnext.acknowledged
  · show ∀ l ∈ t.entries ++ _ ++ t.stray.toList, _
    rw [hstray, Option.toList, List.append_nil]
    exact List.forall_mem_append.2 ⟨h.names_entries,
      List.forall_mem_singleton.2 (names_lineOf now entityID eventType payload)⟩
  · refine ⟨fun _ => ⟨_, rfl, ?_⟩, fun _ => hdegraded⟩
    rw [hacknowledges.store]
    exact hacknowledges.state
  · rintro _ ⟨⟩ -
    rw [hacknowledges.store]
    exact h.opened s hstore hacknowledges.state

theorem append (h : Plays w t) {now : Int} {entityID : String} {eventType : Text}
    {payload : Option Payload} {fault : Option Fault}
    (hkept : w.Kept (.append now (utf8 entityID) eventType payload fault)) :
    ∃ t', Moves t (.append now entityID eventType payload fault) t' ∧
      Plays (w.step (.append now (utf8 entityID) eventType payload fault)) t' := by
  have hinv := h.inv.step hkept
  cases payload with
  | none =>
      refine ⟨_, rfl, ?_⟩
      cases hstore : w.store with
      | none =>
          have hstep : w.step (.append now (utf8 entityID) eventType none fault) = w := by
            rw [World.step, hstore]
          rw [hstep]
          exact h.halt h.inv rfl rfl fun s hs => absurd (hstore ▸ hs) (Option.not_mem_none s)
      | some s =>
          have hstep : w.step (.append now (utf8 entityID) eventType none fault) =
              { w with store := some (s.recordFailure .encode), refused := true } := by
            rw [World.step, hstore]
            rfl
          rw [hstep] at hinv ⊢
          refine h.halt hinv rfl rfl ?_
          rintro _ ⟨⟩
          exact s.state_recordFailure .encode
  | some p =>
      suffices hfate : ∃ fate, Plays (w.step (.append now (utf8 entityID) eventType (some p) fault))
          (t.append (lineOf now entityID eventType p) fate).1 by
        obtain ⟨fate, hplays⟩ := hfate
        exact ⟨_, ⟨fate, rfl⟩, hplays⟩
      cases hstore : w.store with
      | none =>
          have hstep : w.step (.append now (utf8 entityID) eventType (some p) fault) = w := by
            rw [World.step, hstore]
          rw [hstep]
          refine ⟨.lost, ?_⟩
          rw [Tape.append_lost]
          exact h.halt h.inv rfl rfl fun s hs => absurd (hstore ▸ hs) (Option.not_mem_none s)
      | some s =>
          rw [World.step, hstore] at hinv ⊢
          dsimp only at hinv ⊢
          rcases s.append_cases w.disk now (utf8 entityID) eventType (some p) fault with
            hrefuses | ⟨p', hp, hacknowledges⟩
          · obtain ⟨err, hresult⟩ := hrefuses.result
            rw [hresult] at hinv ⊢
            exact h.refuse hstore hkept hrefuses hinv
          · obtain rfl : p = p' := Option.some.inj hp
            rw [hacknowledges.result]
            exact ⟨.written, h.acknowledge hstore hkept hacknowledges⟩

/-- A compaction that has replaced the journal. -/
theorem rewrite (h : Plays w t) {s : Store} (hstore : w.store = some s) {cutoff : Time}
    {protectedEntities : List String} {fault : Option Fault}
    (hkept : w.Kept (.compact cutoff (protectedEntities.map utf8) fault))
    (hsome : s.retained cutoff (protectedEntities.map utf8) ≠ s.entries) {removed : Nat}
    (hrewrites : s.Rewrites w.disk
      (Store.rebuildChain (s.retained cutoff (protectedEntities.map utf8))) removed fault
      (s.compact w.disk cutoff (protectedEntities.map utf8) fault)) :
    ∃ fate, Plays { w with
        disk := (s.compact w.disk cutoff (protectedEntities.map utf8) fault).disk
        store := some (s.compact w.disk cutoff (protectedEntities.map utf8) fault).store
        acknowledged := keepContents w.acknowledged cutoff (protectedEntities.map utf8) }
      (t.compact cutoff.instant protectedEntities fate) := by
  obtain ⟨body, tail, es, hrests⟩ := h.inv
  have hnext := hrests.rewrite hstore hkept hsome hrewrites
  have hcontent := s.content_retained cutoff (protectedEntities.map utf8)
  rw [(hrests.store s hstore).1, ← hrests.acknowledged] at hcontent
  have hlines := keepContents_lines h.names_entries cutoff protectedEntities
  rw [h.acknowledged] at hlines
  have hlength : (Log.compact t.entries cutoff.instant protectedEntities).length ≠
      t.entries.length := by
    intro heq
    refine hsome (List.Sublist.eq_of_length List.filter_sublist ?_)
    have hkeep := congrArg List.length (hcontent.trans hlines)
    have hall := congrArg List.length h.acknowledged
    rw [List.length_map, List.length_map] at hkeep
    rw [hrests.acknowledged, List.length_map, List.length_map] at hall
    rw [hkeep, heq, hall, (hrests.store s hstore).1]
  have hread := hnext.read
  have hchain := hnext.file
  rw [List.append_nil] at hchain
  have hfile : (Log.compact t.entries cutoff.instant protectedEntities).map Line.payload =
      (validChain (s.compact w.disk cutoff (protectedEntities.map utf8) fault).disk.journal).map
        Entry.content := by
    rw [validChain, hchain, hread]
    exact hlines.symm.trans hnext.acknowledged
  have hnames : ∀ l ∈ Log.compact t.entries cutoff.instant protectedEntities, Names l :=
    fun l hl => h.names_entries l (List.mem_of_mem_filter hl)
  rcases hrewrites.result with ⟨hresult, hstate, -⟩ | ⟨-, hresult, hstate⟩
  · have hcompact : t.compact cutoff.instant protectedEntities .written =
        { t with
          entries := Log.compact t.entries cutoff.instant protectedEntities
          stray := none
          halted := by simp } := by
      rw [Tape.compact, if_neg hlength]
    refine ⟨.written, ?_⟩
    rw [hcompact]
    refine ⟨⟨_, _, _, hnext⟩, hlines.symm, ?_, ?_, ?_, ?_⟩
    · rw [← hfile, Tape.file, Option.toList, List.append_nil]
    · rw [Tape.file, Option.toList, List.append_nil]
      exact hnames
    · refine h.degraded.trans ⟨?_, ?_⟩
      · rintro ⟨s', hs', hhealthy⟩
        rw [hstore] at hs'
        cases hs'
        exact ⟨_, rfl, hstate.trans hhealthy⟩
      · rintro ⟨_, ⟨⟩, hhealthy⟩
        exact ⟨s, hstore, hstate.symm.trans hhealthy⟩
    · rintro _ ⟨⟩ hhealthy
      exact s.file_compact _ _ _ _ (h.opened s hstore (hstate.symm.trans hhealthy))
  · have hcompact : t.compact cutoff.instant protectedEntities .unacknowledged =
        { entries := Log.compact t.entries cutoff.instant protectedEntities, degraded := true } := by
      rw [Tape.compact, if_neg hlength]
    refine ⟨.unacknowledged, ?_⟩
    rw [hcompact]
    refine ⟨⟨_, _, _, hnext⟩, hlines.symm, ?_, ?_, ?_, ?_⟩
    · rw [← hfile, Tape.file, Option.toList, List.append_nil]
    · rw [Tape.file, Option.toList, List.append_nil]
      exact hnames
    · constructor
      · intro hfalse
        cases hfalse
      · rintro ⟨_, ⟨⟩, hhealthy⟩
        exact absurd hhealthy hstate
    · rintro _ ⟨⟩ hhealthy
      exact absurd hhealthy hstate

theorem compact (h : Plays w t) {cutoff : Time} {protectedEntities : List String}
    {fault : Option Fault} (hkept : w.Kept (.compact cutoff (protectedEntities.map utf8) fault)) :
    ∃ t', Moves t (.compact cutoff protectedEntities fault) t' ∧
      Plays (w.step (.compact cutoff (protectedEntities.map utf8) fault)) t' := by
  have hinv := h.inv.step hkept
  suffices hfate : ∃ fate, Plays (w.step (.compact cutoff (protectedEntities.map utf8) fault))
      (t.compact cutoff.instant protectedEntities fate) by
    obtain ⟨fate, hplays⟩ := hfate
    exact ⟨_, ⟨fate, rfl⟩, hplays⟩
  cases hstore : w.store with
  | none =>
      have hstep : w.step (.compact cutoff (protectedEntities.map utf8) fault) = w := by
        rw [World.step, hstore]
      rw [hstep]
      exact ⟨.lost, (t.compact_lost _ _).symm ▸ h⟩
  | some s =>
      rw [World.step, hstore] at hinv ⊢
      dsimp only at hinv ⊢
      rcases s.compact_cases w.disk cutoff (protectedEntities.map utf8) fault with
        ⟨hdisk, hsame, ⟨hresult, hall⟩ | hresult⟩ | ⟨hsome, hrewrites⟩
      · obtain ⟨body, tail, es, hrests⟩ := h.inv
        have hcontent := s.content_retained cutoff (protectedEntities.map utf8)
        rw [hall, (hrests.store s hstore).1, ← hrests.acknowledged] at hcontent
        rw [hresult] at hinv ⊢
        rw [hsame] at hinv ⊢
        refine ⟨.lost, (t.compact_lost _ _).symm ▸ h.same hinv hcontent.symm hdisk hstore.symm⟩
      · rw [hresult] at hinv ⊢
        rw [hsame] at hinv ⊢
        exact ⟨.lost, (t.compact_lost _ _).symm ▸ h.same hinv rfl hdisk hstore.symm⟩
      · rcases hrewrites.result with ⟨hresult, -, -⟩ | ⟨-, hresult, -⟩
        · rw [hresult]
          exact h.rewrite hstore hkept hsome hrewrites
        · rw [hresult]
          exact h.rewrite hstore hkept hsome hrewrites

theorem close (h : Plays w t) : Plays (w.step .close) t.halt := by
  refine h.halt (h.inv.step (i := .close) trivial) rfl rfl ?_
  intro s' hs'
  obtain ⟨s, hs, rfl⟩ := Option.map_eq_some_iff.1 hs'
  rw [Store.close]
  split
  · exact State.noConfusion
  next hfile => exact fun hstate => hfile (h.opened s hs hstate)

theorem reopen (h : Plays w t) (sync : Bool) :
    ∃ t', Moves t (.reopen sync) t' ∧ Plays (w.step (.reopen sync)) t' := by
  have hinv := h.inv.step (i := .reopen sync) trivial
  obtain ⟨hjournal, ⟨err, herror⟩ | ⟨es, hread, hok⟩⟩ := openWithIntegrity_cases w.disk sync w.key
  · have hstep : w.step (.reopen sync) =
        { w with disk := (openWithIntegrity w.disk sync w.key).1, store := none } := by
      rw [World.step, ← Prod.eta (openWithIntegrity w.disk sync w.key), herror]
    rw [hstep] at hinv ⊢
    refine ⟨t.halt, .inr rfl, h.halt hinv rfl ?_ fun s hs => absurd hs (Option.not_mem_none s)⟩
    rw [validChain, validChain, hjournal]
  · have hstep : w.step (.reopen sync) = World.opened w.key
        (openWithIntegrity w.disk sync w.key).1 (.ofEntries es sync w.key) := by
      rw [World.step, ← Prod.eta (openWithIntegrity w.disk sync w.key), hok]
    have hchain : validChain w.disk.journal = es := validChain_of_ok hread
    rw [hstep] at hinv ⊢
    refine ⟨t.reopen, .inl rfl, hinv, ?_, ?_, ?_, ?_, ?_⟩
    · show t.file.map Line.payload = es.map Entry.content
      rw [h.file, hchain]
    · show (t.file ++ []).map Line.payload = List.map Entry.content (validChain (openWithIntegrity
        w.disk sync w.key).1.journal)
      rw [List.append_nil, h.file, validChain, validChain, hjournal]
    · show ∀ l ∈ t.file ++ [], Names l
      rw [List.append_nil]
      exact h.names
    · exact ⟨fun _ => ⟨_, rfl, rfl⟩, fun _ => rfl⟩
    · rintro _ ⟨⟩ -
      rfl

theorem call (h : Plays w t) {c : Call} (hkept : w.Kept c.input) :
    ∃ t', Moves t c t' ∧ Plays (w.call c) t' := by
  cases c with
  | reopen sync => exact h.reopen sync
  | append now entityID eventType payload fault => exact h.append hkept
  | compact cutoff protectedEntities fault => exact h.compact hkept
  | close => exact ⟨t.halt, rfl, h.close⟩

end Plays

/-- A journal that has just been opened, and its lines. -/
theorem plays_opened {disk disk' : Disk} {sync : Bool} {key : Text} {s : Store}
    (hopen : openWithIntegrity disk sync key = (disk', .ok s))
    (hnormal : ∀ e ∈ s.entries, e.normal = e) {ls : List (Line Content)}
    (hlines : ls.map Line.payload = s.entries.map Entry.content) (hnames : ∀ l ∈ ls, Names l) :
    Plays (.opened key disk' s) { entries := ls } := by
  obtain ⟨hrests, hs⟩ := World.rests_opened hopen hnormal
  have hchain : validChain disk'.journal = s.entries := by
    have hfile := hrests.file
    rw [List.append_nil] at hfile
    rw [validChain, show disk'.journal.getD [] = disk.journal.getD [] from hfile, hrests.read]
  have hstate : s.state = .healthy ∧ s.file = true := by
    rw [hs]
    exact ⟨rfl, rfl⟩
  refine ⟨⟨_, _, _, hrests⟩, hlines, ?_, ?_, ?_, ?_⟩
  · rw [Tape.file, Option.toList, List.append_nil]
    exact hlines.trans (congrArg (List.map Entry.content) hchain.symm)
  · rw [Tape.file, Option.toList, List.append_nil]
    exact hnames
  · exact ⟨fun _ => ⟨s, rfl, hstate.1⟩, fun _ => rfl⟩
  · rintro _ ⟨⟩ -
    exact hstate.2

/-- **The journal refines its tape.** -/
theorem journal_refines_tape {disk disk' : Disk} {sync : Bool} {key : Text} {s : Store}
    (hopen : openWithIntegrity disk sync key = (disk', .ok s))
    (hnormal : ∀ e ∈ s.entries, e.normal = e) {ls : List (Line Content)}
    (hlines : ls.map Line.payload = s.entries.map Entry.content) (hnames : ∀ l ∈ ls, Names l)
    {calls : List Call}
    (hkept : Along World.call (fun w c => w.Kept c.input) (World.opened key disk' s) calls) :
    InStep World.call Moves Plays (World.opened key disk' s) { entries := ls } calls :=
  Along.inStep (fun _ _ _ h hkept => h.call hkept) (plays_opened hopen hnormal hlines hnames) hkept

/-- A new journal, a write that fails in the middle of the first line, an open
and a close. -/
theorem journal_refines_tape_torn : InStep World.call Moves Plays
    (World.opened [] { journal := some [] } (.ofEntries [] false [])) {}
    [.append World.midnight "request-1" (utf8 "start") (some .null) (some (.write 20)), .reopen false,
      .close] := by
  refine @journal_refines_tape {} { journal := some [] } false [] (.ofEntries [] false []) rfl
    (fun _ h => absurd h List.not_mem_nil) [] rfl (fun _ h => absurd h List.not_mem_nil) _
    ⟨?_, trivial, trivial, trivial⟩
  rintro _ ⟨⟩ - -
  exact ⟨.inl rfl, isUTF8_of_all (by decide), isUTF8_of_all (by decide), by decide,
    World.first_fits⟩

end Wire

end RelayLifeline.Journal
