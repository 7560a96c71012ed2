import RelayLifeline.Proofs.Agreement

/-!
# What a crash leaves of an anchored journal

Opening accepts a journal whose anchor names its last entry, and nothing else
if there is an anchor at all. An append or a compaction changes the journal
first and the anchor after it, so between the two effects the anchor names an
entry that is no longer last, and nothing on open repairs that. So what a run
leaves can be opened, and gives back what was acknowledged, as long as every
operation that changes the journal also gets the anchor into place before it
fails or dies, and writes no line that is not read back.
-/

namespace RelayLifeline.Journal.Wire

open Lib Lib.Json

/-! ## Where an operation stops -/

namespace Store

variable (s : Store) {disk : Disk} (now : Int) (entityID eventType : Text)
  (payload : Option Payload) (cutoff : Time) (protectedEntities : List Text)

/-- An append that writes nothing of its line leaves the files and is refused. -/
theorem append_idle (hjournal : disk.journal ≠ none) :
    (s.append disk now entityID eventType payload (some (.write 0))).disk = disk ∧
      ∃ err, (s.append disk now entityID eventType payload (some (.write 0))).result =
        .error err := by
  obtain ⟨file, hfile⟩ := Option.ne_none_iff_exists'.1 hjournal
  have hnothing : disk.write [] = disk := by
    rw [Disk.write, hfile, Option.getD_some, List.append_nil, ← hfile]
  cases payload with
  | none => exact ⟨rfl, _, rfl⟩
  | some payload =>
    rw [append]
    dsimp only
    split
    next => exact ⟨rfl, _, rfl⟩
    next =>
      split
      next => exact ⟨rfl, _, rfl⟩
      next =>
        split
        next => exact ⟨rfl, _, rfl⟩
        next written _ hfault =>
          cases hfault
          exact ⟨hnothing, _, rfl⟩
        next hother => exact absurd rfl (hother 0)

/-- What is no part of an append. -/
def Ignores (fault : Fault) : Prop :=
  fault = .encode ∨ fault = .rename ∨ fault = .sync ∧ s.sync = false

theorem append_ignores {fault : Fault} (h : s.Ignores fault) :
    s.append disk now entityID eventType payload (some fault) =
      s.append disk now entityID eventType payload none := by
  cases payload with
  | none => rfl
  | some payload =>
    simp only [append]
    cases (s.nextEntry now entityID eventType payload).marshal with
    | none => rfl
    | some line =>
      rcases h with rfl | rfl | ⟨rfl, hsync⟩
      · simp [commit]
      · simp [commit]
      · simp [commit, hsync]

/-- Once the anchor is in place, the files are those that the operation leaves. -/
theorem commit_directory {α : Type} (done : Store) (value : α) :
    (s.commit disk (some .directory) done value).disk = (s.commit disk none done value).disk := by
  rw [commit, commit]
  split
  next => rfl
  next => rfl

theorem append_directory :
    (s.append disk now entityID eventType payload (some .directory)).disk =
      (s.append disk now entityID eventType payload none).disk := by
  cases payload with
  | none => rfl
  | some payload =>
    simp only [append]
    cases (s.nextEntry now entityID eventType payload).marshal with
    | none => rfl
    | some line =>
      split
      next => rfl
      next =>
        split
        next => rfl
        next => simp [commit_directory]

/-- An append that gets no further has written its line. -/
theorem append_anchor {payload : Payload} {line : Text} (hfile : s.file = true)
    (hstate : s.state = .healthy) (hkey : s.integrityKey ≠ [])
    (hmarshal : (s.nextEntry now entityID eventType payload).marshal = some line) :
    (s.append disk now entityID eventType (some payload) (some .anchor)).disk =
      disk.write (line ++ [newline]) := by
  have hopen : ¬ ((!s.file) = true ∨ s.state = .closed) := by simp [hfile, hstate]
  rw [append, if_neg hopen, if_neg (by simp [hstate])]
  dsimp only
  rw [hmarshal]
  dsimp only
  rw [if_neg (by simp), commit, if_neg hkey, if_pos rfl]
  rfl

theorem compact_directory :
    (s.compact disk cutoff protectedEntities (some .directory)).disk =
      (s.compact disk cutoff protectedEntities none).disk := by
  rw [compact, compact]
  dsimp only
  rw [show (some Fault.directory).any Fault.precedes = Option.any Fault.precedes none from rfl]
  split
  next => rfl
  next =>
    split
    next => rfl
    next => exact commit_directory _ _ _

theorem length_retained : s.entries.length - (s.retained cutoff protectedEntities).length = 0 ↔
    s.retained cutoff protectedEntities = s.entries := by
  have hsublist : (s.retained cutoff protectedEntities).Sublist s.entries := List.filter_sublist
  refine ⟨fun h => hsublist.eq_of_length_le (Nat.le_of_sub_eq_zero h), fun h => ?_⟩
  rw [h, Nat.sub_self]

/-- A compaction that leaves everything as it is. -/
def Leaves (disk : Disk) (cutoff : Time) (protectedEntities : List Text) (outcome : Outcome Nat) :
    Prop :=
  outcome.disk = disk ∧ outcome.store = s ∧
    (outcome.result = .ok 0 ∧ s.retained cutoff protectedEntities = s.entries ∨
      outcome.result = .error .uncommitted)

/-- It does where it does not get to the rename. -/
theorem compact_precedes {fault : Fault} (h : Fault.precedes fault = true) :
    s.Leaves disk cutoff protectedEntities
      (s.compact disk cutoff protectedEntities (some fault)) := by
  rw [compact]
  dsimp only
  split
  next hnone => exact ⟨rfl, rfl, .inl ⟨rfl, (s.length_retained _ _).1 hnone⟩⟩
  next =>
    rw [if_pos (.inl h)]
    exact ⟨rfl, rfl, .inr rfl⟩

end Store

/-! ## What a process keeps -/

/-- The store is left, or a store that takes no more. -/
theorem World.Whole.left {w : World} {body : Text} {es : List Entry} {s s' : Store}
    (h : w.Whole body es) (hs : w.store = some s)
    (hleft : s' = s ∨ s'.entries = s.entries ∧ s'.integrityKey = s.integrityKey ∧
      s'.state ≠ .healthy) : ({ w with store := some s' } : World).Whole body es := by
  obtain ⟨hentries, hkey, hhealthy⟩ := h.rests.store s hs
  refine ⟨⟨h.rests.file, h.rests.read, h.rests.normal, h.rests.part, h.rests.acknowledged, ?_⟩,
    Option.some_ne_none _, h.journal, h.anchored⟩
  rintro _ ⟨⟩
  rcases hleft with rfl | ⟨hentries', hkey', hstate⟩
  · exact ⟨hentries, hkey, hhealthy⟩
  · exact ⟨hentries'.trans hentries, hkey'.trans hkey, fun h => absurd h hstate⟩

namespace Process

/-- The next open gives back what was acknowledged, or what was in flight. -/
def Recovers (p : Process) : Prop :=
  ∀ sync, ∃ disk s, openWithIntegrity p.disk sync p.key = (disk, .ok s) ∧
    (s.entries = p.acknowledged ∨ p.inFlight = some s.entries)

/-- Where the operation stops, the anchor is in place. -/
def Through (s : Store) (halt : Option Halt) : Prop :=
  ∀ st ∈ halt, st = .dies .anchored ∨ ∃ fault, st = .fails fault ∧ s.Ignores fault

/-- An operation that changes the journal gets the anchor into place before it
fails or dies, and writes only lines that the reader takes. -/
def Sealed (p : Process) : Operation → Prop
  | .append now entityID eventType (some payload) halt =>
      ∀ s ∈ p.store, s.state = .healthy →
        (s.nextEntry now entityID eventType payload).marshal ≠ none →
          halt.map Halt.fault = some (.write 0) ∨
            Through s halt ∧ Ended (p.disk.journal.getD []) ∧ IsUTF8 entityID ∧
              IsUTF8 eventType ∧ payload.document.depth < maxNestingDepth ∧
                (s.nextEntry now entityID eventType payload).Fits
  | .compact cutoff protectedEntities halt =>
      ∀ s ∈ p.store, s.retained cutoff protectedEntities ≠ s.entries →
        (∀ e ∈ Store.rebuildChain (s.retained cutoff protectedEntities), e.marshal ≠ none) →
          (halt.map Halt.fault).any Store.Fault.precedes = true ∨
            Through s halt ∧
              ∀ e ∈ Store.rebuildChain (s.retained cutoff protectedEntities), e.Fits
  | _ => True

/-- The files of the process are those of a whole journal, which has what was
acknowledged or what was in flight. -/
structure Consistent (p : Process) (w : World) (body : Text) (es : List Entry) : Prop where
  whole : w.Whole body es
  key : w.key = p.key
  disk : w.disk = p.disk
  store : p.store = none ∨ p.store = w.store ∧ p.acknowledged = es
  entries : p.acknowledged = es ∨ p.inFlight = some es

/-- The invariant of a run. -/
def Inv (p : Process) : Prop := ∃ w body es, p.Consistent w body es

section Finish

variable {p : Process} {w : World} {body : Text} {es : List Entry} {s : Store} {α : Type}
  {perform : Option Fault → Outcome α} {halt : Option Halt} {next : α → List Entry}

theorem Consistent.recovers (h : p.Consistent w body es) : p.Recovers := by
  intro sync
  have hopens := (h.whole.opens sync).2
  rw [h.key, h.disk] at hopens
  exact ⟨_, _, hopens, h.entries.imp Eq.symm id⟩

theorem Consistent.of_live (h : p.Consistent w body es) (hs : p.store = some s) :
    w.store = some s ∧ p.acknowledged = es ∧ s.entries = es := by
  rcases h.store with hnone | ⟨hstore, hentries⟩
  · exact absurd (hs.symm.trans hnone) (Option.some_ne_none _)
  · have hw : w.store = some s := hstore.symm.trans hs
    exact ⟨hw, hentries, (h.whole.rests.store s hw).1⟩

/-- An operation that leaves the files leaves what they give back. -/
theorem Consistent.finish_idle (h : p.Consistent w body es) (hs : p.store = some s)
    (hdisk : (perform (halt.map Halt.fault)).disk = p.disk)
    (hleft : let s' := (perform (halt.map Halt.fault)).store
      s' = s ∨ s'.entries = s.entries ∧ s'.integrityKey = s.integrityKey ∧ s'.state ≠ .healthy)
    (htaken : p.taken (perform (halt.map Halt.fault)).result next = p.acknowledged) :
    (p.finish perform halt next).Inv := by
  obtain ⟨hw, hentries, -⟩ := h.of_live hs
  have hentries' := htaken.trans hentries
  have hreturns : Inv { p with
      disk := (perform (halt.map Halt.fault)).disk
      store := some (perform (halt.map Halt.fault)).store
      acknowledged := p.taken (perform (halt.map Halt.fault)).result next } :=
    ⟨_, body, es, h.whole.left hw hleft, h.key, h.disk.trans hdisk.symm, .inr ⟨rfl, hentries'⟩,
      .inl hentries'⟩
  rcases halt with _ | fault | death
  · exact hreturns
  · exact hreturns
  · exact ⟨w, body, es, h.whole, h.key, h.disk.trans hdisk.symm, .inl rfl, .inl hentries⟩

/-- An operation that gets the anchor into place leaves what it was to make. -/
theorem Consistent.finish_through (h : p.Consistent w body es) {w' : World} (hintact : w'.Intact)
    (hkey : w'.key = w.key) (hdisk : w'.disk = (perform none).disk)
    (hstore : w'.store = some (perform none).store)
    (htaken : p.taken (perform none).result next = (perform none).store.entries)
    (hdirectory : (perform (some .directory)).disk = (perform none).disk)
    (hstop : ∀ st ∈ halt, st = .dies .anchored ∨
      ∃ fault, st = .fails fault ∧ perform (some fault) = perform none) :
    (p.finish perform halt next).Inv := by
  obtain ⟨body', es', hwhole⟩ := hintact
  have hentries := htaken.trans (hwhole.rests.store _ hstore).1
  have hreturns : (p.finish perform none next).Inv :=
    ⟨w', body', es', hwhole, hkey.trans h.key, hdisk, .inr ⟨hstore.symm, hentries⟩,
      .inl hentries⟩
  cases halt with
  | none => exact hreturns
  | some st =>
    rcases hstop st rfl with rfl | ⟨fault, rfl, hsame⟩
    · exact ⟨w', body', es', hwhole, hkey.trans h.key, hdisk.trans hdirectory.symm, .inl rfl,
        .inr (congrArg some hentries)⟩
    · show Inv { p with
        disk := (perform (some fault)).disk
        store := some (perform (some fault)).store
        acknowledged := p.taken (perform (some fault)).result next }
      rw [hsame]
      exact hreturns

end Finish

/-! ## Appending -/

section Append

variable {p : Process} {w : World} {body : Text} {es : List Entry} {s : Store} {now : Int}
  {entityID eventType : Text} {payload : Option Payload} {halt : Option Halt}

/-- What is acknowledged after an append is what the store has then. -/
theorem taken_append (hentries : p.acknowledged = s.entries) (fault : Option Fault) :
    p.taken (s.append p.disk now entityID eventType payload fault).result
        (fun entry => p.acknowledged ++ [entry]) =
      (s.append p.disk now entityID eventType payload fault).store.entries := by
  rcases s.append_cases p.disk now entityID eventType payload fault with
    hrefuses | ⟨_, -, hacknowledges⟩
  · obtain ⟨err, hresult⟩ := hrefuses.result
    rw [hresult, hrefuses.entries]
    exact hentries
  · rw [hacknowledges.result, hacknowledges.store, taken, hentries]

/-- An append that is refused with the files as they were. -/
theorem Consistent.append_refused (h : p.Consistent w body es) (hs : p.store = some s)
    (hrefuses : s.Refuses p.disk (payload.map (s.nextEntry now entityID eventType))
      (halt.map Halt.fault)
      (s.append p.disk now entityID eventType payload (halt.map Halt.fault)))
    (hdisk : (s.append p.disk now entityID eventType payload (halt.map Halt.fault)).disk =
      p.disk) :
    (p.step (.append now entityID eventType payload halt)).Inv := by
  rw [step, hs]
  refine h.finish_idle hs hdisk (.inr ⟨hrefuses.entries, hrefuses.key, hrefuses.state⟩) ?_
  obtain ⟨err, hresult⟩ := hrefuses.result
  rw [hresult]
  rfl

theorem step_append_intact (h : w.Whole body es) (hw : w.store = some s)
    (hkept : w.Kept (.append now entityID eventType payload none)) :
    ∃ w' : World, w'.Intact ∧ w'.key = w.key ∧
      w'.disk = (s.append w.disk now entityID eventType payload none).disk ∧
        w'.store = some (s.append w.disk now entityID eventType payload none).store := by
  have hfault : World.Faultless (.append now entityID eventType payload none) := rfl
  refine ⟨_, h.step hfault hkept, World.step_key w _, ?_⟩
  rw [World.step, hw]
  dsimp only
  split
  next => exact ⟨rfl, rfl⟩
  next => exact ⟨rfl, rfl⟩

theorem Consistent.append (h : p.Consistent w body es) (hs : p.store = some s)
    (hsealed : p.Sealed (.append now entityID eventType payload halt)) :
    (p.step (.append now entityID eventType payload halt)).Inv := by
  obtain ⟨hw, hack, hentries⟩ := h.of_live hs
  have hjournal : p.disk.journal ≠ none := h.disk ▸ h.whole.journal
  by_cases hwrites : s.state = .healthy ∧ ∃ p ∈ payload,
      (s.nextEntry now entityID eventType p).marshal ≠ none
  · obtain ⟨hstate, payload, rfl, hmarshal⟩ := hwrites
    rcases hsealed s hs hstate hmarshal with hidle | ⟨hthrough, hended, hid, htype, hdepth, hfits⟩
    · obtain ⟨hdisk, err, hresult⟩ :=
        s.append_idle now entityID eventType (some payload) hjournal
      rcases s.append_cases p.disk now entityID eventType (some payload)
        (halt.map Halt.fault) with hrefuses | ⟨_, -, hacknowledges⟩
      · exact h.append_refused hs hrefuses (by rw [hidle]; exact hdisk)
      · have hok := hacknowledges.result
        rw [hidle, hresult] at hok
        cases hok
    · have hkept : w.Kept (.append now entityID eventType (some payload) none) := by
        intro s' hs' _ _
        obtain rfl := Option.some.inj (hw.symm.trans hs')
        exact ⟨h.disk ▸ hended, hid, htype, hdepth, hfits⟩
      obtain ⟨w', hintact, hkey, hdisk, hstore⟩ := step_append_intact h.whole hw hkept
      rw [h.disk] at hdisk hstore
      rw [step, hs]
      refine h.finish_through hintact hkey hdisk hstore
        (taken_append (hack.trans hentries.symm) none) (s.append_directory _ _ _ _) ?_
      intro st hst
      refine (hthrough st hst).imp id ?_
      rintro ⟨fault, rfl, hignores⟩
      exact ⟨fault, rfl, s.append_ignores _ _ _ _ hignores⟩
  · rcases s.append_cases p.disk now entityID eventType payload (halt.map Halt.fault) with
      hrefuses | ⟨payload, rfl, hacknowledges⟩
    · refine h.append_refused hs hrefuses ?_
      rcases hrefuses.disk with hdisk | ⟨hstate, -, e, he, hmarshal, -⟩
      · exact hdisk
      · obtain ⟨payload, rfl, rfl⟩ := Option.map_eq_some_iff.1 he
        exact absurd ⟨hstate, payload, rfl, hmarshal⟩ hwrites
    · exact absurd ⟨hacknowledges.state, payload, rfl, hacknowledges.marshals⟩ hwrites

end Append

/-! ## Compacting -/

section Compact

variable {p : Process} {w : World} {body : Text} {es : List Entry} {s : Store} {cutoff : Time}
  {protectedEntities : List Text} {halt : Option Halt}

theorem compacted_entries : compacted s.entries cutoff protectedEntities =
    if s.entries.length - (s.retained cutoff protectedEntities).length = 0 then s.entries
    else Store.rebuildChain (s.retained cutoff protectedEntities) := rfl

theorem taken_compact (hentries : p.acknowledged = s.entries) :
    p.taken (s.compact p.disk cutoff protectedEntities none).result
        (fun _ => compacted p.acknowledged cutoff protectedEntities) =
      (s.compact p.disk cutoff protectedEntities none).store.entries := by
  rw [hentries, compacted_entries]
  rcases s.compact_cases p.disk cutoff protectedEntities none with
    ⟨-, hsame, ⟨hresult, hall⟩ | hresult⟩ | ⟨hsome, hrewrites⟩
  · rw [hresult, hsame, if_pos ((s.length_retained _ _).2 hall)]
    rfl
  · rw [hresult, hsame]
    exact hentries
  · rcases hrewrites.result with ⟨hresult, -⟩ | ⟨hfault, -⟩
    · rw [hresult, hrewrites.entries, if_neg (hsome ∘ (s.length_retained _ _).1)]
      rfl
    · exact absurd rfl hfault

theorem step_compact_intact (h : w.Whole body es) (hw : w.store = some s)
    (hkept : w.Kept (.compact cutoff protectedEntities none)) :
    ∃ w' : World, w'.Intact ∧ w'.key = w.key ∧
      w'.disk = (s.compact w.disk cutoff protectedEntities none).disk ∧
        w'.store = some (s.compact w.disk cutoff protectedEntities none).store := by
  have hfault : World.Faultless (.compact cutoff protectedEntities none) := rfl
  refine ⟨_, h.step hfault hkept, World.step_key w _, ?_⟩
  rw [World.step, hw]
  dsimp only
  split
  next => exact ⟨rfl, rfl⟩
  next => exact ⟨rfl, rfl⟩

/-- A compaction that leaves everything as it is. -/
theorem Consistent.compact_left (h : p.Consistent w body es) (hs : p.store = some s)
    (hleaves : s.Leaves p.disk cutoff protectedEntities
      (s.compact p.disk cutoff protectedEntities (halt.map Halt.fault))) :
    (p.step (.compact cutoff protectedEntities halt)).Inv := by
  obtain ⟨-, hack, hentries⟩ := h.of_live hs
  obtain ⟨hdisk, hsame, hresult⟩ := hleaves
  rw [step, hs]
  refine h.finish_idle hs hdisk (.inl hsame) ?_
  rcases hresult with ⟨hresult, hall⟩ | hresult
  · rw [hresult, taken, hack, ← hentries, compacted_entries,
      if_pos ((s.length_retained _ _).2 hall)]
  · rw [hresult]
    rfl

theorem Consistent.compact (h : p.Consistent w body es) (hs : p.store = some s)
    (hsealed : p.Sealed (.compact cutoff protectedEntities halt)) :
    (p.step (.compact cutoff protectedEntities halt)).Inv := by
  obtain ⟨hw, hack, hentries⟩ := h.of_live hs
  by_cases hearly : (halt.map Halt.fault).any Store.Fault.precedes = true
  · obtain ⟨fault, hfault, hprecedes⟩ := (Option.any_eq_true _ _).1 hearly
    refine h.compact_left hs ?_
    rw [hfault]
    exact s.compact_precedes _ _ hprecedes
  rcases s.compact_cases p.disk cutoff protectedEntities (halt.map Halt.fault) with
    hleaves | ⟨hsome, hrewrites⟩
  · exact h.compact_left hs hleaves
  · obtain ⟨hthrough, hfits⟩ := (hsealed s hs hsome hrewrites.marshals).resolve_left hearly
    have hkept : w.Kept (.compact cutoff protectedEntities none) := by
      intro s' hs' _ _
      obtain rfl := Option.some.inj (hw.symm.trans hs')
      exact hfits
    obtain ⟨w', hintact, hkey, hdisk, hstore⟩ := step_compact_intact h.whole hw hkept
    rw [h.disk] at hdisk hstore
    rw [step, hs]
    refine h.finish_through hintact hkey hdisk hstore (taken_compact (hack.trans hentries.symm))
      (s.compact_directory _ _) ?_
    intro st hst
    refine (hthrough st hst).imp id ?_
    rintro ⟨fault, rfl, hignores⟩
    refine absurd ?_ hearly
    obtain rfl : halt = some (.fails fault) := hst
    rcases hignores with rfl | rfl | ⟨rfl, -⟩ <;> rfl

end Compact

/-! ## Runs -/

theorem inv_start {disk disk' : Disk} {sync : Bool} {key : Text} {s : Store}
    (hopen : openWithIntegrity disk sync key = (disk', .ok s))
    (hnormal : ∀ e ∈ s.entries, e.normal = e) : (start key disk' s).Inv :=
  ⟨_, _, s.entries, World.whole_opened hopen hnormal, rfl, rfl, .inr ⟨rfl, rfl⟩, .inl rfl⟩

variable {p : Process} {w : World} {body : Text} {es : List Entry}

theorem Consistent.reopen (h : p.Consistent w body es) (sync : Bool) :
    (p.step (.reopen sync)).Inv := by
  have hopens := (h.whole.opens sync).2
  rw [h.key, h.disk] at hopens
  rw [step, hopens]
  exact inv_start hopens h.whole.rests.normal

theorem Consistent.close (h : p.Consistent w body es) : (p.step .close).Inv := by
  cases hs : p.store with
  | none =>
      refine ⟨w, body, es, h.whole, h.key, h.disk, .inl ?_, h.entries⟩
      rw [step, hs]
      rfl
  | some s =>
      obtain ⟨hw, hentries, -⟩ := h.of_live hs
      have hclosed : s.close = s ∨ s.close.entries = s.entries ∧
          s.close.integrityKey = s.integrityKey ∧ s.close.state ≠ .healthy := by
        rw [Store.close]
        split
        next => exact .inr ⟨rfl, rfl, State.noConfusion⟩
        next => exact .inl rfl
      refine ⟨_, body, es, h.whole.left hw hclosed, h.key, h.disk, .inr ⟨?_, hentries⟩, h.entries⟩
      rw [step, hs]
      rfl

/-- An operation that meets the condition keeps the process consistent. -/
theorem Inv.step (h : p.Inv) {i : Operation} (hsealed : p.Sealed i) : (p.step i).Inv := by
  obtain ⟨w, body, es, h⟩ := h
  cases i with
  | append now entityID eventType payload halt =>
      cases hs : p.store with
      | none =>
          rw [Process.step, hs]
          exact ⟨w, body, es, h⟩
      | some s => exact h.append hs hsealed
  | compact cutoff protectedEntities halt =>
      cases hs : p.store with
      | none =>
          rw [Process.step, hs]
          exact ⟨w, body, es, h⟩
      | some s => exact h.compact hs hsealed
  | close => exact h.close
  | reopen sync => exact h.reopen sync

/-- **Crash consistency.** Wherever a run has got to, the journal can be opened
again, with the acknowledged entries or those in flight, if every operation of
the run that changes the journal got the anchor into place. -/
theorem run_recovers {disk disk' : Disk} {sync : Bool} {key : Text} {s : Store}
    (hopen : openWithIntegrity disk sync key = (disk', .ok s))
    (hnormal : ∀ e ∈ s.entries, e.normal = e) {operations : List Operation}
    (hsealed : Along Process.step Sealed (start key disk' s) operations) :
    ((start key disk' s).run operations).Recovers := by
  have hinv : ((start key disk' s).run operations).Inv :=
    Along.invariant (fun _ _ h hsealed => h.step hsealed) (inv_start hopen hnormal) hsealed
  obtain ⟨w, body, es, h⟩ := hinv
  exact h.recovers

/-! ## A first append -/

/-- An anchor that is not that of the last entry is refused. -/
theorem not_open_of_anchor {disk : Disk} {key data : Text} {sync : Bool}
    (hread : readAndVerify disk.journal = .ok es) (hkey : key ≠ [])
    (hanchor : disk.anchor = some data)
    (hverify : verifyAnchorData data key (tip es).1 (tip es).2 = false) :
    (openWithIntegrity disk sync key).2 = .error .anchorMismatch := by
  rw [openWithIntegrity, hread]
  dsimp only
  rw [if_neg hkey, hanchor]
  dsimp only
  rw [hverify]
  rfl

/-- What the first open of a new journal leaves. -/
def newDisk : Disk where
  journal := some []
  anchor := some (anchorText [0x6b] 0 [])

theorem open_new : openWithIntegrity {} false [0x6b] =
    (newDisk, .ok (.ofEntries [] false [0x6b])) := rfl

/-- The first append of a journal. -/
def firstAppend (halt : Option Halt) : Operation :=
  .append World.midnight (utf8 "request-1") (utf8 "start") (some .null) halt

/-- A process that dies with the anchor in place comes back, and goes on. -/
theorem run_recovers_firstAppend : ((start [0x6b] newDisk (.ofEntries [] false [0x6b])).run
    [firstAppend (some (.dies .anchored)), .reopen false, .close]).Recovers := by
  refine run_recovers open_new (fun _ h => absurd h List.not_mem_nil)
    ⟨?_, trivial, trivial, trivial⟩
  rintro _ ⟨⟩ - -
  refine .inr ⟨?_, .inl rfl, isUTF8_of_all (by decide), isUTF8_of_all (by decide), by decide,
    World.first_fits⟩
  rintro _ ⟨⟩
  exact .inl rfl

/-- One that dies before the anchor does not. -/
theorem not_recovers_firstAppend :
    openWithIntegrity {} false [0x6b] = (newDisk, .ok (.ofEntries [] false [0x6b])) ∧
      ¬ ((start [0x6b] newDisk (.ofEntries [] false [0x6b])).run
        [firstAppend (some (.dies .written))]).Recovers := by
  obtain ⟨hmarshal, -⟩ := World.first_written.1.line
  have hwritten : ((start [0x6b] newDisk (.ofEntries [] false [0x6b])).run
      [firstAppend (some (.dies .written))]).disk =
        { newDisk with journal := some (World.first.line ++ [newline]) } := by
    show ((Store.ofEntries [] false [0x6b]).append newDisk World.midnight (utf8 "request-1")
      (utf8 "start") (some .null) (some .anchor)).disk = _
    exact (Store.ofEntries [] false [0x6b]).append_anchor _ _ _ rfl rfl (List.cons_ne_nil _ _)
      hmarshal
  have hread : readAndVerify (some (World.first.line ++ [newline])) = .ok [World.first] := by
    rw [readAndVerify_eq_ok, Option.getD_some, World.first_written.1.lines,
      World.first_taken.readLines, readLines]
  have hverify : verifyAnchorData (anchorText [0x6b] 0 []) [0x6b] (tip [World.first]).1
      (tip [World.first]).2 = false := by
    rw [verifyAnchorData, unmarshalAnchor_anchorText _ (by decide) (isUTF8_of_all (by decide)),
      Option.any_some]
    exact decide_eq_false fun h => absurd h.2.1 Nat.zero_ne_one
  refine ⟨open_new, fun hrecovers => ?_⟩
  obtain ⟨disk, s, hopen, -⟩ := hrecovers false
  rw [hwritten] at hopen
  have hmismatch := @not_open_of_anchor [World.first]
    { newDisk with journal := some (World.first.line ++ [newline]) } _ _ false hread
    (List.cons_ne_nil _ _) rfl hverify
  cases (congrArg Prod.snd hopen).symm.trans hmismatch

end Process

end RelayLifeline.Journal.Wire
