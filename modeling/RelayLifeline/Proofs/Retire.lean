import RelayLifeline.Proofs.Wrapped

/-!
# A master key nothing counts any more can be retired

What is on disk is counted if the manager's copy names the same master key as
the metadata (`Dir.Counted`). Then a record that counts for neither `k` nor as
unresolved names another key, and as it opens to the key of its bodies it does
so without `k`.

That rests on two things the code does not see to. When a write of `RewrapAll`
fails, the records written before it have to be written back, and that may fail
as well: the disk then names the active key and the copy the old one. And a
start that cannot read a record, or stops at one, leaves it out of the copy.
`Durable` says that neither happens.
-/

namespace RelayLifeline.Capture

open Lib

variable {g : Gcm} {ring : Keyring}

/-! ## What is on disk is counted -/

/-- The copy in memory names the key the metadata names. -/
def Dir.Counted (records : Table Record) (dir : Dir) : Prop :=
  ∀ record, dir.metadata = some record → ∃ m ∈ records.items, m.id = dir.id ∧ m.keyID = record.keyID

def CountedDisk (records : Table Record) (disk : Table Dir) : Prop :=
  ∀ dir ∈ disk.items, dir.Counted records

namespace CountedDisk

variable {records : Table Record} {disk : Table Dir} {record : Record}

/-- Metadata that was there before, or is gone. -/
theorem of_old (h : CountedDisk records disk) {disk' : Table Dir}
    (hold : ∀ dir ∈ disk'.items, ∃ old ∈ disk.items, old.id = dir.id ∧
      (dir.metadata = none ∨ dir.metadata = old.metadata)) : CountedDisk records disk' := by
  intro dir hdir record hrecord
  obtain ⟨old, hmem, hid, hnone | hsame⟩ := hold dir hdir
  · rw [hnone] at hrecord
    cases hrecord
  · rw [← hid]
    exact h old hmem record (hsame ▸ hrecord)

theorem removeAll (h : CountedDisk records disk) (id : String) (removal : Removal) :
    CountedDisk records (Capture.removeAll disk id removal) := by
  apply h.of_old
  intro dir hdir
  obtain ⟨-, old, hold, hid, -, -, hmetadata⟩ := mem_removeAll hdir
  exact ⟨old, hold, hid, hmetadata⟩

theorem writeObject (h : CountedDisk records disk) {id name : String} {key : Bytes}
    {base : BodyPart} {fate : BodyFate} :
    CountedDisk records (Capture.writeObject disk id key name base fate).disk := by
  apply h.of_old
  intro dir hdir
  obtain ⟨old, hold, hid, -, hmetadata, -⟩ := mem_writeObject hdir
  exact ⟨old, hold, hid, .inr hmetadata⟩

theorem removeObject (h : CountedDisk records disk) (id name : String) :
    CountedDisk records (Capture.removeObject disk id name) := by
  apply h.of_old
  intro dir hdir
  obtain ⟨old, hold, hid, -, hmetadata, -⟩ := mem_removeObject hdir
  exact ⟨old, hold, hid, .inr hmetadata⟩

/-- Metadata that was committed goes with a copy in memory. -/
theorem persist_set (h : CountedDisk records disk) {fate : Fate}
    (hcommitted : (Capture.persist disk record fate).committed = true) :
    CountedDisk (records.set record) (Capture.persist disk record fate).disk := by
  intro dir hdir record' hrecord'
  obtain ⟨hmem, hne⟩ | ⟨old, -, -, -, -, hmetadata⟩ := mem_persist hdir
  · obtain ⟨m, hm, hid, hkeyID⟩ := h dir hmem record' hrecord'
    refine ⟨m, Table.mem_set.mpr (.inr ⟨hm, fun heq => hne hcommitted ?_⟩), hid, hkeyID⟩
    exact hid.symm.trans heq
  · rw [hmetadata] at hrecord'
    injection hrecord' with hrecord'
    subst hrecord'
    exact ⟨record, Table.mem_set.mpr (.inl rfl), dir.named record hmetadata, rfl⟩

theorem persist_lost (h : CountedDisk records disk) {fate : Fate}
    (hlost : (Capture.persist disk record fate).committed = false) :
    CountedDisk records (Capture.persist disk record fate).disk := by
  rw [disk_persist_lost hlost]
  exact h

end CountedDisk

def World.Counted (w : World) : Prop := CountedDisk w.manager.records w.disk

theorem counted_beginRequest {w : World} (h : w.Counted) (b : Begin g) :
    (beginRequest w b).Counted := by
  have hexpired : CountedDisk (w.manager.expireActivation b.now).records w.disk := by
    rw [records_expireActivation]
    exact h
  rw [beginRequest]
  dsimp only
  split
  · exact hexpired
  · split
    · exact hexpired
    · split
      · exact hexpired
      · split
        · exact hexpired
        · have hdir : CountedDisk (w.manager.expireActivation b.now).records
              (w.disk.set { id := b.id, dataKey := b.dataKey }) := by
            intro dir hdir
            obtain rfl | ⟨hmem, -⟩ := Table.mem_set.mp hdir
            · intro record hrecord
              cases hrecord
            · exact hexpired dir hmem
          split
          · exact hdir.removeAll b.id b.removal
          · rw [beginIn]
            dsimp only
            split
            · exact hdir.writeObject.removeAll b.id b.removal
            · split
              next hcommitted => exact hdir.writeObject.persist_set hcommitted
              next hlost =>
                rw [Bool.not_eq_true] at hlost
                exact (hdir.writeObject.persist_lost hlost).removeAll b.id b.removal

theorem counted_recordBody {w : World} (h : w.Counted) {record : Record} {disabled : Bool}
    {a : Attempted} {r : Recording}
    (hr : recordBody g w.manager.keyring w.disk record disabled a = some r) :
    CountedDisk w.manager.records r.disk := by
  rw [recordBody] at hr
  split at hr
  · injection hr with hr
    subst hr
    exact h
  · split at hr
    · injection hr with hr
      subst hr
      exact h
    · split at hr
      · split at hr
        · cases hr
        · dsimp only at hr
          split at hr
          · injection hr with hr
            subst hr
            exact CountedDisk.writeObject h
          · injection hr with hr
            subst hr
            exact CountedDisk.writeObject h
      · injection hr with hr
        subst hr
        exact h

theorem counted_recordAttempt {w : World} (h : w.Counted) (a : Attempted) :
    (recordAttempt g w a).Counted := by
  rw [recordAttempt]
  split
  · exact h
  next id hid =>
    split
    · exact h
    · split
      · exact h
      next r hr =>
        have hdisk := counted_recordBody h hr
        rw [recordMetadata]
        split
        next hcommitted => exact hdisk.persist_set hcommitted
        next hlost =>
          rw [Bool.not_eq_true] at hlost
          split
          · exact hdisk.persist_lost hlost
          · split
            · exact (hdisk.persist_lost hlost).removeObject id _
            · exact hdisk.persist_lost hlost

theorem counted_finish {w : World} (h : w.Counted) (f : Finished) : (finish w f).Counted := by
  rw [finish]
  dsimp only
  split
  · exact h
  · split
    · exact h
    · split
      next hcommitted => exact CountedDisk.persist_set h hcommitted
      next hlost =>
        rw [Bool.not_eq_true] at hlost
        exact CountedDisk.persist_lost h hlost

/-! ### Deletion -/

theorem counted_delete {w : World} (h : w.Counted) (id : String) (d : Deletion) :
    (delete w id d).Counted := by
  rw [delete]
  split
  · exact h
  next record hrecord =>
    have hdisk := CountedDisk.removeAll h id (d.removal id)
    dsimp only
    split
    next hdone =>
      intro dir hdir record' hrecord'
      obtain ⟨m, hm, hid, hkeyID⟩ := hdisk dir hdir record' hrecord'
      refine ⟨m, Table.mem_erase.mpr ⟨hm, fun heq => ?_⟩, hid, hkeyID⟩
      apply (mem_removeAll hdir).1 hdone.1
      have hrecordid : record.id = id := Table.key_of_get? hrecord
      rw [← hid, ← hrecordid]
      exact heq
    · exact hdisk

theorem mem_removeEach {d : Deletion} {expired : List Record} {disk : Table Dir} {dir : Dir}
    (h : dir ∈ (expired.foldl
      (fun disk record => removeAll disk record.id (d.removal record.id)) disk).items) :
    (∀ r ∈ expired, (d.removal r.id).isDone = true → r.id ≠ dir.id) ∧
      ∃ old ∈ disk.items, old.id = dir.id ∧
        (dir.metadata = none ∨ dir.metadata = old.metadata) := by
  induction expired generalizing disk with
  | nil => exact ⟨fun r hr => (by cases hr), dir, h, rfl, .inr rfl⟩
  | cons record expired ih =>
      obtain ⟨hrest, mid, hmid, hid, hmetadata⟩ := ih h
      obtain ⟨hne, old, hold, hid', -, -, hmetadata'⟩ := mem_removeAll hmid
      constructor
      · intro r hr hdone
        obtain rfl | hr := List.mem_cons.mp hr
        · exact fun heq => hne hdone (hid.trans heq.symm)
        · exact hrest r hr hdone
      · refine ⟨old, hold, hid'.trans hid, ?_⟩
        obtain hnone | hsame := hmetadata
        · exact .inl hnone
        · rw [hsame]
          exact hmetadata'

theorem counted_deleteExpired {w : World} (h : w.Counted) (now : Int) (d : Deletion) :
    (deleteExpired w now d).Counted := by
  have hdisk : CountedDisk w.manager.records
      ((w.manager.records.items.filter fun record => record.expiresAt ≤ now).foldl
        (fun disk record => removeAll disk record.id (d.removal record.id)) w.disk) :=
    CountedDisk.of_old h fun dir hdir => (mem_removeEach hdir).2
  rw [deleteExpired]
  split
  · exact hdisk
  · intro dir hdir record hrecord
    obtain ⟨m, hm, hid, hkeyID⟩ := hdisk dir hdir record hrecord
    refine ⟨m, ((forget_each _ _).2 m).mpr ⟨hm, fun r hr => ?_⟩, hid, hkeyID⟩
    obtain ⟨hr, hdone⟩ := List.mem_filter.mp hr
    rw [hid]
    exact (mem_removeEach hdir).1 r hr hdone

/-! ### Rewrapping -/

/-- After a write of `RewrapAll` fails, the records written before it are all
written back: `persisted` lists them, `ids` those still to be written. -/
def Rewrap.undone (r : Rewrap g) (disk : Table Dir) : List String → List String → Bool
  | _, [] => true
  | persisted, id :: ids =>
      if (disk.get? id).isNone then persisted.all fun id => (r.rollback id).commits
      else
        match r.write id with
        | .written => undone r disk (persisted ++ [id]) ids
        | .unsynced _ => (persisted ++ [id]).all fun id => (r.rollback id).commits
        | .lost .. => persisted.all fun id => (r.rollback id).commits

/-- The directories of the given records apart, what is on disk is counted. -/
def CountedBut (records : Table Record) (disk : Table Dir) (originals : List Record) : Prop :=
  ∀ dir ∈ disk.items, ∀ record, dir.metadata = some record →
    (∃ o ∈ originals, o.id = dir.id) ∨ ∃ m ∈ records.items, m.id = dir.id ∧ m.keyID = record.keyID

theorem counted_rollBack {records : Table Record} {rollback : String → Fate}
    {originals : List Record} {disk : Table Dir} (h : CountedBut records disk originals)
    (hmem : ∀ o ∈ originals, o ∈ records.items)
    (hback : ∀ o ∈ originals, (disk.get? o.id).isSome = true ∧ (rollback o.id).commits = true) :
    CountedDisk records (rollBack rollback disk originals) := by
  induction originals generalizing disk with
  | nil =>
      intro dir hdir record hrecord
      obtain ⟨o, ho, -⟩ | hcounted := h dir hdir record hrecord
      · cases ho
      · exact hcounted
  | cons o originals ih =>
      have ho := hback o List.mem_cons_self
      have hcommitted : (persist disk o (rollback o.id)).committed = true := by
        rw [committed_persist, ho.1, ho.2]
        rfl
      have hnext : CountedBut records (persist disk o (rollback o.id)).disk originals := by
        intro dir hdir record hrecord
        obtain ⟨hdirmem, hne⟩ | ⟨old, -, -, -, -, hmetadata⟩ := mem_persist hdir
        · obtain ⟨o', ho', hid⟩ | hcounted := h dir hdirmem record hrecord
          · obtain rfl | ho' := List.mem_cons.mp ho'
            · exact absurd hid.symm (hne hcommitted)
            · exact .inl ⟨o', ho', hid⟩
          · exact .inr hcounted
        · rw [hmetadata] at hrecord
          injection hrecord with hrecord
          subst hrecord
          exact .inr ⟨o, hmem o List.mem_cons_self, dir.named o hmetadata, rfl⟩
      refine ih hnext (fun o' ho' => hmem o' (List.mem_cons_of_mem o ho')) fun o' ho' => ?_
      rw [isSome_get?_persist]
      exact hback o' (List.mem_cons_of_mem o ho')

/-- How far the second loop has come: a directory holds the replacement of a
record that was written, or is counted as it was. -/
def Midway (ring : Keyring) (records : Table Record) (disk : Table Dir)
    (persisted : List Record) : Prop :=
  ∀ dir ∈ disk.items, ∀ record, dir.metadata = some record →
    (∃ o ∈ persisted, o.id = dir.id ∧ record.keyID = ring.activeID) ∨
      ((∀ o ∈ persisted, o.id ≠ dir.id) ∧
        ∃ m ∈ records.items, m.id = dir.id ∧ m.keyID = record.keyID)

theorem Midway.write {records : Table Record} {disk : Table Dir} {persisted : List Record}
    {u : Record × Record} {fate : Fate} (h : Midway ring records disk persisted)
    (hu : Replaces g ring records u) (hcommitted : (persist disk u.2 fate).committed = true) :
    Midway ring records (persist disk u.2 fate).disk (persisted ++ [u.1]) := by
  intro dir hdir record hrecord
  obtain ⟨hdirmem, hne⟩ | ⟨old, -, -, -, -, hmetadata⟩ := mem_persist hdir
  · obtain ⟨o, ho, hid, hkeyID⟩ | ⟨hother, hcounted⟩ := h dir hdirmem record hrecord
    · exact .inl ⟨o, List.mem_append_left _ ho, hid, hkeyID⟩
    · refine .inr ⟨fun o ho => ?_, hcounted⟩
      obtain ho | ho := List.mem_append.mp ho
      · exact hother o ho
      · rw [List.mem_singleton.mp ho, ← hu.id]
        exact fun heq => hne hcommitted heq.symm
  · rw [hmetadata] at hrecord
    injection hrecord with hrecord
    subst hrecord
    refine .inl ⟨u.1, by simp, ?_, hu.keyID⟩
    rw [← hu.id]
    exact dir.named _ hmetadata

theorem Midway.countedBut {records : Table Record} {disk : Table Dir} {persisted : List Record}
    (h : Midway ring records disk persisted) : CountedBut records disk persisted := by
  intro dir hdir record hrecord
  obtain ⟨o, ho, hid, -⟩ | ⟨-, hcounted⟩ := h dir hdir record hrecord
  · exact .inl ⟨o, ho, hid⟩
  · exact .inr hcounted

/-- The second loop either writes everything or leaves what is on disk counted
as before, if what it takes back it can take back. -/
theorem counted_commit {records : Table Record} {r : Rewrap g} {disk₀ : Table Dir} :
    ∀ (us : List (Record × Record)) (persisted : List Record) (disk : Table Dir),
      (∀ u ∈ us, Replaces g ring records u) → (∀ o ∈ persisted, o ∈ records.items) →
      Midway ring records disk persisted →
      (∀ id, (disk.get? id).isSome = (disk₀.get? id).isSome) →
      (∀ o ∈ persisted, (disk.get? o.id).isSome = true) →
      r.undone disk₀ (persisted.map fun o => o.id) (us.map fun u => u.1.id) = true →
      ((commit r disk persisted us).2 ≠ [] → CountedDisk records (commit r disk persisted us).1) ∧
        ((commit r disk persisted us).2 = [] →
          Midway ring records (commit r disk persisted us).1 (persisted ++ us.map Prod.fst)) := by
  intro us
  induction us with
  | nil =>
      intro persisted disk _ _ hmid _ _ _
      refine ⟨fun h => absurd rfl h, fun _ => ?_⟩
      rw [List.map_nil, List.append_nil]
      exact hmid
  | cons u us ih =>
      intro persisted disk hus hmem hmid hsame hpresent hundone
      have hu := hus u List.mem_cons_self
      have hcommitted := committed_persist disk u.2 (r.write u.2.id)
      have herr := err_persist disk u.2 (r.write u.2.id)
      rw [hu.id, hsame] at hcommitted herr
      rw [List.map_cons, Rewrap.undone] at hundone
      -- What is written back when the write of `u` fails.
      have hback : ∀ originals : List Record, (∀ o ∈ originals, o ∈ records.items) →
          (∀ o ∈ originals, (disk.get? o.id).isSome = true) →
          ((originals.map fun o => o.id).all fun id => (r.rollback id).commits) = true →
          CountedBut records (persist disk u.2 (r.write u.2.id)).disk originals →
          CountedDisk records
            (rollBack r.rollback (persist disk u.2 (r.write u.2.id)).disk originals) := by
        intro originals horiginals hthere hcommits hbut
        refine counted_rollBack hbut horiginals fun o ho => ?_
        rw [isSome_get?_persist]
        exact ⟨hthere o ho, List.all_eq_true.mp hcommits o.id (List.mem_map_of_mem ho)⟩
      have hmem' : ∀ o ∈ persisted ++ [u.1], o ∈ records.items := by
        intro o ho
        obtain ho | ho := List.mem_append.mp ho
        · exact hmem o ho
        · rw [List.mem_singleton.mp ho]
          exact hu.mem
      -- A write that did not go through leaves only what was written before it.
      have hfailed : (persist disk u.2 (r.write u.1.id)).committed = false →
          (persist disk u.2 (r.write u.1.id)).err ≠ none →
          ((persisted.map fun o => o.id).all fun id => (r.rollback id).commits) = true →
          ((commit r disk persisted (u :: us)).2 ≠ [] →
              CountedDisk records (commit r disk persisted (u :: us)).1) ∧
            ((commit r disk persisted (u :: us)).2 = [] →
              Midway ring records (commit r disk persisted (u :: us)).1
                (persisted ++ (u :: us).map Prod.fst)) := by
        intro hlost hne hcommits
        rw [← hu.id] at hlost hne
        obtain ⟨herrs, hdisk⟩ := commit_failed persisted us hne
        refine ⟨fun _ => ?_, fun h => absurd h herrs⟩
        rw [hdisk, hlost]
        refine hback persisted hmem hpresent hcommits ?_
        rw [disk_persist_lost hlost]
        exact hmid.countedBut
      split at hundone
      next hnone =>
        rw [Option.isNone_iff_eq_none] at hnone
        rw [hnone] at hcommitted herr
        exact hfailed hcommitted (fun h => by cases (herr.mp h).1) hundone
      next hsome =>
        have hthere : (disk₀.get? u.1.id).isSome = true := by
          rw [Option.isNone_iff_eq_none] at hsome
          exact Option.isSome_iff_ne_none.mpr hsome
        rw [hthere, Bool.true_and] at hcommitted
        have hpresent' : ∀ o ∈ persisted ++ [u.1], (disk.get? o.id).isSome = true := by
          intro o ho
          obtain ho | ho := List.mem_append.mp ho
          · exact hpresent o ho
          · rw [List.mem_singleton.mp ho, hsame]
            exact hthere
        cases hfate : r.write u.1.id with
        | lost stage err =>
            rw [hfate] at hundone hcommitted herr hfailed
            exact hfailed hcommitted (fun h => by cases (herr.mp h).2) hundone
        | unsynced err =>
            rw [hfate] at hundone hcommitted herr
            have hne : (persist disk u.2 (r.write u.2.id)).err ≠ none := by
              rw [hu.id, hfate]
              exact fun h => by cases (herr.mp h).2
            have hc : (persist disk u.2 (r.write u.2.id)).committed = true := by
              rw [hu.id, hfate]
              exact hcommitted
            obtain ⟨herrs, hdisk⟩ := commit_failed persisted us hne
            refine ⟨fun _ => ?_, fun h => absurd h herrs⟩
            rw [hdisk, if_pos hc]
            refine hback _ hmem' hpresent' ?_ (hmid.write hu hc).countedBut
            rw [List.map_append]
            exact hundone
        | written =>
            rw [hfate] at hundone hcommitted herr
            have hnone : (persist disk u.2 (r.write u.2.id)).err = none := by
              rw [hu.id, hfate]
              exact herr.mpr ⟨hthere, rfl⟩
            have hc : (persist disk u.2 (r.write u.2.id)).committed = true := by
              rw [hu.id, hfate]
              exact hcommitted
            rw [commit_written persisted us hnone hc, List.map_cons, List.append_cons persisted u.1 (us.map Prod.fst)]
            refine ih (persisted ++ [u.1]) _ (fun u' hu' => hus u' (List.mem_cons_of_mem u hu'))
              hmem' (hmid.write hu hc) (fun id => ?_) (fun o ho => ?_) ?_
            · rw [isSome_get?_persist, hsame]
            · rw [isSome_get?_persist]
              exact hpresent' o ho
            · rw [List.map_append]
              exact hundone

/-- The ids of the records a rewrap writes, in the order it writes them. -/
def Rewrap.writes (r : Rewrap g) (m : Manager) : List String :=
  (((ranked m.records.items r.rank).filter fun record =>
      record.keyID ≠ m.keyring.activeID).insertionSort
    fun a b => r.writeRank a.id ≤ r.writeRank b.id).map fun record => record.id

theorem writes_eq {m : Manager} {r : Rewrap g} {updated : List (Record × Record)}
    (h : updates m.keyring r.nonces (ranked m.records.items r.rank) = .ok updated) :
    (r.order updated).map (fun u => u.1.id) = r.writes m := by
  have hsorted := List.map_insertionSort
    (fun a b : Record × Record => r.writeRank a.1.id ≤ r.writeRank b.1.id)
    (fun a b : Record => r.writeRank a.id ≤ r.writeRank b.id) Prod.fst updated
    (fun _ _ _ _ => Iff.rfl)
  rw [Rewrap.writes, Rewrap.order, ← (updates_ok h).1, ← hsorted, List.map_map]
  rfl

theorem counted_rewrapAll {w : World} {r : Rewrap g} (h : w.Counted)
    (hundone : r.undone w.disk [] (r.writes w.manager) = true) :
    (rewrapAll w r).world.Counted := by
  obtain ⟨err, -, heq⟩ | ⟨updated, hupdated, hcommit⟩ := rewrapAll_cases w r
  · rw [heq]
    exact h
  · have hreplaces := replaces_of_updates hupdated
    have hstart : Midway w.manager.keyring w.manager.records w.disk [] :=
      fun dir hdir record hrecord => .inr ⟨fun o ho => (by cases ho), h dir hdir record hrecord⟩
    have hmem : ∀ u ∈ r.order updated, u ∈ updated := fun u hu => (List.mem_insertionSort _).mp hu
    obtain ⟨hfailed, hdone⟩ := counted_commit (r.order updated) [] w.disk
      (fun u hu => hreplaces u (hmem u hu)) (fun o ho => by cases ho) hstart (fun id => rfl)
      (fun o ho => by cases ho) (by rw [writes_eq hupdated]; exact hundone)
    obtain ⟨errs, hne, heq⟩ | ⟨result, hnil, heq⟩ := hcommit
    · rw [heq]
      exact hfailed hne
    · rw [heq]
      intro dir hdir record hrecord
      obtain ⟨o, ho, hid, hkeyID⟩ | ⟨hother, m, hm, hid, hkeyID⟩ :=
        hdone hnil dir hdir record hrecord
      · -- The replacement is on disk, and a replacement is in memory.
        rw [List.nil_append] at ho
        obtain ⟨u, hu, rfl⟩ := List.mem_map.mp ho
        obtain ⟨m', hm', hid', u', hu', rfl⟩ :=
          takeOver_replaced w.manager.records (hmem u hu)
        refine ⟨u'.2, hm', ?_, ?_⟩
        · rw [hid', (hreplaces u (hmem u hu)).id, hid]
        · rw [hkeyID, (hreplaces u' hu').keyID]
      · obtain ⟨m', hm', hid', rfl | ⟨u, hu, rfl⟩⟩ := takeOver_keeps updated hm
        · exact ⟨m', hm', hid, hkeyID⟩
        · refine absurd ?_ (hother u.1 ?_)
          · rw [← (hreplaces u hu).id, hid', hid]
          · rw [List.nil_append]
            exact List.mem_map_of_mem ((List.mem_insertionSort _).mpr hu)

/-! ### Starting -/

/-- A start reads all that is there: it neither fails before it reads the
records nor passes one over nor stops at one. -/
def Startup.complete (s : Startup) (disk : Table Dir) : Bool :=
  disk.items.all fun dir => dir.metadata.all fun record =>
    s.mkdir.isNone ∧ s.readDir.isNone ∧ s.unreadable dir.id = false ∧
      (record.keyID = "" → s.resolve record.id = .written) ∧
      (record.state = "active" → s.interrupt record.id = .written)

/-- A directory is another one, or holds the record. -/
def Holds (disk disk' : Table Dir) (record : Record) : Prop :=
  ∀ dir ∈ disk'.items, (dir ∈ disk.items ∧ dir.id ≠ record.id) ∨ dir.metadata = some record

theorem persist_written {disk : Table Dir} {record : Record}
    (hthere : (disk.get? record.id).isSome = true) :
    (persist disk record .written).err = none ∧
      Holds disk (persist disk record .written).disk record := by
  refine ⟨(err_persist ..).mpr ⟨hthere, rfl⟩, fun dir hdir => ?_⟩
  have hcommitted : (persist disk record .written).committed = true := by
    rw [committed_persist, hthere]
    rfl
  obtain ⟨hmem, hne⟩ | ⟨-, -, -, -, -, hmetadata⟩ := mem_persist hdir
  · exact .inl ⟨hmem, hne hcommitted⟩
  · exact .inr hmetadata

theorem holds_resolveKey (g : Gcm) (ring : Keyring) {disk : Table Dir} {record : Record}
    {s : Startup}
    (hheld : ∀ dir ∈ disk.items, dir.id = record.id → dir.metadata = some record)
    (hthere : (disk.get? record.id).isSome = true)
    (hfate : record.keyID = "" → s.resolve record.id = .written) :
    (resolveKey g ring s disk record).1.err = none ∧
      Holds disk (resolveKey g ring s disk record).1.disk (resolveKey g ring s disk record).2 ∧
      (resolveKey g ring s disk record).2.id = record.id ∧
      (resolveKey g ring s disk record).2.state = record.state ∧
      ∀ id, ((resolveKey g ring s disk record).1.disk.get? id).isSome = (disk.get? id).isSome := by
  obtain ⟨heq, -⟩ | ⟨key, id, hempty, -, heq⟩ := resolveKey_cases g ring s disk record
  · rw [heq]
    refine ⟨rfl, fun dir hdir => ?_, rfl, rfl, fun _ => rfl⟩
    by_cases hid : dir.id = record.id
    · exact .inr (hheld dir hdir hid)
    · exact .inl ⟨hdir, hid⟩
  · rw [heq, hfate hempty]
    obtain ⟨herr, hholds⟩ := @persist_written _ { record with keyID := id } hthere
    exact ⟨herr, hholds, rfl, rfl, fun _ => isSome_get?_persist _ _ _ _⟩

theorem holds_loadRecord (g : Gcm) (ring : Keyring) {l : Loading} {record : Record} {s : Startup}
    (hl : l.err = none)
    (hheld : ∀ dir ∈ l.disk.items, dir.id = record.id → dir.metadata = some record)
    (hthere : (l.disk.get? record.id).isSome = true)
    (hresolve : record.keyID = "" → s.resolve record.id = .written)
    (hinterrupt : record.state = "active" → s.interrupt record.id = .written) :
    (loadRecord g ring s l record).err = none ∧
      (∀ id, ((loadRecord g ring s l record).disk.get? id).isSome = (l.disk.get? id).isSome) ∧
      ∃ loaded, loaded.id = record.id ∧
        (loadRecord g ring s l record).records = l.records.set loaded ∧
        Holds l.disk (loadRecord g ring s l record).disk loaded := by
  obtain ⟨herr, hholds, hid, hstate, hsame⟩ :=
    holds_resolveKey g ring hheld hthere hresolve
  rw [loadRecord]
  dsimp only
  split
  next hsome =>
    rw [herr] at hsome
    cases hsome
  · split
    next hactive =>
      have hthere' : ((resolveKey g ring s l.disk record).1.disk.get?
          ((resolveKey g ring s l.disk record).2.interrupt s.now).id).isSome = true := by
        rw [hsame]
        show (l.disk.get? (resolveKey g ring s l.disk record).2.id).isSome = true
        rw [hid]
        exact hthere
      obtain ⟨herr', hholds'⟩ := persist_written hthere'
      have hfate : s.interrupt ((resolveKey g ring s l.disk record).2.interrupt s.now).id =
          .written := by
        show s.interrupt (resolveKey g ring s l.disk record).2.id = .written
        rw [hid]
        exact hinterrupt (hstate.symm.trans hactive)
      rw [hfate]
      split
      next hsome =>
        rw [herr'] at hsome
        cases hsome
      · refine ⟨hl, fun id => ?_, (resolveKey g ring s l.disk record).2.interrupt s.now, hid, rfl,
          fun dir hdir => ?_⟩
        · rw [isSome_get?_persist, hsame]
        · obtain ⟨hmem, hne⟩ | hmetadata := hholds' dir hdir
          · obtain ⟨hmem, -⟩ | hmetadata := hholds dir hmem
            · exact .inl ⟨hmem, hne⟩
            · exact absurd (dir.named _ hmetadata).symm hne
          · exact .inr hmetadata
    · exact ⟨hl, hsame, _, hid, rfl, hholds⟩

theorem counted_loadAll (g : Gcm) (ring : Keyring) {disk : Table Dir} {s : Startup}
    (h : s.complete disk = true) :
    CountedDisk (loadAll g ring disk s).records (loadAll g ring disk s).disk := by
  have hcomplete : ∀ dir ∈ disk.items, ∀ record, dir.metadata = some record →
      s.mkdir.isNone ∧ s.readDir.isNone ∧ s.unreadable dir.id = false ∧
        (record.keyID = "" → s.resolve record.id = .written) ∧
        (record.state = "active" → s.interrupt record.id = .written) := by
    intro dir hdir record hrecord
    have hall := List.all_eq_true.mp h dir hdir
    rw [hrecord] at hall
    exact of_decide_eq_true hall
  have hempty : s.mkdir.isSome = true ∨ s.readDir.isSome = true → CountedDisk ∅ disk := by
    intro hfailed dir hdir record hrecord
    obtain ⟨hmkdir, hreadDir, -⟩ := hcomplete dir hdir record hrecord
    rw [Option.isNone_iff_eq_none] at hmkdir hreadDir
    rw [hmkdir, hreadDir] at hfailed
    obtain hf | hf := hfailed <;> cases hf
  -- Directories not met yet are as they were; of the others the copy is in memory.
  have hloop : ∀ dirs : List Dir, (∀ dir ∈ dirs, dir ∈ disk.items) →
      (dirs.map fun dir => dir.id).Nodup → ∀ l : Loading, l.err = none →
      (∀ id, (l.disk.get? id).isSome = (disk.get? id).isSome) →
      (∀ dir ∈ l.disk.items, dir ∈ dirs ∨
        ((∀ d ∈ dirs, d.id ≠ dir.id) ∧ dir.Counted l.records)) →
      CountedDisk (dirs.foldl (loadDir g ring s) l).records
        (dirs.foldl (loadDir g ring s) l).disk := by
    intro dirs
    induction dirs with
    | nil =>
        intro _ _ l _ _ hl dir hdir
        obtain hdir | hdir := hl dir hdir
        · cases hdir
        · exact hdir.2
    | cons d dirs ih =>
        intro hdirs hnodup l herr hsame hl
        rw [List.map_cons, List.nodup_cons] at hnodup
        obtain ⟨hfirst, hnodup⟩ := hnodup
        have hne : ∀ d' ∈ dirs, d'.id ≠ d.id :=
          fun d' hd' heq => hfirst (heq ▸ List.mem_map_of_mem hd')
        have hd := hdirs d List.mem_cons_self
        have hrest : ∀ d' ∈ dirs, d' ∈ disk.items :=
          fun d' hd' => hdirs d' (List.mem_cons_of_mem d hd')
        rw [List.foldl_cons, loadDir, if_neg (by rw [herr]; exact Bool.noConfusion)]
        split
        next hnone =>
          refine ih hrest hnodup l herr hsame fun dir hdir => ?_
          obtain hdir | ⟨hother, hcounted⟩ := hl dir hdir
          · obtain rfl | hdir := List.mem_cons.mp hdir
            · refine .inr ⟨hne, fun record hrecord => ?_⟩
              rw [hnone] at hrecord
              cases hrecord
            · exact .inl hdir
          · exact .inr ⟨fun d' hd' => hother d' (List.mem_cons_of_mem d hd'), hcounted⟩
        next record hrecord =>
          obtain ⟨-, -, hread, hresolve, hinterrupt⟩ := hcomplete d hd record hrecord
          have hid : record.id = d.id := d.named record hrecord
          rw [if_neg (by rw [hread]; exact Bool.noConfusion)]
          have hheld : ∀ dir ∈ l.disk.items, dir.id = record.id → dir.metadata = some record := by
            intro dir hdir hdirid
            obtain hdir | ⟨hother, -⟩ := hl dir hdir
            · obtain rfl | hdir := List.mem_cons.mp hdir
              · exact hrecord
              · exact absurd (hdirid.trans hid) (hne dir hdir)
            · exact absurd (hdirid.trans hid).symm (hother d List.mem_cons_self)
          have hthere : (l.disk.get? record.id).isSome = true := by
            rw [hsame, hid]
            exact Option.isSome_of_eq_some (Table.get?_of_mem hd)
          obtain ⟨herr', hsame', loaded, hloaded, hrecords, hholds⟩ :=
            holds_loadRecord g ring herr hheld hthere hresolve hinterrupt
          refine ih hrest hnodup _ herr' (fun id => (hsame' id).trans (hsame id)) fun dir hdir => ?_
          rw [hrecords]
          obtain ⟨hmem, hdirne⟩ | hmetadata := hholds dir hdir
          · obtain hdir | ⟨hother, hcounted⟩ := hl dir hmem
            · obtain rfl | hdir := List.mem_cons.mp hdir
              · exact absurd (hid.symm.trans hloaded.symm) hdirne
              · exact .inl hdir
            · refine .inr ⟨fun d' hd' => hother d' (List.mem_cons_of_mem d hd'), ?_⟩
              intro record' hrecord'
              obtain ⟨m, hm, hmid, hkeyID⟩ := hcounted record' hrecord'
              refine ⟨m, Table.mem_set.mpr (.inr ⟨hm, fun heq => hdirne ?_⟩), hmid, hkeyID⟩
              exact hmid.symm.trans heq
          · have hdirid : loaded.id = dir.id := dir.named loaded hmetadata
            refine .inr ⟨fun d' hd' => ?_, fun record' hrecord' => ?_⟩
            · rw [← hdirid, hloaded, hid]
              exact hne d' hd'
            · rw [hmetadata] at hrecord'
              injection hrecord' with hrecord'
              subst hrecord'
              exact ⟨loaded, Table.mem_set.mpr (.inl rfl), hdirid, rfl⟩
  rw [loadAll]
  split
  next hmkdir => exact hempty (.inl hmkdir)
  · split
    next hreadDir => exact hempty (.inr hreadDir)
    · refine hloop _ (fun dir hdir => mem_ranked.mp hdir) ?_ _ rfl (fun id => rfl)
        fun dir hdir => .inl (mem_ranked.mpr hdir)
      exact ((List.perm_insertionSort _ _).map _).nodup_iff.mpr disk.nodup

theorem counted_start {disk : Table Dir} {s : Startup} (h : s.complete disk = true) :
    (start g disk ring s).Counted := by
  have hloaded := counted_loadAll g ring h
  rw [start]
  dsimp only
  split
  · exact hloaded
  · have hdeleted := counted_deleteExpired
      (w := ⟨{ keyring := ring, records := (loadAll g ring disk s).records },
        (loadAll g ring disk s).disk⟩) hloaded s.now s.deletion
    split
    · exact hdeleted
    · exact hdeleted

/-! ## Retirement -/

/-- What is taken back is taken back, and a start reads all there is. -/
def Durable (w : World) : Input g → Bool
  | .rewrapAll r => r.undone w.disk [] (r.writes w.manager)
  | .restart _ s => s.complete w.disk
  | _ => true

theorem counted_step (w : World) (i : Input g) (h : w.Counted) (hi : Durable w i = true) :
    (step g w i).Counted := by
  cases i with
  | activate a =>
      show CountedDisk (w.manager.activate a).records w.disk
      rw [(same_activate w.manager a).2]
      exact h
  | stop => exact h
  | beginRequest b =>
      show (if _ then w else beginRequest w b).Counted
      split
      · exact h
      · exact counted_beginRequest h b
  | recordAttempt a => exact counted_recordAttempt h a
  | finish f => exact counted_finish h f
  | rewrapAll r => exact counted_rewrapAll h hi
  | delete id d => exact counted_delete h id d
  | deleteExpired now d => exact counted_deleteExpired h now d
  | restart ring s => exact counted_start hi

/-- The bodies of the directory open to what its metadata gives under the key
ring. -/
def Dir.Decryptable (g : Gcm) (ring : Keyring) (dir : Dir) : Prop :=
  ∀ record, dir.metadata = some record →
    ∃ key, Opens g ring record key ∧ ∀ o ∈ dir.objects, o.2 = key

/-- Whenever nothing counts for `k` or as unresolved, a start with the key ring
short of `k` leaves everything decryptable. -/
def World.Retirable (g : Gcm) (w : World) : Prop :=
  ∀ k (ring : Keyring), ring.keys = (w.manager.keyring.keys.filter fun entry => entry.1 ≠ k) →
    w.manager.keyStatus.recordsByID k = 0 → w.manager.keyStatus.unresolved = 0 →
    ∀ s : Startup, ∀ dir ∈ (start g w.disk ring s).disk.items, dir.Decryptable g ring

/-- A call of `RewrapAll` keeps the data key of every record, in memory and on
disk, and one that answers with an error changes nothing in memory. -/
def World.Rewraps (w : World) (r : Rewrap g) : Prop :=
  (∀ m ∈ w.manager.records.items, ∃ m' ∈ (rewrapAll w r).world.manager.records.items,
    m'.id = m.id ∧ ∀ key, Opens g w.manager.keyring m key → Opens g w.manager.keyring m' key) ∧
  (∀ dir' ∈ (rewrapAll w r).world.disk.items, ∃ dir ∈ w.disk.items, dir.id = dir'.id ∧
    dir'.dataKey = dir.dataKey ∧
    ∀ record, dir'.metadata = some record → Opens g w.manager.keyring record dir.dataKey) ∧
  ((rewrapAll w r).result.toOption = none → (rewrapAll w r).world.manager = w.manager)

theorem retirable_of_counted {w : World} (hsound : w.Sound g) (hcounted : w.Counted) :
    w.Retirable g := by
  intro k ring hring hk hunresolved s
  rw [Manager.keyStatus, List.countP_eq_zero] at hk hunresolved
  have hopens : ∀ dir ∈ w.disk.items, ∀ record, dir.metadata = some record →
      Opens g ring record dir.dataKey := by
    intro dir hdir record hrecord
    obtain ⟨m, hm, -, hkeyID⟩ := hcounted dir hdir record hrecord
    have hne : m.keyID ≠ "" := by
      intro hempty
      exact hunresolved m hm (decide_eq_true hempty)
    refine ((hsound dir hdir).metadata record hrecord).without hring ?_ ?_
    · rw [← hkeyID]
      exact hne
    · rw [← hkeyID]
      exact fun heq => hk m hm (decide_eq_true ⟨hne, heq⟩)
  have hstarted := sound_start (s := s) (fun dir hdir => (hsound dir hdir).objects) hopens
  intro dir hdir record hrecord
  have hdirsound := hstarted dir hdir
  refine ⟨dir.dataKey, ?_, hdirsound.objects⟩
  have hopen := hdirsound.metadata record hrecord
  rwa [keyring_start] at hopen

theorem rewraps_of_sound {w : World} (h : w.Sound g) (r : Rewrap g) : w.Rewraps r := by
  obtain ⟨hsound, hframe⟩ := sound_rewrapAll h r
  have hkeyring : (rewrapAll w r).world.manager.keyring = w.manager.keyring := by
    obtain ⟨err, -, heq⟩ | ⟨updated, -, ⟨errs, -, heq⟩ | ⟨result, -, heq⟩⟩ := rewrapAll_cases w r
    · rw [heq]
    · rw [heq]
    · rw [heq]
  refine ⟨?_, fun dir' hdir' => ?_, ?_⟩
  · intro m hm
    have hsame : ∃ m' ∈ w.manager.records.items, m'.id = m.id ∧ ∀ key,
        Opens g w.manager.keyring m key → Opens g w.manager.keyring m' key :=
      ⟨m, hm, rfl, fun _ hkey => hkey⟩
    obtain ⟨err, -, heq⟩ | ⟨updated, hupdated, ⟨errs, -, heq⟩ | ⟨result, -, heq⟩⟩ :=
      rewrapAll_cases w r
    · rw [heq]
      exact hsame
    · rw [heq]
      exact hsame
    · rw [heq]
      have hreplaces := replaces_of_updates hupdated
      obtain ⟨m', hm', hid, rfl | ⟨u, hu, rfl⟩⟩ := takeOver_keeps updated hm
      · exact ⟨m', hm', rfl, fun _ hkey => hkey⟩
      · have hreplaced := hreplaces u hu
        have hm_eq : u.1 = m := Table.key_injOn w.manager.records.nodup hreplaced.mem hm
          (hreplaced.id.symm.trans hid)
        refine ⟨u.2, hm', hid, fun key hkey => hreplaced.opens key ?_⟩
        rw [hm_eq]
        exact hkey
  · obtain ⟨dir, hdir, hid, hkey⟩ := hframe dir' hdir'
    refine ⟨dir, hdir, hid, hkey, fun record hrecord => ?_⟩
    have hopens := (hsound dir' hdir').metadata record hrecord
    rwa [hkeyring, hkey] at hopens
  · intro herr
    obtain ⟨err, -, heq⟩ | ⟨updated, -, ⟨errs, -, heq⟩ | ⟨result, -, heq⟩⟩ := rewrapAll_cases w r
    · rw [heq]
    · rw [heq]
    · rw [heq] at herr
      cases herr

/-- After every run in which restarts find the keys that are in use, a rewrap
does its part, and if moreover nothing that is taken back is lost and every
start reads all there is, a key nothing counts for can be retired. -/
theorem run_retirable {disk : Table Dir} {ring : Keyring} {s : Startup} {inputs : List (Input g)}
    (hobjects : ∀ dir ∈ disk.items, ∀ o ∈ dir.objects, o.2 = dir.dataKey)
    (hring : ∀ dir ∈ disk.items, ∀ record, dir.metadata = some record →
      Opens g ring record dir.dataKey)
    (hconfigured : Along (step g) (Configured g) (start g disk ring s) inputs) :
    (s.complete disk = true →
        Along (step g) (fun w i => Durable w i = true) (start g disk ring s) inputs →
        (inputs.foldl (step g) (start g disk ring s)).Retirable g) ∧
      ∀ r : Rewrap g, (inputs.foldl (step g) (start g disk ring s)).Rewraps r := by
  have hstart : (start g disk ring s).Sound g := sound_start hobjects hring
  have hsound : (inputs.foldl (step g) (start g disk ring s)).Sound g :=
    Along.invariant sound_step hstart hconfigured
  constructor
  · intro hcomplete hdurable
    exact retirable_of_counted hsound
      (Along.invariant counted_step (counted_start hcomplete) hdurable)
  · exact rewraps_of_sound hsound

/-! ## Two records and a rotation -/

def oldKey : Bytes := List.replicate 32 1

def newKey : Bytes := List.replicate 32 2

def rotating : Keyring where
  activeID := "new"
  keys := [("new", newKey), ("old", oldKey)]
  sorted := by decide
  sized := by decide
  named := by decide
  active := by decide

def beforeRotation : Keyring where
  activeID := "old"
  keys := [("old", oldKey)]
  sorted := by decide
  sized := by decide
  named := by decide
  active := by decide

/-- A record wrapped under the old key, in its directory. -/
def oldDir (id : String) (key : Bytes) : Dir where
  id := id
  dataKey := key
  metadata := some
    { id
      requestID := id
      state := "completed"
      expiresAt := 100
      wrappedKey :=
        List.replicate 12 0 ++ checksum.sealText oldKey (List.replicate 12 0) key wrapContext
      keyID := "old" }
  objects := [("request.body.enc", key)]
  named := by
    intro record h
    cases h
    rfl

def twoDirs : Table Dir where
  items := [oldDir "a" (List.replicate 32 3), oldDir "b" (List.replicate 32 4)]
  nodup := by decide

def startup : Startup := { now := 0, rank := fun _ => 0 }

/-- A rewrap whose second write fails. -/
def failing (rollback : String → Fate) : Rewrap checksum where
  nonces _ := ⟨List.replicate 12 5, rfl⟩
  rank _ := 0
  writeRank _ := 0
  write id := if id = "b" then .lost "metadata_rename" "input/output error" else .written
  rollback := rollback

/-- The records of the directories open under the key ring to the keys of
their bodies. -/
def opensAll (disk : Table Dir) (ring : Keyring) : Bool :=
  disk.items.all fun dir => dir.metadata.all fun record =>
    match dataKey checksum ring record with
    | .ok (key, _) => key = dir.dataKey
    | .error _ => false

theorem opens_of_opensAll {disk : Table Dir} (h : opensAll disk ring = true) :
    ∀ dir ∈ disk.items, ∀ record, dir.metadata = some record →
      Opens checksum ring record dir.dataKey := by
  intro dir hdir record hrecord
  have hdirOpens := List.all_eq_true.mp h dir hdir
  rw [hrecord, Option.all_some] at hdirOpens
  split at hdirOpens
  next key id hkey => exact ⟨id, by rw [hkey, of_decide_eq_true hdirOpens]⟩
  · cases hdirOpens

/-- A rewrap that fails and is rolled back, and a restart. -/
def rolledBack : List (Input checksum) :=
  [.rewrapAll (failing fun _ => .written), .restart rotating startup]

theorem run_retirable_rolledBack :
    World.Retirable checksum
      (rolledBack.foldl (step checksum) (start checksum twoDirs rotating startup)) ∧
      World.Rewraps (rolledBack.foldl (step checksum) (start checksum twoDirs rotating startup))
        (failing fun _ => .written) := by
  have hrun := @run_retirable checksum twoDirs rotating startup rolledBack (by decide +kernel)
    (opens_of_opensAll (by decide +kernel)) ⟨trivial, opens_of_opensAll (by decide +kernel), trivial⟩
  exact ⟨hrun.1 (by decide +kernel) ⟨by decide +kernel, by decide +kernel, trivial⟩, hrun.2 _⟩

/-- A rewrap that fails and cannot be rolled back. -/
def stranded : World :=
  step checksum (start checksum twoDirs rotating startup)
    (.rewrapAll (failing fun _ => .lost "metadata_rename" "input/output error"))

/-- The first record is written under the new key and cannot be written back:
nothing counts for the new key, and without it the record is lost. -/
theorem not_retirable_stranded : ¬stranded.Retirable checksum := by
  intro h
  have hlost := h "new" beforeRotation (by decide +kernel) (by decide +kernel) (by decide +kernel)
    startup
  have hopen : ((start checksum stranded.disk beforeRotation startup).disk.items.all fun dir =>
      dir.metadata.all fun record =>
        (dataKey checksum beforeRotation record).toOption.isSome) = true := by
    rw [List.all_eq_true]
    intro dir hdir
    rw [Option.all_eq_true]
    intro record hrecord
    obtain ⟨key, ⟨id, hkey⟩, -⟩ := hlost dir hdir record hrecord
    rw [hkey]
    rfl
  revert hopen
  decide +kernel

end RelayLifeline.Capture
