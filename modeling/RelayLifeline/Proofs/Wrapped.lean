import RelayLifeline.Capture.Effects
import RelayLifeline.Lib.Trace

/-!
# Whatever is written opens to the key of its directory

After every run the metadata of a directory, and the manager's copy of it, open
to the key the directory's bodies are sealed under (`Dir.Sound`). Every write
puts down a record that opens to that key: a record is written as it is in
memory, or rewrapped, which keeps what it opens to, or with the name of the key
that was found for it. No failure of the file system changes that, since a
write either replaces the metadata or leaves it, and a removal only takes away.
-/

namespace RelayLifeline.Capture

open Lib

variable {g : Gcm} {ring : Keyring}

/-! ## What a directory opens to -/

/-- What the metadata and the copy of it in memory open to. -/
structure Dir.Sound (g : Gcm) (ring : Keyring) (records : Table Record) (dir : Dir) : Prop where
  objects : ∀ o ∈ dir.objects, o.2 = dir.dataKey
  metadata : ∀ record, dir.metadata = some record → Opens g ring record dir.dataKey
  memory : ∀ record ∈ records.items, record.id = dir.id → Opens g ring record dir.dataKey

def SoundDisk (g : Gcm) (ring : Keyring) (records : Table Record) (disk : Table Dir) : Prop :=
  ∀ dir ∈ disk.items, dir.Sound g ring records

/-- The record opens to the key of its directory, if it has one. -/
def Fits (g : Gcm) (ring : Keyring) (disk : Table Dir) (record : Record) : Prop :=
  ∀ dir ∈ disk.items, dir.id = record.id → Opens g ring record dir.dataKey

theorem Fits.congr {disk : Table Dir} {record record' : Record} (h : Fits g ring disk record)
    (hid : record'.id = record.id) (hkey : record'.wrappedKey = record.wrappedKey)
    (hkeyID : record'.keyID = record.keyID) : Fits g ring disk record' :=
  fun dir hdir hd => (h dir hdir (hd.trans hid)).congr hkey hkeyID

/-- Every directory was there before, under the same key. -/
def Framed (disk disk' : Table Dir) : Prop :=
  ∀ dir ∈ disk'.items, ∃ old ∈ disk.items, old.id = dir.id ∧ dir.dataKey = old.dataKey

theorem Framed.trans {disk disk' disk'' : Table Dir} (h : Framed disk disk')
    (h' : Framed disk' disk'') : Framed disk disk'' := by
  intro dir hdir
  obtain ⟨mid, hmid, hid, hkey⟩ := h' dir hdir
  obtain ⟨old, hold, hid', hkey'⟩ := h mid hmid
  exact ⟨old, hold, hid'.trans hid, hkey.trans hkey'⟩

theorem Fits.framed {disk disk' : Table Dir} {record : Record} (h : Fits g ring disk record)
    (hframe : Framed disk disk') : Fits g ring disk' record := by
  intro dir hdir hd
  obtain ⟨old, hold, hid, hkey⟩ := hframe dir hdir
  rw [hkey]
  exact h old hold (hid.trans hd)

theorem framed_persist (disk : Table Dir) (record : Record) (fate : Fate) :
    Framed disk (persist disk record fate).disk := by
  intro dir hdir
  obtain ⟨hmem, -⟩ | ⟨old, hold, hid, hkey, -⟩ := mem_persist hdir
  · exact ⟨dir, hmem, rfl, rfl⟩
  · exact ⟨old, hold, hid, hkey⟩

theorem framed_writeObject {disk : Table Dir} {id name : String} {key : Bytes} {base : BodyPart}
    {fate : BodyFate} : Framed disk (writeObject disk id key name base fate).disk := by
  intro dir hdir
  obtain ⟨old, hold, hid, hkey, -⟩ := mem_writeObject hdir
  exact ⟨old, hold, hid, hkey⟩

namespace SoundDisk

variable {records : Table Record} {disk : Table Dir} {record : Record}

theorem fits (h : SoundDisk g ring records disk) (hmem : record ∈ records.items) :
    Fits g ring disk record :=
  fun dir hdir hid => (h dir hdir).memory record hmem hid.symm

/-- Fewer records in memory. -/
theorem mono (h : SoundDisk g ring records disk) {records' : Table Record}
    (hsub : ∀ m ∈ records'.items, m ∈ records.items) : SoundDisk g ring records' disk :=
  fun dir hdir => ⟨(h dir hdir).objects, (h dir hdir).metadata,
    fun m hm => (h dir hdir).memory m (hsub m hm)⟩

theorem set (h : SoundDisk g ring records disk) (hfits : Fits g ring disk record) :
    SoundDisk g ring (records.set record) disk := by
  intro dir hdir
  refine ⟨(h dir hdir).objects, (h dir hdir).metadata, fun m hm hid => ?_⟩
  obtain rfl | ⟨hm, -⟩ := Table.mem_set.mp hm
  · exact hfits dir hdir hid.symm
  · exact (h dir hdir).memory m hm hid

theorem persist (h : SoundDisk g ring records disk) (hfits : Fits g ring disk record)
    (fate : Fate) : SoundDisk g ring records (Capture.persist disk record fate).disk := by
  intro dir hdir
  obtain ⟨hmem, -⟩ | ⟨old, hold, hid, hkey, hobjects, hmetadata⟩ := mem_persist hdir
  · exact h dir hmem
  · have hs := h old hold
    have hrecord : record.id = dir.id := dir.named record hmetadata
    constructor
    · rw [hobjects, hkey]
      exact hs.objects
    · intro record' hrecord'
      rw [hmetadata] at hrecord'
      injection hrecord' with hrecord'
      subst hrecord'
      rw [hkey]
      exact hfits old hold (hid.trans hrecord.symm)
    · intro m hm hmid
      rw [hkey]
      exact hs.memory m hm (hmid.trans hid.symm)

theorem removeAll (h : SoundDisk g ring records disk) (id : String) (removal : Removal) :
    SoundDisk g ring records (Capture.removeAll disk id removal) := by
  intro dir hdir
  obtain ⟨-, old, hold, hid, hkey, hobjects, hmetadata⟩ := mem_removeAll hdir
  have hs := h old hold
  constructor
  · intro o ho
    rw [hkey]
    exact hs.objects o (hobjects o ho)
  · intro record' hrecord'
    rw [hkey]
    obtain hnone | hsame := hmetadata
    · rw [hnone] at hrecord'
      cases hrecord'
    · exact hs.metadata record' (hsame ▸ hrecord')
  · intro m hm hmid
    rw [hkey]
    exact hs.memory m hm (hmid.trans hid.symm)

/-- An object sealed under the key of its directory. -/
theorem writeObject (h : SoundDisk g ring records disk) {id : String} (name : String)
    {key : Bytes} (base : BodyPart) (fate : BodyFate)
    (hkey : ∀ dir ∈ disk.items, dir.id = id → dir.dataKey = key) :
    SoundDisk g ring records (Capture.writeObject disk id key name base fate).disk := by
  intro dir hdir
  obtain ⟨old, hold, hid, hsame, hmetadata, hobjects⟩ := mem_writeObject hdir
  have hs := h old hold
  constructor
  · intro o ho
    rw [hsame]
    obtain ho | ⟨ho, hdirid⟩ := hobjects o ho
    · exact hs.objects o ho
    · rw [ho, hkey old hold (hid.trans hdirid)]
  · intro record' hrecord'
    rw [hsame]
    exact hs.metadata record' (hmetadata ▸ hrecord')
  · intro m hm hmid
    rw [hsame]
    exact hs.memory m hm (hmid.trans hid.symm)

theorem removeObject (h : SoundDisk g ring records disk) (id name : String) :
    SoundDisk g ring records (Capture.removeObject disk id name) := by
  intro dir hdir
  obtain ⟨old, hold, hid, hkey, hmetadata, hobjects⟩ := mem_removeObject hdir
  have hs := h old hold
  constructor
  · intro o ho
    rw [hkey]
    exact hs.objects o (hobjects o ho)
  · intro record' hrecord'
    rw [hkey]
    exact hs.metadata record' (hmetadata ▸ hrecord')
  · intro m hm hmid
    rw [hkey]
    exact hs.memory m hm (hmid.trans hid.symm)

/-- The writing of a record, whatever becomes of it, and the copy in memory if
it was committed. -/
theorem persist_set (h : SoundDisk g ring records disk) (hfits : Fits g ring disk record)
    (fate : Fate) :
    SoundDisk g ring (records.set record) (Capture.persist disk record fate).disk :=
  (h.persist hfits fate).set (hfits.framed (framed_persist disk record fate))

end SoundDisk

def World.Sound (g : Gcm) (w : World) : Prop :=
  SoundDisk g w.manager.keyring w.manager.records w.disk

/-! ## Every call keeps the directories sound -/

@[simp] theorem keyring_expireActivation (m : Manager) (now : Int) :
    (m.expireActivation now).keyring = m.keyring := by
  rw [Manager.expireActivation]
  split <;> rfl

@[simp] theorem records_expireActivation (m : Manager) (now : Int) :
    (m.expireActivation now).records = m.records := by
  rw [Manager.expireActivation]
  split <;> rfl

theorem same_activate (m : Manager) (a : Activation) :
    (m.activate a).keyring = m.keyring ∧ (m.activate a).records = m.records := by
  simp only [Manager.activate]
  split_ifs <;> exact ⟨rfl, rfl⟩

theorem sound_activate {w : World} (h : w.Sound g) (a : Activation) :
    World.Sound g { w with manager := w.manager.activate a } := by
  obtain ⟨hkeyring, hrecords⟩ := same_activate w.manager a
  show SoundDisk g (w.manager.activate a).keyring (w.manager.activate a).records w.disk
  rw [hkeyring, hrecords]
  exact h

theorem sound_beginIn {m : Manager} {disk : Table Dir} {b : Begin g} {record : Record}
    (h : SoundDisk g m.keyring m.records disk) (hid : record.id = b.id)
    (hkey : ∀ dir ∈ disk.items, dir.id = b.id → dir.dataKey = b.dataKey)
    (hopens : Opens g m.keyring record b.dataKey) : (beginIn m disk b record).Sound g := by
  have hobject := h.writeObject "request.body.enc" record.request b.body hkey
  rw [beginIn]
  dsimp only
  split
  · exact hobject.removeAll b.id b.removal
  next part hpart =>
    have hfits : Fits g m.keyring
        (writeObject disk b.id b.dataKey "request.body.enc" record.request b.body).disk
        { record with
          request := part
          capturedBytes := record.capturedBytes + part.storedBytes } := by
      intro dir hdir hd
      obtain ⟨old, hold, holdid, hsame⟩ := framed_writeObject dir hdir
      rw [hsame, hkey old hold (holdid.trans (hd.trans hid))]
      exact hopens.congr rfl rfl
    split
    · exact hobject.persist_set hfits b.metadata
    · exact (hobject.persist hfits b.metadata).removeAll b.id b.removal

theorem sound_beginRequest {w : World} (h : w.Sound g) {b : Begin g}
    (hrecords : w.manager.records.get? b.id = none) :
    (beginRequest w b).Sound g := by
  have hexpired : SoundDisk g (w.manager.expireActivation b.now).keyring
      (w.manager.expireActivation b.now).records w.disk := by
    rw [keyring_expireActivation, records_expireActivation]
    exact h
  rw [beginRequest]
  dsimp only
  split
  · exact hexpired
  · split
    · exact hexpired
    · split
      · exact hexpired
      next wrapped hwrapped =>
        split
        · exact hexpired
        · -- The directory is new: nothing in memory carries its name.
          have hdir : SoundDisk g (w.manager.expireActivation b.now).keyring
              (w.manager.expireActivation b.now).records
              (w.disk.set { id := b.id, dataKey := b.dataKey }) := by
            intro dir hdir
            obtain rfl | ⟨hmem, -⟩ := Table.mem_set.mp hdir
            · refine ⟨fun o ho => (by cases ho), fun record hrecord => (by cases hrecord), ?_⟩
              intro m hm hid
              rw [records_expireActivation] at hm
              exact absurd hid (Table.get?_eq_none.mp hrecords m hm)
            · exact hexpired dir hmem
          split
          · exact hdir.removeAll b.id b.removal
          · refine sound_beginIn hdir rfl ?_ (opens_of_wrapKey hwrapped rfl rfl)
            intro dir hmem hid
            obtain rfl | ⟨-, hne⟩ := Table.mem_set.mp hmem
            · rfl
            · exact absurd hid hne

/-- What an attempt's body leaves on disk, and the record it goes with. -/
theorem sound_recordBody {w : World} (h : w.Sound g) {record : Record}
    (hmem : record ∈ w.manager.records.items) {disabled : Bool} {a : Attempted} {r : Recording}
    (hr : recordBody g w.manager.keyring w.disk record disabled a = some r) :
    SoundDisk g w.manager.keyring w.manager.records r.disk ∧ Framed w.disk r.disk ∧
      r.record.id = record.id ∧ r.record.wrappedKey = record.wrappedKey ∧
      r.record.keyID = record.keyID := by
  have hsame : Framed w.disk w.disk := fun dir hdir => ⟨dir, hdir, rfl, rfl⟩
  rw [recordBody] at hr
  split at hr
  · injection hr with hr
    subst hr
    exact ⟨h, hsame, rfl, rfl, rfl⟩
  next body hbody =>
    split at hr
    · injection hr with hr
      subst hr
      exact ⟨h, hsame, rfl, rfl, rfl⟩
    · split at hr
      · split at hr
        · cases hr
        next key id hkey =>
          have hsealed : ∀ dir ∈ w.disk.items, dir.id = record.id → dir.dataKey = key := by
            intro dir hdir hid
            exact (h.fits hmem dir hdir hid).unique ⟨id, hkey⟩
          have hobject := h.writeObject (attemptObject a.number)
            { contentType := a.contentType } body hsealed
          dsimp only at hr
          split at hr
          · injection hr with hr
            subst hr
            exact ⟨hobject, framed_writeObject, rfl, rfl, rfl⟩
          · injection hr with hr
            subst hr
            exact ⟨hobject, framed_writeObject, rfl, rfl, rfl⟩
      · injection hr with hr
        subst hr
        exact ⟨h, hsame, rfl, rfl, rfl⟩

theorem sound_recordAttempt {w : World} (h : w.Sound g) (a : Attempted) :
    (recordAttempt g w a).Sound g := by
  rw [recordAttempt]
  split
  · exact h
  next id hid =>
    split
    · exact h
    next record hrecord =>
      split
      · exact h
      next r hr =>
        have hmem := Table.mem_of_get? hrecord
        obtain ⟨hdisk, hframe, hsame, hwrapped, hkeyID⟩ := sound_recordBody h hmem hr
        have hfits : Fits g w.manager.keyring r.disk (r.attempted a) :=
          (((h.fits hmem).congr hsame hwrapped hkeyID).framed hframe).congr rfl rfl rfl
        rw [recordMetadata]
        split
        · exact hdisk.persist_set hfits a.metadata
        · have hlost := hdisk.persist hfits a.metadata
          split
          · exact hlost
          · split
            · exact hlost.removeObject id _
            · exact hlost

theorem sound_finish {w : World} (h : w.Sound g) (f : Finished) : (finish w f).Sound g := by
  rw [finish]
  dsimp only
  split
  · exact h
  · split
    · exact h
    next record hrecord =>
      have hfits : Fits g w.manager.keyring w.disk (record.finish f) :=
        (h.fits (Table.mem_of_get? hrecord)).congr rfl rfl rfl
      split
      · exact h.persist_set hfits f.metadata
      · exact h.persist hfits f.metadata

/-! ### Rewrapping -/

theorem mem_ranked {α : Type} [Keyed α String] {items : List α} {rank : String → Nat} {a : α} :
    a ∈ ranked items rank ↔ a ∈ items := List.mem_insertionSort _

/-- The records a rewrap writes: in memory, and each with a replacement that
opens to the same key. -/
structure Replaces (g : Gcm) (ring : Keyring) (records : Table Record) (u : Record × Record) :
    Prop where
  mem : u.1 ∈ records.items
  id : u.2.id = u.1.id
  keyID : u.2.keyID = ring.activeID
  opens : ∀ key, Opens g ring u.1 key → Opens g ring u.2 key

theorem replaces_of_updates {w : World} {r : Rewrap g} {updated : List (Record × Record)}
    (h : updates w.manager.keyring r.nonces (ranked w.manager.records.items r.rank) =
      .ok updated) :
    ∀ u ∈ updated, Replaces g w.manager.keyring w.manager.records u := by
  obtain ⟨hfst, hrewrap⟩ := updates_ok h
  intro u hu
  obtain ⟨nonce, hnonce⟩ := hrewrap u hu
  obtain ⟨hid, hkeyID, key, hopens, hopens'⟩ := opens_of_rewrapRecord hnonce
  have hmem : u.1 ∈ updated.map Prod.fst := List.mem_map_of_mem hu
  rw [hfst] at hmem
  refine ⟨mem_ranked.mp (List.mem_filter.mp hmem).1, hid, hkeyID, fun key' hkey' => ?_⟩
  rw [hkey'.unique hopens]
  exact hopens'

theorem sound_commit {records : Table Record} {disk : Table Dir} (r : Rewrap g)
    (us : List (Record × Record)) (h : SoundDisk g ring records disk)
    (hus : ∀ u ∈ us, Replaces g ring records u) :
    SoundDisk g ring records (commit r disk [] us).1 ∧ Framed disk (commit r disk [] us).1 := by
  apply commit_invariant (P := fun disk' => SoundDisk g ring records disk' ∧ Framed disk disk')
  · intro disk' ⟨hsound, hframe⟩ u hu fate
    have hu := hus u hu
    have hfits := hsound.fits hu.mem
    refine ⟨⟨hsound.persist hfits fate, hframe.trans (framed_persist _ _ _)⟩,
      hsound.persist (fun dir hdir hid => ?_) fate, hframe.trans (framed_persist _ _ _)⟩
    exact hu.opens _ (hfits dir hdir (hid.trans hu.id))
  · exact ⟨h, fun dir hdir => ⟨dir, hdir, rfl, rfl⟩⟩

/-- What becomes of a record when the replacements are taken over. -/
theorem takeOver_keeps {records : Table Record} (us : List (Record × Record)) {m : Record}
    (h : m ∈ records.items) :
    ∃ m' ∈ (us.foldl (fun records u => records.set u.2) records).items,
      m'.id = m.id ∧ (m' = m ∨ ∃ u ∈ us, m' = u.2) := by
  induction us generalizing records m with
  | nil => exact ⟨m, h, rfl, .inl rfl⟩
  | cons u us ih =>
      by_cases hid : m.id = u.2.id
      · obtain ⟨m', hm', hid', hwhich⟩ :=
          ih (Table.mem_set.mpr (.inl rfl) : u.2 ∈ (records.set u.2).items)
        refine ⟨m', hm', hid'.trans hid.symm, .inr ?_⟩
        obtain rfl | ⟨u', hu', rfl⟩ := hwhich
        · exact ⟨u, List.mem_cons_self, rfl⟩
        · exact ⟨u', List.mem_cons_of_mem u hu', rfl⟩
      · obtain ⟨m', hm', hid', hwhich⟩ :=
          ih (Table.mem_set.mpr (.inr ⟨h, hid⟩) : m ∈ (records.set u.2).items)
        refine ⟨m', hm', hid', ?_⟩
        obtain rfl | ⟨u', hu', rfl⟩ := hwhich
        · exact .inl rfl
        · exact .inr ⟨u', List.mem_cons_of_mem u hu', rfl⟩

/-- A record that was replaced is a replacement from then on. -/
theorem takeOver_replaced (records : Table Record) {us : List (Record × Record)}
    {u : Record × Record} (h : u ∈ us) :
    ∃ m' ∈ (us.foldl (fun records u => records.set u.2) records).items,
      m'.id = u.2.id ∧ ∃ u' ∈ us, m' = u'.2 := by
  induction us generalizing records with
  | nil => cases h
  | cons first us ih =>
      obtain rfl | h := List.mem_cons.mp h
      · obtain ⟨m', hm', hid, hwhich⟩ := takeOver_keeps us
          (Table.mem_set.mpr (.inl rfl) : u.2 ∈ (records.set u.2).items)
        refine ⟨m', hm', hid, ?_⟩
        obtain rfl | ⟨u', hu', rfl⟩ := hwhich
        · exact ⟨u, List.mem_cons_self, rfl⟩
        · exact ⟨u', List.mem_cons_of_mem u hu', rfl⟩
      · obtain ⟨m', hm', hid, u', hu', rfl⟩ := ih (records.set first.2) h
        exact ⟨u'.2, hm', hid, u', List.mem_cons_of_mem first hu', rfl⟩

/-- The records after the replacements were taken over. -/
theorem mem_takeOver {records : Table Record} {us : List (Record × Record)} {m : Record}
    (h : m ∈ (us.foldl (fun records u => records.set u.2) records).items) :
    m ∈ records.items ∨ ∃ u ∈ us, m = u.2 := by
  induction us generalizing records with
  | nil => exact .inl h
  | cons u us ih =>
      obtain hm | ⟨u', hu', rfl⟩ := ih h
      · obtain rfl | ⟨hm, -⟩ := Table.mem_set.mp hm
        · exact .inr ⟨u, List.mem_cons_self, rfl⟩
        · exact .inl hm
      · exact .inr ⟨u', List.mem_cons_of_mem u hu', rfl⟩

/-- The pairs in the order the second loop goes through them. -/
def Rewrap.order (r : Rewrap g) (updated : List (Record × Record)) : List (Record × Record) :=
  updated.insertionSort fun a b => r.writeRank a.1.id ≤ r.writeRank b.1.id

theorem rewrapAll_cases (w : World) (r : Rewrap g) :
    (∃ err, updates w.manager.keyring r.nonces (ranked w.manager.records.items r.rank) =
        .error err ∧ rewrapAll w r = ⟨w, .error [err]⟩) ∨
      ∃ updated, updates w.manager.keyring r.nonces (ranked w.manager.records.items r.rank) =
        .ok updated ∧
        ((∃ errs, (commit r w.disk [] (r.order updated)).2 ≠ [] ∧ rewrapAll w r =
            ⟨{ w with disk := (commit r w.disk [] (r.order updated)).1 }, .error errs⟩) ∨
          ∃ result, (commit r w.disk [] (r.order updated)).2 = [] ∧ rewrapAll w r =
            ⟨⟨{ w.manager with
                records := updated.foldl (fun records u => records.set u.2) w.manager.records },
              (commit r w.disk [] (r.order updated)).1⟩, .ok result⟩) := by
  rw [rewrapAll]
  dsimp only
  split
  next err herr => exact .inl ⟨err, herr, rfl⟩
  next updated hupdated =>
    refine .inr ⟨updated, hupdated, ?_⟩
    split
    next hne => exact .inl ⟨_, hne, rfl⟩
    next heq =>
      rw [not_not] at heq
      exact .inr ⟨_, heq, rfl⟩

theorem sound_rewrapAll {w : World} (h : w.Sound g) (r : Rewrap g) :
    (rewrapAll w r).world.Sound g ∧ Framed w.disk (rewrapAll w r).world.disk := by
  obtain ⟨err, -, heq⟩ | ⟨updated, hupdated, hcommit⟩ := rewrapAll_cases w r
  · rw [heq]
    exact ⟨h, fun dir hdir => ⟨dir, hdir, rfl, rfl⟩⟩
  · have hreplaces := replaces_of_updates hupdated
    have hdisk := sound_commit r (r.order updated) h
      (fun u hu => hreplaces u ((List.mem_insertionSort _).mp hu))
    obtain ⟨errs, -, heq⟩ | ⟨result, -, heq⟩ := hcommit
    · rw [heq]
      exact hdisk
    · rw [heq]
      refine ⟨fun dir hdir => ?_, hdisk.2⟩
      have hs := hdisk.1 dir hdir
      refine ⟨hs.objects, hs.metadata, fun m hm hid => ?_⟩
      obtain hm | ⟨u, hu, rfl⟩ := mem_takeOver hm
      · exact hs.memory m hm hid
      · have hu := hreplaces u hu
        exact hu.opens _ (hs.memory u.1 hu.mem (hu.id.symm.trans hid))

/-! ### Deletion and starting -/

theorem sound_removeEach {records : Table Record} {d : Deletion} {disk : Table Dir}
    (h : SoundDisk g ring records disk) (expired : List Record) :
    SoundDisk g ring records
      (expired.foldl (fun disk record => removeAll disk record.id (d.removal record.id)) disk) := by
  induction expired generalizing disk with
  | nil => exact h
  | cons record expired ih => exact ih (h.removeAll record.id _)

/-- Forgetting records leaves a part of the others. -/
theorem forget_each (m : Manager) (removed : List Record) :
    (removed.foldl Manager.forget m).keyring = m.keyring ∧
      ∀ record, record ∈ (removed.foldl Manager.forget m).records.items ↔
        record ∈ m.records.items ∧ ∀ r ∈ removed, r.id ≠ record.id := by
  induction removed generalizing m with
  | nil => exact ⟨rfl, fun record => ⟨fun h => ⟨h, fun r hr => by cases hr⟩, fun h => h.1⟩⟩
  | cons r removed ih =>
      obtain ⟨hkeyring, hrecords⟩ := ih (m.forget r)
      refine ⟨hkeyring, fun record => ?_⟩
      rw [List.foldl_cons, hrecords]
      show record ∈ (m.records.erase r.id).items ∧ _ ↔ _
      rw [Table.mem_erase]
      constructor
      · intro ⟨⟨hmem, hne⟩, hrest⟩
        refine ⟨hmem, fun r' hr' => ?_⟩
        obtain rfl | hr' := List.mem_cons.mp hr'
        · exact fun heq => hne heq.symm
        · exact hrest r' hr'
      · intro ⟨hmem, hall⟩
        exact ⟨⟨hmem, fun heq => hall r List.mem_cons_self heq.symm⟩,
          fun r' hr' => hall r' (List.mem_cons_of_mem r hr')⟩

theorem sound_delete {w : World} (h : w.Sound g) (id : String) (d : Deletion) :
    (delete w id d).Sound g := by
  rw [delete]
  split
  · exact h
  · have hdisk := SoundDisk.removeAll h id (d.removal id)
    dsimp only
    split
    · exact hdisk.mono fun m hm => (Table.mem_erase.mp hm).1
    · exact hdisk

theorem sound_deleteExpired {w : World} (h : w.Sound g) (now : Int) (d : Deletion) :
    (deleteExpired w now d).Sound g := by
  rw [deleteExpired]
  have hdisk := sound_removeEach (d := d) h
    (w.manager.records.items.filter fun record => record.expiresAt ≤ now)
  split
  · exact hdisk
  · obtain ⟨hkeyring, hrecords⟩ := forget_each w.manager
      ((w.manager.records.items.filter fun record => record.expiresAt ≤ now).filter
        fun record => (d.removal record.id).isDone)
    show SoundDisk g (List.foldl Manager.forget w.manager _).keyring _ _
    rw [hkeyring]
    exact hdisk.mono fun m hm => ((hrecords m).mp hm).1

/-- A record as it is read, with its key named, still opens to the same key. -/
theorem sound_resolveKey {records : Table Record} {disk : Table Dir} {record : Record}
    {s : Startup} (h : SoundDisk g ring records disk) (hfits : Fits g ring disk record) :
    SoundDisk g ring records (resolveKey g ring s disk record).1.disk ∧
      Framed disk (resolveKey g ring s disk record).1.disk ∧
      Fits g ring disk (resolveKey g ring s disk record).2 := by
  obtain ⟨heq, -⟩ | ⟨key, id, hempty, hkey, heq⟩ := resolveKey_cases g ring s disk record
  · rw [heq]
    exact ⟨h, fun dir hdir => ⟨dir, hdir, rfl, rfl⟩, hfits⟩
  · rw [heq]
    have hnamed : Fits g ring disk { record with keyID := id } := by
      intro dir hdir hid
      rw [(hfits dir hdir hid).unique ⟨id, hkey⟩]
      exact (opens_resolved hempty hkey).2
    exact ⟨h.persist hnamed _, framed_persist _ _ _, hnamed⟩

theorem sound_loadRecord {s : Startup} {l : Loading} {record : Record}
    (h : SoundDisk g ring l.records l.disk) (hfits : Fits g ring l.disk record) :
    SoundDisk g ring (loadRecord g ring s l record).records (loadRecord g ring s l record).disk ∧
      Framed l.disk (loadRecord g ring s l record).disk := by
  obtain ⟨hdisk, hframe, hnamed⟩ := sound_resolveKey (s := s) h hfits
  have hnamed := hnamed.framed hframe
  rw [loadRecord]
  dsimp only
  split
  · exact ⟨hdisk, hframe⟩
  · split
    · have hended : Fits g ring (resolveKey g ring s l.disk record).1.disk
          ((resolveKey g ring s l.disk record).2.interrupt s.now) := hnamed.congr rfl rfl rfl
      split
      · exact ⟨hdisk.persist hended _, hframe.trans (framed_persist _ _ _)⟩
      · exact ⟨hdisk.persist_set hended _, hframe.trans (framed_persist _ _ _)⟩
    · exact ⟨hdisk.set hnamed, hframe⟩

theorem sound_loadAll {disk : Table Dir} {s : Startup}
    (hobjects : ∀ dir ∈ disk.items, ∀ o ∈ dir.objects, o.2 = dir.dataKey)
    (hopens : ∀ dir ∈ disk.items, ∀ record, dir.metadata = some record →
      Opens g ring record dir.dataKey) :
    SoundDisk g ring (loadAll g ring disk s).records (loadAll g ring disk s).disk := by
  have hcold : SoundDisk g ring ∅ disk := fun dir hdir =>
    ⟨hobjects dir hdir, hopens dir hdir, fun m hm => by cases hm⟩
  -- The loop goes through the directories as they were listed; none changes its key meanwhile.
  have hloop : ∀ dirs : List Dir, (∀ dir ∈ dirs, dir ∈ disk.items) → ∀ l : Loading,
      SoundDisk g ring l.records l.disk → Framed disk l.disk →
      SoundDisk g ring (dirs.foldl (loadDir g ring s) l).records
        (dirs.foldl (loadDir g ring s) l).disk := by
    intro dirs
    induction dirs with
    | nil => exact fun _ _ h _ => h
    | cons dir dirs ih =>
        intro hdirs l hl hframe
        have hdir := hdirs dir List.mem_cons_self
        have hnext : SoundDisk g ring (loadDir g ring s l dir).records
              (loadDir g ring s l dir).disk ∧ Framed disk (loadDir g ring s l dir).disk := by
          rw [loadDir]
          split
          · exact ⟨hl, hframe⟩
          · split
            · exact ⟨hl, hframe⟩
            next record hrecord =>
              split
              · exact ⟨hl, hframe⟩
              · have hfits : Fits g ring disk record := by
                  intro other hother hid
                  have hsame : other = dir := Table.key_injOn disk.nodup hother hdir
                    (hid.trans (dir.named record hrecord))
                  rw [hsame]
                  exact hopens dir hdir record hrecord
                obtain ⟨hsound, hframe'⟩ := sound_loadRecord (s := s) hl (hfits.framed hframe)
                exact ⟨hsound, hframe.trans hframe'⟩
        exact ih (fun d hd => hdirs d (List.mem_cons_of_mem dir hd)) _ hnext.1 hnext.2
  rw [loadAll]
  split
  · exact hcold
  · split
    · exact hcold
    · exact hloop _ (fun dir hdir => mem_ranked.mp hdir) _ hcold
        (fun dir hdir => ⟨dir, hdir, rfl, rfl⟩)

theorem keyring_deleteExpired (w : World) (now : Int) (d : Deletion) :
    (deleteExpired w now d).manager.keyring = w.manager.keyring := by
  rw [deleteExpired]
  split
  · rfl
  · exact (forget_each _ _).1

theorem keyring_start (g : Gcm) (disk : Table Dir) (ring : Keyring) (s : Startup) :
    (start g disk ring s).manager.keyring = ring := by
  rw [start]
  dsimp only
  split
  · rfl
  · split
    · exact keyring_deleteExpired _ _ _
    · exact keyring_deleteExpired _ _ _

/-- A start with a ring that opens what is on disk. -/
theorem sound_start {disk : Table Dir} {s : Startup}
    (hobjects : ∀ dir ∈ disk.items, ∀ o ∈ dir.objects, o.2 = dir.dataKey)
    (hopens : ∀ dir ∈ disk.items, ∀ record, dir.metadata = some record →
      Opens g ring record dir.dataKey) :
    (start g disk ring s).Sound g := by
  have hloaded := sound_loadAll (s := s) hobjects hopens
  rw [start]
  dsimp only
  split
  · exact hloaded
  · have hdeleted := sound_deleteExpired
      (w := ⟨{ keyring := ring, records := (loadAll g ring disk s).records },
        (loadAll g ring disk s).disk⟩) hloaded s.now s.deletion
    split
    · exact hdeleted
    · exact hdeleted

/-- A restart finds the keys of all records on disk in its key ring. -/
def Configured (g : Gcm) (w : World) : Input g → Prop
  | .restart ring _ => ∀ dir ∈ w.disk.items, ∀ record, dir.metadata = some record →
      Opens g ring record dir.dataKey
  | _ => True

theorem sound_step (w : World) (i : Input g) (h : w.Sound g) (hi : Configured g w i) :
    (step g w i).Sound g := by
  cases i with
  | activate a => exact sound_activate h a
  | stop => exact h
  | beginRequest b =>
      show (if _ then w else beginRequest w b).Sound g
      split
      · exact h
      next hfresh =>
        rw [not_or, Option.not_isSome_iff_eq_none, Option.not_isSome_iff_eq_none] at hfresh
        exact sound_beginRequest h hfresh.2
  | recordAttempt a => exact sound_recordAttempt h a
  | finish f => exact sound_finish h f
  | rewrapAll r => exact (sound_rewrapAll h r).1
  | delete id d => exact sound_delete h id d
  | deleteExpired now d => exact sound_deleteExpired h now d
  | restart ring s => exact sound_start (fun dir hdir => (h dir hdir).objects) hi

end RelayLifeline.Capture
