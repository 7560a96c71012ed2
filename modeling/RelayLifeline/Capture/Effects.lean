import RelayLifeline.Capture.Manager

/-!
# What the calls of the manager do to keys and directories

`Opens` says which data key a record gives under a key ring. A key wrapped
under the active key opens again (`opens_of_rewrapRecord`), a key found for a
record that names none may be named from then on (`opens_resolved`), and a
record that names another key does not miss one that is taken off the ring
(`Opens.without`).

On disk every operation is told by what a directory found afterwards was
before: `mem_persist`, `mem_removeAll`, `mem_putObject`, `mem_removeObject`. No
operation changes the key a directory's bodies are sealed under.
-/

namespace RelayLifeline.Capture

open Lib

variable {g : Gcm} {ring : Keyring}

/-! ## Keys -/

def Opens (g : Gcm) (ring : Keyring) (record : Record) (key : Bytes) : Prop :=
  ∃ id, dataKey g ring record = .ok (key, id)

theorem Opens.unique {record : Record} {key key' : Bytes} (h : Opens g ring record key)
    (h' : Opens g ring record key') : key = key' := by
  obtain ⟨id, h⟩ := h
  obtain ⟨id', h'⟩ := h'
  rw [h] at h'
  injection h' with h'
  injection h'

/-- Only the wrapped key and the name of the master key matter. -/
theorem dataKey_congr {record record' : Record} (hkey : record'.wrappedKey = record.wrappedKey)
    (hid : record'.keyID = record.keyID) : dataKey g ring record' = dataKey g ring record := by
  rw [dataKey, dataKey, hkey, hid]

theorem Opens.congr {record record' : Record} {key : Bytes} (h : Opens g ring record key)
    (hkey : record'.wrappedKey = record.wrappedKey) (hid : record'.keyID = record.keyID) :
    Opens g ring record' key := by
  obtain ⟨id, h⟩ := h
  exact ⟨id, by rw [dataKey_congr hkey hid, h]⟩

theorem unwrapKey_wrapKey {masterKey key wrapped : Bytes} {nonce : Nonce g}
    (h : wrapKey g masterKey nonce key = .ok wrapped) :
    unwrapKey g masterKey wrapped = .ok key := by
  rw [wrapKey] at h
  rw [unwrapKey]
  cases hg : newGCM g masterKey with
  | error err =>
      rw [hg] at h
      cases h
  | ok g' =>
      have hsame : g' = g := by
        rw [newGCM] at hg
        split at hg
        · injection hg with hg
          exact hg.symm
        · cases hg
      subst hsame
      rw [hg] at h
      dsimp only at h ⊢
      injection h with h
      subst h
      rw [if_neg (by rw [List.length_append, nonce.2]; omega), List.take_left' nonce.2,
        List.drop_left' nonce.2, Aead.openText_sealText]

theorem lookup_of_mem {keys : List (String × Bytes)} (hsorted : (keys.map Prod.fst).Pairwise (· < ·))
    {entry : String × Bytes} (h : entry ∈ keys) : keys.lookup entry.1 = some entry.2 := by
  induction keys with
  | nil => cases h
  | cons first keys ih =>
      rw [List.map_cons, List.pairwise_cons] at hsorted
      obtain rfl | h := List.mem_cons.mp h
      · rw [List.lookup_cons_self]
      · have hlt := hsorted.1 entry.1 (List.mem_map_of_mem h)
        have hne : entry.1 ≠ first.1 := by
          intro heq
          rw [heq] at hlt
          exact String.lt_irrefl _ hlt
        rw [List.lookup_cons, beq_eq_false_iff_ne.mpr hne]
        exact ih hsorted.2 h

theorem lookup_filter_ne {keys : List (String × Bytes)} {id k : String} (h : id ≠ k) :
    (keys.filter fun entry => entry.1 ≠ k).lookup id = keys.lookup id := by
  induction keys with
  | nil => rfl
  | cons first keys ih =>
      rw [List.filter_cons]
      split
      · rw [List.lookup_cons, List.lookup_cons, ih]
      next hk =>
        rw [decide_eq_true_eq, not_not] at hk
        rw [ih, List.lookup_cons, hk, beq_eq_false_iff_ne.mpr h]

theorem Keyring.lookup_active (ring : Keyring) :
    ring.keys.lookup ring.activeID = some ring.activeKey ∧ ring.activeKey.length = 32 ∧
      ring.activeID ≠ "" := by
  obtain ⟨entry, hmem, hid⟩ := List.mem_map.mp ring.active
  have hlookup := lookup_of_mem ring.sorted hmem
  rw [hid] at hlookup
  rw [Keyring.activeKey, hlookup]
  exact ⟨rfl, ring.sized entry hmem, fun h => ring.named entry hmem (hid.trans h)⟩

/-- A record that carries a key wrapped under the active key opens to it. -/
theorem opens_of_wrapKey {record : Record} {nonce : Nonce g} {key wrapped : Bytes}
    (h : wrapKey g ring.activeKey nonce key = .ok wrapped) (hid : record.keyID = ring.activeID)
    (hkey : record.wrappedKey = wrapped) : Opens g ring record key := by
  obtain ⟨hlookup, -, hne⟩ := ring.lookup_active
  refine ⟨record.keyID, ?_⟩
  rw [dataKey, if_pos (by rw [hid]; exact hne), hid, hlookup, hkey]
  dsimp only
  rw [unwrapKey_wrapKey h]

theorem opens_of_rewrapRecord {record updated : Record} {nonce : Nonce g}
    (h : rewrapRecord ring nonce record = .ok updated) :
    updated.id = record.id ∧ updated.keyID = ring.activeID ∧
      ∃ key, Opens g ring record key ∧ Opens g ring updated key := by
  rw [rewrapRecord] at h
  split at h
  · cases h
  next key id hkey =>
    split at h
    · cases h
    next wrapped hwrapped =>
      injection h with h
      subst h
      exact ⟨rfl, rfl, key, ⟨id, hkey⟩, opens_of_wrapKey hwrapped rfl rfl⟩

theorem firstKey_ok {wrapped key : Bytes} {keys : List (String × Bytes)} {id : String}
    (h : firstKey g wrapped keys = .ok (key, id)) :
    ∃ entry ∈ keys, entry.1 = id ∧ unwrapKey g entry.2 wrapped = .ok key := by
  induction keys with
  | nil => cases h
  | cons first keys ih =>
      rw [firstKey] at h
      split at h
      next key' hkey =>
        injection h with h
        injection h with h1 h2
        subst h1 h2
        exact ⟨first, List.mem_cons_self, rfl, hkey⟩
      · obtain ⟨entry, hmem, hentry⟩ := ih h
        exact ⟨entry, List.mem_cons_of_mem first hmem, hentry⟩

/-- Naming the key that was found changes nothing about what the record opens
to. -/
theorem opens_resolved {record : Record} {key : Bytes} {id : String} (hid : record.keyID = "")
    (h : dataKey g ring record = .ok (key, id)) :
    id ≠ "" ∧ Opens g ring { record with keyID := id } key := by
  rw [dataKey, if_neg (by rw [hid]; exact fun h => h rfl)] at h
  obtain ⟨entry, hmem, rfl, hunwrap⟩ := firstKey_ok h
  refine ⟨ring.named entry hmem, entry.1, ?_⟩
  rw [dataKey, if_pos (ring.named entry hmem)]
  dsimp only
  rw [lookup_of_mem ring.sorted hmem]
  dsimp only
  rw [hunwrap]

/-- A record that names its key does not miss another one. -/
theorem Opens.without {record : Record} {key : Bytes} (h : Opens g ring record key)
    {ring' : Keyring} {k : String}
    (hring : ring'.keys = ring.keys.filter fun entry => entry.1 ≠ k)
    (hne : record.keyID ≠ "") (hk : record.keyID ≠ k) : Opens g ring' record key := by
  obtain ⟨id, h⟩ := h
  refine ⟨id, ?_⟩
  rw [dataKey, if_pos hne] at h ⊢
  rw [hring, lookup_filter_ne hk]
  exact h

/-! ## Directories -/

def Fate.commits : Fate → Bool
  | .written | .unsynced _ => true
  | .lost .. => false

theorem committed_persist (disk : Table Dir) (record : Record) (fate : Fate) :
    (persist disk record fate).committed =
      ((disk.get? record.id).isSome && fate.commits) := by
  rw [persist]
  split
  next h =>
    rw [Option.isSome_eq_false_iff.mpr (Option.isNone_iff_eq_none.mpr h)]
    rfl
  next h =>
    rw [Option.isSome_of_eq_some h]
    cases fate <;> rfl

theorem err_persist (disk : Table Dir) (record : Record) (fate : Fate) :
    (persist disk record fate).err = none ↔
      (disk.get? record.id).isSome = true ∧ fate = .written := by
  rw [persist]
  split
  next h =>
    rw [Option.isSome_eq_false_iff.mpr (Option.isNone_iff_eq_none.mpr h)]
    constructor
    · intro h
      cases h
    · intro h
      cases h.1
  next h =>
    rw [Option.isSome_of_eq_some h]
    cases fate with
    | written => exact ⟨fun _ => ⟨rfl, rfl⟩, fun _ => rfl⟩
    | unsynced err | lost stage err =>
        constructor
        · intro h
          cases h
        · intro h
          cases h.2

/-- A directory after the metadata file was written: what it was before, or
rewritten and otherwise the same. -/
theorem mem_persist {disk : Table Dir} {record : Record} {fate : Fate} {dir : Dir}
    (h : dir ∈ (persist disk record fate).disk.items) :
    (dir ∈ disk.items ∧ ((persist disk record fate).committed = true → dir.id ≠ record.id)) ∨
      ∃ old ∈ disk.items, old.id = dir.id ∧ dir.dataKey = old.dataKey ∧
        dir.objects = old.objects ∧ dir.metadata = some record := by
  rw [committed_persist]
  rw [persist] at h
  split at h
  next hget =>
    rw [Option.isSome_eq_false_iff.mpr (Option.isNone_iff_eq_none.mpr hget)]
    exact .inl ⟨h, fun hc => by cases hc⟩
  next old hget =>
    have hold := Table.mem_of_get? hget
    have hid : old.id = record.id := Table.key_of_get? hget
    rw [Option.isSome_of_eq_some hget]
    cases fate with
    | lost stage err => exact .inl ⟨h, fun hc => by cases hc⟩
    | written | unsynced _ =>
        obtain rfl | ⟨hmem, hne⟩ := Table.mem_set.mp h
        · exact .inr ⟨old, hold, rfl, rfl, rfl, rfl⟩
        · refine .inl ⟨hmem, fun _ heq => hne ?_⟩
          show dir.id = old.id
          rw [heq, hid]

theorem disk_persist_lost {disk : Table Dir} {record : Record} {fate : Fate}
    (h : (persist disk record fate).committed = false) : (persist disk record fate).disk = disk := by
  rw [persist] at h ⊢
  split at h
  · rfl
  · cases fate with
    | written | unsynced _ => cases h
    | lost stage err => rfl

theorem isSome_get?_persist (disk : Table Dir) (record : Record) (fate : Fate) (id : String) :
    ((persist disk record fate).disk.get? id).isSome = (disk.get? id).isSome := by
  rw [persist]
  split
  · rfl
  next old hget =>
    have hold : key old = record.id := Table.key_of_get? hget
    have hset : ∀ dir : Dir, key dir = key old →
        ((disk.set dir).get? id).isSome = (disk.get? id).isSome := by
      intro dir hdir
      by_cases hid : id = key dir
      · subst hid
        rw [Table.get?_set_self, hdir, hold, hget]
        rfl
      · rw [Table.get?_set_of_ne hid]
    cases fate with
    | written => exact hset _ rfl
    | unsynced err => exact hset _ rfl
    | lost stage err => rfl

theorem mem_removeAll {disk : Table Dir} {id : String} {removal : Removal} {dir : Dir}
    (h : dir ∈ (removeAll disk id removal).items) :
    (removal.isDone = true → dir.id ≠ id) ∧
      ∃ old ∈ disk.items, old.id = dir.id ∧ dir.dataKey = old.dataKey ∧
        (∀ o ∈ dir.objects, o ∈ old.objects) ∧
        (dir.metadata = none ∨ dir.metadata = old.metadata) := by
  cases removal with
  | done =>
      obtain ⟨hmem, hne⟩ := Table.mem_erase.mp h
      exact ⟨fun _ => hne, dir, hmem, rfl, rfl, fun o ho => ho, .inr rfl⟩
  | failed metadata objects err =>
      refine ⟨fun hd => (by cases hd), ?_⟩
      rw [removeAll] at h
      split at h
      · exact ⟨dir, h, rfl, rfl, fun o ho => ho, .inr rfl⟩
      next old hget =>
        obtain rfl | ⟨hmem, -⟩ := Table.mem_set.mp h
        · refine ⟨old, Table.mem_of_get? hget, rfl, rfl, fun o ho => (List.mem_filter.mp ho).1, ?_⟩
          cases metadata with
          | true => exact .inr rfl
          | false => exact .inl rfl
        · exact ⟨dir, hmem, rfl, rfl, fun o ho => ho, .inr rfl⟩

theorem mem_putObject {disk : Table Dir} {id name : String} {key : Bytes} {dir : Dir}
    (h : dir ∈ (putObject disk id name key).items) :
    ∃ old ∈ disk.items, old.id = dir.id ∧ dir.dataKey = old.dataKey ∧
      dir.metadata = old.metadata ∧
      ∀ o ∈ dir.objects, o ∈ old.objects ∨ (o.2 = key ∧ dir.id = id) := by
  rw [putObject] at h
  split at h
  · exact ⟨dir, h, rfl, rfl, rfl, fun o ho => .inl ho⟩
  next old hget =>
    obtain rfl | ⟨hmem, -⟩ := Table.mem_set.mp h
    · refine ⟨old, Table.mem_of_get? hget, rfl, rfl, rfl, fun o ho => ?_⟩
      obtain ho | ho := List.mem_append.mp ho
      · exact .inl ho
      · rw [List.mem_singleton.mp ho]
        exact .inr ⟨rfl, Table.key_of_get? hget⟩
    · exact ⟨dir, hmem, rfl, rfl, rfl, fun o ho => .inl ho⟩

theorem mem_writeObject {disk : Table Dir} {id name : String} {key : Bytes} {base : BodyPart}
    {fate : BodyFate} {dir : Dir}
    (h : dir ∈ (writeObject disk id key name base fate).disk.items) :
    ∃ old ∈ disk.items, old.id = dir.id ∧ dir.dataKey = old.dataKey ∧
      dir.metadata = old.metadata ∧
      ∀ o ∈ dir.objects, o ∈ old.objects ∨ (o.2 = key ∧ dir.id = id) := by
  have hsame : dir ∈ disk.items → ∃ old ∈ disk.items, old.id = dir.id ∧
      dir.dataKey = old.dataKey ∧ dir.metadata = old.metadata ∧
      ∀ o ∈ dir.objects, o ∈ old.objects ∨ (o.2 = key ∧ dir.id = id) :=
    fun h => ⟨dir, h, rfl, rfl, rfl, fun o ho => .inl ho⟩
  rw [writeObject.eq_def] at h
  split at h
  · exact hsame h
  · split at h
    · exact mem_putObject h
    next err left =>
      cases left with
      | true => exact mem_putObject h
      | false => exact hsame h

theorem mem_removeObject {disk : Table Dir} {id name : String} {dir : Dir}
    (h : dir ∈ (removeObject disk id name).items) :
    ∃ old ∈ disk.items, old.id = dir.id ∧ dir.dataKey = old.dataKey ∧
      dir.metadata = old.metadata ∧ ∀ o ∈ dir.objects, o ∈ old.objects := by
  rw [removeObject] at h
  split at h
  · exact ⟨dir, h, rfl, rfl, rfl, fun o ho => ho⟩
  next old hget =>
    obtain rfl | ⟨hmem, -⟩ := Table.mem_set.mp h
    · exact ⟨old, Table.mem_of_get? hget, rfl, rfl, rfl, fun o ho => (List.mem_filter.mp ho).1⟩
    · exact ⟨dir, hmem, rfl, rfl, rfl, fun o ho => ho⟩

/-- A record names its key already, or none is found, or the one found is
written down. -/
theorem resolveKey_cases (g : Gcm) (ring : Keyring) (s : Startup) (disk : Table Dir)
    (record : Record) :
    (resolveKey g ring s disk record = (⟨disk, true, none⟩, record) ∧
        (record.keyID = "" → ∃ err, dataKey g ring record = .error err)) ∨
      ∃ key id, record.keyID = "" ∧ dataKey g ring record = .ok (key, id) ∧
        resolveKey g ring s disk record =
          (persist disk { record with keyID := id } (s.resolve record.id),
            { record with keyID := id }) := by
  rw [resolveKey]
  split
  next hempty =>
    split
    next err herr => exact .inl ⟨rfl, fun _ => ⟨err, herr⟩⟩
    next key id hkey => exact .inr ⟨key, id, hempty, hkey, rfl⟩
  next hid => exact .inl ⟨rfl, fun h => absurd h hid⟩

/-! ## The writes of a rewrap -/

/-- What `updates` answers: the records that name another key, in the order
they were met, each with its replacement. -/
theorem updates_ok {nonces : String → Nonce g} {records : List Record}
    {updated : List (Record × Record)} (h : updates ring nonces records = .ok updated) :
    updated.map Prod.fst = records.filter (fun record => record.keyID ≠ ring.activeID) ∧
      ∀ u ∈ updated, ∃ nonce : Nonce g, rewrapRecord ring nonce u.1 = .ok u.2 := by
  induction records generalizing updated with
  | nil =>
      injection h with h
      subst h
      exact ⟨rfl, fun u hu => by cases hu⟩
  | cons record records ih =>
      rw [updates] at h
      split at h
      next hid =>
        obtain ⟨hfst, hrewrap⟩ := ih h
        refine ⟨?_, hrewrap⟩
        rw [List.filter_cons_of_neg (by rw [decide_eq_true_eq, not_not]; exact hid)]
        exact hfst
      next hid =>
        split at h
        · cases h
        next record' hrecord =>
          split at h
          · cases h
          next rest hrest =>
            injection h with h
            subst h
            obtain ⟨hfst, hrewrap⟩ := ih hrest
            constructor
            · rw [List.map_cons, hfst,
                List.filter_cons_of_pos (by rw [decide_eq_true_eq]; exact hid)]
            · intro u hu
              obtain rfl | hu := List.mem_cons.mp hu
              · exact ⟨nonces record.id, hrecord⟩
              · exact hrewrap u hu

theorem commit_failed {r : Rewrap g} {disk : Table Dir} (persisted : List Record)
    {u : Record × Record} (us : List (Record × Record))
    (h : (persist disk u.2 (r.write u.2.id)).err ≠ none) :
    (commit r disk persisted (u :: us)).2 ≠ [] ∧
      (commit r disk persisted (u :: us)).1 =
        rollBack r.rollback (persist disk u.2 (r.write u.2.id)).disk
          (if (persist disk u.2 (r.write u.2.id)).committed then persisted ++ [u.1]
            else persisted) := by
  rw [commit]
  split
  · exact ⟨List.cons_ne_nil _ _, rfl⟩
  next hnone => exact absurd hnone h

theorem commit_written {r : Rewrap g} {disk : Table Dir} (persisted : List Record)
    {u : Record × Record} (us : List (Record × Record))
    (h : (persist disk u.2 (r.write u.2.id)).err = none)
    (hc : (persist disk u.2 (r.write u.2.id)).committed = true) :
    commit r disk persisted (u :: us) =
      commit r (persist disk u.2 (r.write u.2.id)).disk (persisted ++ [u.1]) us := by
  rw [commit]
  split
  next hsome =>
    rw [h] at hsome
    cases hsome
  · rw [if_pos hc, if_pos hc]

/-- What every write of a rewrap keeps, the rewrap keeps. -/
theorem commit_invariant {P : Table Dir → Prop} {r : Rewrap g} {us : List (Record × Record)}
    (hwrite : ∀ disk, P disk → ∀ u ∈ us, ∀ fate,
      P (persist disk u.1 fate).disk ∧ P (persist disk u.2 fate).disk)
    {disk : Table Dir} (hdisk : P disk) :
    P (commit r disk [] us).1 := by
  have hroll : ∀ originals : List Record, (∀ o ∈ originals, ∃ u ∈ us, u.1 = o) →
      ∀ disk, P disk → P (rollBack r.rollback disk originals) := by
    intro originals
    induction originals with
    | nil => exact fun _ _ h => h
    | cons o originals ih =>
        intro ho disk hdisk
        obtain ⟨u, hu, rfl⟩ := ho o List.mem_cons_self
        exact ih (fun o' ho' => ho o' (List.mem_cons_of_mem u.1 ho')) _
          (hwrite disk hdisk u hu _).1
  have hloop : ∀ rest : List (Record × Record), (∀ u ∈ rest, u ∈ us) →
      ∀ persisted : List Record, (∀ o ∈ persisted, ∃ u ∈ us, u.1 = o) →
      ∀ disk, P disk → P (commit r disk persisted rest).1 := by
    intro rest
    induction rest with
    | nil => exact fun _ _ _ _ h => h
    | cons u rest ih =>
        intro hrest persisted hpersisted disk hdisk
        have hu := hrest u List.mem_cons_self
        have hnext := (hwrite disk hdisk u hu (r.write u.2.id)).2
        have hpersisted' : ∀ o ∈ (if (persist disk u.2 (r.write u.2.id)).committed
            then persisted ++ [u.1] else persisted), ∃ u' ∈ us, u'.1 = o := by
          intro o ho
          split at ho
          · obtain ho | ho := List.mem_append.mp ho
            · exact hpersisted o ho
            · exact ⟨u, hu, (List.mem_singleton.mp ho).symm⟩
          · exact hpersisted o ho
        rw [commit]
        split
        · exact hroll _ hpersisted' _ hnext
        · split
          next hc =>
            rw [if_pos hc] at hpersisted'
            exact ih (fun u' hu' => hrest u' (List.mem_cons_of_mem u hu')) _ hpersisted' _ hnext
          · exact hnext
  exact hloop us (fun u hu => hu) [] (fun o ho => by cases ho) disk hdisk

end RelayLifeline.Capture
