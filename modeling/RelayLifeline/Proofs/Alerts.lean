import Mathlib.Logic.Equiv.Basic
import RelayLifeline.Lib.Board
import RelayLifeline.Lib.Trace
import RelayLifeline.Risk.Manager

/-!
# The index of the open alerts is never stale

The list and the index of the manager are kept in step with a board, which has
no index: what is open under a key is read off its notices, and pushing an alert
off the end closes nothing and frees its key. So an entry of the index always
leads to an unresolved alert that is still in the list, and no key is kept quiet
by an alert that is gone.

The refinement needs the identifiers to tell the alerts apart, because the code
looks the entry of an alert up by its identifier, on eviction, and the alert of
an entry, on resolution.
-/

namespace RelayLifeline.Risk

open Lib Settings

variable {D : Type}

/-- The alert as it was emitted. -/
def Alert.created (alert : Alert D) : Alert D := { alert with resolvedAt := none }

namespace Manager

variable {m : Manager D} {key : String} {now : Int} {draw : Draw} {alert : Alert D}
  {b : Board String (Alert D)}

/-- The list still has the alert, and it is not resolved. -/
def Unresolved (m : Manager D) (id : String) : Prop :=
  ∃ alert ∈ m.alerts, alert.id = id ∧ alert.resolvedAt = none

/-! ## What the operations do -/

theorem emitLocked_of_open {entry : OpenAlert} (h : m.opened.get? key = some entry) :
    m.emitLocked key alert draw = (m, none) := by
  rw [emitLocked, h]

theorem removeOpenAlertLocked_get? {id : String} {entry : OpenAlert} :
    (m.removeOpenAlertLocked id).opened.get? key = some entry ↔
      m.opened.get? key = some entry ∧ entry.id ≠ id := by
  rw [Table.get?_eq_some, Table.get?_eq_some, removeOpenAlertLocked, Table.mem_filter,
    decide_eq_true_eq, and_right_comm]

/-- The index forgets the alerts that leave the list, and the list stays. -/
theorem foldl_removeOpenAlertLocked (removed : List (Alert D)) (m : Manager D) :
    let after := removed.foldl (fun m removed => m.removeOpenAlertLocked removed.id) m
    after.alerts = m.alerts ∧ ∀ key entry, after.opened.get? key = some entry ↔
      m.opened.get? key = some entry ∧ entry.id ∉ removed.map Alert.id := by
  induction removed generalizing m with
  | nil => exact ⟨rfl, fun key entry => (and_iff_left List.not_mem_nil).symm⟩
  | cons alert removed ih =>
      obtain ⟨halerts, hget⟩ := ih (m.removeOpenAlertLocked alert.id)
      refine ⟨halerts, fun key entry => ?_⟩
      rw [List.foldl_cons, hget, removeOpenAlertLocked_get?, List.map_cons, List.mem_cons, not_or,
        and_assoc]

theorem alerts_evict (m : Manager D) : m.evict.alerts = m.alerts.take maxAlerts := by
  unfold evict
  split
  next => exact congrArg _ (foldl_removeOpenAlertLocked _ m).1
  next hfits => exact (List.take_of_length_le (Nat.le_of_not_gt hfits)).symm

theorem get?_evict {entry : OpenAlert} :
    m.evict.opened.get? key = some entry ↔
      m.opened.get? key = some entry ∧ entry.id ∉ (m.alerts.drop maxAlerts).map Alert.id := by
  unfold evict
  split
  next => exact (foldl_removeOpenAlertLocked _ m).2 key entry
  next hfits =>
      rw [List.drop_eq_nil_of_le (Nat.le_of_not_gt hfits)]
      exact (and_iff_left List.not_mem_nil).symm

/-! ## Marking an alert -/

theorem markResolved_of_distinct {alerts : List (Alert D)} {id : String}
    (h : (alerts.map Alert.id).Nodup) :
    markResolved now id alerts =
      alerts.map fun alert =>
        if alert.id = id then { alert with resolvedAt := some now } else alert := by
  induction alerts with
  | nil => rfl
  | cons alert rest ih =>
      obtain ⟨hnot, hrest⟩ := List.nodup_cons.1 h
      rw [markResolved, List.map_cons, ← ih hrest]
      split
      next heq =>
          have hsame : markResolved now id rest = rest := by
            rw [ih hrest]
            refine (List.map_congr_left fun other hother => if_neg fun hid => hnot ?_).trans
              (List.map_id _)
            rw [heq, ← hid]
            exact List.mem_map_of_mem hother
          rw [hsame]
      next => rfl

/-! ## Resolving a request -/

theorem opened_resolveLocked (m : Manager D) (key : String) (now : Int) :
    (m.resolveLocked key now).opened = m.opened.erase key := by
  rw [resolveLocked]
  cases hentry : m.opened.get? key with
  | none => exact (Table.erase_of_none hentry).symm
  | some entry => rfl

theorem mem_opened_foldl_resolveLocked {now : String → Int} {entry : OpenAlert}
    (keys : List String) (m : Manager D) :
    entry ∈ (keys.foldl (fun m key => m.resolveLocked key (now key)) m).opened.items ↔
      entry ∈ m.opened.items ∧ entry.key ∉ keys := by
  induction keys generalizing m with
  | nil => exact (and_iff_left List.not_mem_nil).symm
  | cons key keys ih =>
      rw [List.foldl_cons, ih, opened_resolveLocked, Table.mem_erase, List.mem_cons, not_or,
        and_assoc]
      rfl

/-- Whatever the order the keys are met in. -/
theorem hasOpenRequestAlerts_resolveRequest (m : Manager D) (requestID : String)
    (rank : String → Nat) (now : String → Int) :
    (m.resolveRequest requestID rank now).hasOpenRequestAlerts requestID = false := by
  refine List.any_eq_false.2 fun entry hentry hof => ?_
  obtain ⟨hmem, hnot⟩ := (mem_opened_foldl_resolveLocked _ m).1 hentry
  refine hnot (List.mem_filter.2 ⟨?_, hof⟩)
  exact (List.mem_insertionSort _).2 (List.mem_map_of_mem hmem)

/-! ## The board of a manager -/

/-- The board says the same as the list, and its open notices the same as the
index. -/
structure Refines (m : Manager D) (b : Board String (Alert D)) : Prop where
  distinct : (b.notices.map fun n => n.item.id).Nodup
  listed : (m.alerts.map fun alert => (alert.created, alert.resolvedAt.isSome)) =
    b.notices.map fun n => (n.item, n.isClosed)
  indexed : ∀ key, m.opened.get? key = (b.standing key).map fun n => ⟨key, n.item.id⟩

theorem refines_new : (new : Manager D).Refines {} :=
  ⟨List.nodup_nil, rfl, fun _ => rfl⟩

namespace Refines

variable (h : m.Refines b)

include h

theorem standing_eq_none : b.standing key = none ↔ m.opened.get? key = none := by
  rw [h.indexed, Option.map_eq_none_iff]

theorem map_id : m.alerts.map Alert.id = b.notices.map fun n => n.item.id := by
  have hids := congrArg (List.map fun shown : Alert D × Bool => shown.1.id) h.listed
  rwa [List.map_map, List.map_map] at hids

theorem notice_of_mem (ha : alert ∈ m.alerts) :
    ∃ n ∈ b.notices, n.item = alert.created ∧ n.isClosed = alert.resolvedAt.isSome := by
  have hmem : (alert.created, alert.resolvedAt.isSome) ∈
      m.alerts.map fun alert => (alert.created, alert.resolvedAt.isSome) :=
    List.mem_map_of_mem ha
  rw [h.listed] at hmem
  obtain ⟨n, hn, heq⟩ := List.mem_map.1 hmem
  exact ⟨n, hn, congrArg Prod.fst heq, congrArg Prod.snd heq⟩

theorem mem_of_notice {n : Notice String (Alert D)} (hn : n ∈ b.notices) :
    ∃ alert ∈ m.alerts, n.item = alert.created ∧ n.isClosed = alert.resolvedAt.isSome := by
  have hmem : (n.item, n.isClosed) ∈ b.notices.map fun n => (n.item, n.isClosed) :=
    List.mem_map_of_mem hn
  rw [← h.listed] at hmem
  obtain ⟨alert, ha, heq⟩ := List.mem_map.1 hmem
  exact ⟨alert, ha, (congrArg Prod.fst heq).symm, (congrArg Prod.snd heq).symm⟩

/-- An identifier finds one notice. -/
theorem eq_of_id_eq {n n' : Notice String (Alert D)} (hn : n ∈ b.notices) (hn' : n' ∈ b.notices)
    (hid : n.item.id = n'.item.id) : n = n' :=
  List.inj_on_of_nodup_map h.distinct hn hn' hid

/-- A notice stays on the board where its alert is not pushed off the list. -/
theorem mem_take_iff {n : Notice String (Alert D)} (hn : n ∈ b.notices) (posted : Alert D) :
    n ∈ b.notices.take (maxAlerts - 1) ↔
      n.item.id ∉ ((posted :: m.alerts).drop maxAlerts).map Alert.id := by
  have hdropped : ((posted :: m.alerts).drop maxAlerts).map Alert.id =
      (b.notices.drop (maxAlerts - 1)).map fun n => n.item.id := by
    rw [List.map_drop, List.map_drop, ← h.map_id]
    rfl
  rw [hdropped]
  constructor
  · intro htake hdrop
    obtain ⟨n', hn', hid⟩ := List.mem_map.1 hdrop
    rw [h.eq_of_id_eq (List.mem_of_mem_drop hn') hn hid] at hn'
    exact List.disjoint_take_drop (.of_map _ h.distinct) (Nat.le_refl _) htake hn'
  · intro hnot
    rw [← List.take_append_drop (maxAlerts - 1) b.notices, List.mem_append] at hn
    exact hn.resolve_right fun hdrop => hnot (List.mem_map_of_mem hdrop)

/-- A new alert is posted, and what it pushes off the list is forgotten. -/
theorem emitLocked (hnone : b.standing key = none) (halert : alert.resolvedAt = none)
    (hfresh : draw.id ∉ b.notices.map fun n => n.item.id) :
    (m.emitLocked key alert draw).1.Refines
      (b.post maxAlerts key { alert with id := draw.id, createdAt := draw.now } hnone) := by
  have hdistinct : ((⟨key, { alert with id := draw.id, createdAt := draw.now }, false⟩ ::
      b.notices).map fun n => n.item.id).Nodup := List.nodup_cons.2 ⟨hfresh, h.distinct⟩
  rw [Manager.emitLocked, h.standing_eq_none.1 hnone]
  refine ⟨hdistinct.sublist ((List.take_sublist _ _).map _), ?_, fun key' => ?_⟩
  · show (evict _).alerts.map _ = ((_ :: b.notices).take maxAlerts).map _
    rw [alerts_evict, List.map_take, List.map_take, List.map_cons, List.map_cons, h.listed,
      Alert.created, halert]
    rfl
  · by_cases hkey : key' = key
    · subst hkey
      rw [Board.standing_post_self hnone (by decide)]
      exact Table.get?_set_self
    · rw [Table.get?_set_of_ne hkey]
      ext entry
      rw [get?_evict, Option.map_eq_some_iff]
      constructor
      · rintro ⟨hentry, hkept⟩
        rw [h.indexed, Option.map_eq_some_iff] at hentry
        obtain ⟨n, hn, rfl⟩ := hentry
        have hmem := (Board.standing_eq_some.1 hn).1
        exact ⟨n, (Board.standing_post_of_ne hnone hkey).2 ⟨hn, (h.mem_take_iff hmem _).2 hkept⟩,
          rfl⟩
      · rintro ⟨n, hn, rfl⟩
        obtain ⟨hn, htake⟩ := (Board.standing_post_of_ne hnone hkey).1 hn
        have hmem := (Board.standing_eq_some.1 hn).1
        exact ⟨by rw [h.indexed, hn]; rfl, (h.mem_take_iff hmem _).1 htake⟩

/-- An open notice is closed by its key or by its identifier. -/
theorem isClosed_close {n n' : Notice String (Alert D)} (hstanding : b.standing key = some n)
    (hn' : n' ∈ b.notices) :
    (n'.close key).isClosed = (n'.isClosed || n'.item.id = n.item.id) := by
  obtain ⟨hn, hkey, hopen⟩ := Board.standing_eq_some.1 hstanding
  cases hclosed : n'.isClosed with
  | true => rw [Notice.close_of_closed hclosed, hclosed, Bool.true_or]
  | false =>
      rw [Notice.close, hclosed, Bool.false_or, Bool.false_or, decide_eq_decide, ← hkey]
      constructor
      · intro heq
        rw [Board.eq_of_open hn' hn hclosed hopen heq]
      · intro hid
        rw [h.eq_of_id_eq hn' hn hid]

/-- What marking an alert makes of the list. -/
theorem map_markResolved (id : String) :
    ((markResolved now id m.alerts).map fun alert => (alert.created, alert.resolvedAt.isSome)) =
      b.notices.map fun n => (n.item, n.isClosed || n.item.id = id) := by
  have hdistinct : (m.alerts.map Alert.id).Nodup := h.map_id ▸ h.distinct
  have hmarked := congrArg (List.map fun shown : Alert D × Bool =>
    (shown.1, shown.2 || shown.1.id = id)) h.listed
  rw [List.map_map, List.map_map] at hmarked
  refine Eq.trans ?_ hmarked
  rw [markResolved_of_distinct hdistinct, List.map_map]
  refine List.map_congr_left fun alert _ => ?_
  rw [Function.comp_apply, Function.comp_apply]
  split
  next heq => rw [decide_eq_true (show alert.created.id = id from heq), Bool.or_true]; rfl
  next hne => rw [decide_eq_false (show ¬alert.created.id = id from hne), Bool.or_false]

theorem resolveLocked : (m.resolveLocked key now).Refines (b.close key) := by
  rw [Manager.resolveLocked, h.indexed]
  cases hstanding : b.standing key with
  | none =>
      rw [Board.close_eq_self hstanding]
      exact h
  | some n =>
      refine ⟨?_, ?_, fun key' => ?_⟩
      · rw [Board.notices_close, List.map_map]
        exact h.distinct
      · refine (h.map_markResolved n.item.id).trans ?_
        rw [Board.notices_close, List.map_map]
        refine List.map_congr_left fun n' hn' => ?_
        rw [Function.comp_apply, Notice.item_close, h.isClosed_close hstanding hn']
      · by_cases hkey : key' = key
        · subst hkey
          rw [Board.standing_close_self]
          exact Table.get?_erase_self
        · rw [Board.standing_close_of_ne hkey, ← h.indexed]
          exact Table.get?_erase_of_ne hkey

theorem unresolved_iff {id : String} :
    m.Unresolved id ↔ ∃ n ∈ b.notices, n.item.id = id ∧ n.isClosed = false := by
  constructor
  · rintro ⟨alert, ha, rfl, hnone⟩
    obtain ⟨n, hn, hitem, hclosed⟩ := h.notice_of_mem ha
    exact ⟨n, hn, by rw [hitem]; rfl, by rw [hclosed, hnone]; rfl⟩
  · rintro ⟨n, hn, rfl, hopen⟩
    obtain ⟨alert, ha, hitem, hclosed⟩ := h.mem_of_notice hn
    rw [hopen, eq_comm, Option.isSome_eq_false_iff, Option.isNone_iff_eq_none] at hclosed
    exact ⟨alert, ha, by rw [hitem]; rfl, hclosed⟩

theorem get?_eq_some {entry : OpenAlert} :
    m.opened.get? key = some entry ↔
      ∃ n ∈ b.notices, n.key = key ∧ n.isClosed = false ∧ entry = ⟨key, n.item.id⟩ := by
  rw [h.indexed, Option.map_eq_some_iff]
  constructor
  · rintro ⟨n, hn, rfl⟩
    obtain ⟨hmem, hkey, hopen⟩ := Board.standing_eq_some.1 hn
    exact ⟨n, hmem, hkey, hopen, rfl⟩
  · rintro ⟨n, hmem, hkey, hopen, rfl⟩
    exact ⟨n, Board.standing_eq_some.2 ⟨hmem, hkey, hopen⟩, rfl⟩

/-- The index pairs off its keys and the unresolved alerts. -/
theorem bijection :
    ∃ f : {key // (m.opened.get? key).isSome} ≃
        {alert // alert ∈ m.alerts ∧ alert.resolvedAt = none},
      ∀ key : {key // (m.opened.get? key).isSome},
        m.opened.get? key = some ⟨key, (f key).1.id⟩ := by
  have hdistinct : (m.alerts.map Alert.id).Nodup := h.map_id ▸ h.distinct
  have halert : ∀ key : {key // (m.opened.get? key).isSome},
      ∃ alert : {alert // alert ∈ m.alerts ∧ alert.resolvedAt = none},
        m.opened.get? key = some ⟨key, alert.1.id⟩ := by
    rintro ⟨key, hsome⟩
    obtain ⟨entry, hentry⟩ := Option.isSome_iff_exists.1 hsome
    obtain ⟨n, hn, -, hopen, rfl⟩ := h.get?_eq_some.1 hentry
    obtain ⟨alert, ha, hid, hnone⟩ := h.unresolved_iff.2 ⟨n, hn, rfl, hopen⟩
    exact ⟨⟨alert, ha, hnone⟩, by rw [hentry, hid]⟩
  choose f hf using halert
  refine ⟨Equiv.ofBijective f ((Function.bijective_iff_existsUnique f).2 ?_), hf⟩
  rintro ⟨alert, ha, hnone⟩
  obtain ⟨n, hn, hid, hopen⟩ := h.unresolved_iff.1 ⟨alert, ha, rfl, hnone⟩
  have hentry : m.opened.get? n.key = some ⟨n.key, alert.id⟩ :=
    h.get?_eq_some.2 ⟨n, hn, rfl, hopen, by rw [hid]⟩
  refine ⟨⟨n.key, by rw [hentry]; rfl⟩, ?_, ?_⟩
  · have hfound := (hf ⟨n.key, by rw [hentry]; rfl⟩).symm.trans hentry
    injection hfound with hfound
    injection hfound with _ hfound
    exact Subtype.ext (List.inj_on_of_nodup_map hdistinct (f _).2.1 ha hfound)
  · rintro ⟨key, hsome⟩ heq
    have hother := hf ⟨key, hsome⟩
    rw [heq] at hother
    obtain ⟨n', hn', hkey, -, hentry'⟩ := h.get?_eq_some.1 hother
    injection hentry' with _ hid'
    rw [h.eq_of_id_eq hn' hn (hid'.symm.trans hid.symm)] at hkey
    exact Subtype.ext hkey.symm

end Refines

/-- Other counts are the same board. -/
theorem Refines.withCounts (h : m.Refines b) (counts : String → Int64) :
    ({ m with authCounts := counts } : Manager D).Refines b :=
  ⟨h.distinct, h.listed, h.indexed⟩

end Manager

namespace Book

variable {s : Book D} {e e' : Emission D} {b : Board String (Alert D)} {key : String}
  {alert : Alert D} {draw : Draw} {now : Int}

/-- What the run of a manager keeps, whose board is `b`. -/
structure Booked (s : Book D) (b : Board String (Alert D)) : Prop where
  refines : s.manager.Refines b
  shown : b.Shows maxAlerts (s.emitted.map fun e => (e.key, e.alert))
  quiet : ∀ e ∈ s.emitted, e.before.opened.get? e.key = none
  alone : s.emitted.Pairwise fun e e' => e.key = e'.key → ¬e'.before.Unresolved e.alert.id

namespace Booked

variable (h : s.Booked b) (hids : s.UniqueIDs)

include h hids

/-- A notice with the identifier of an alert is the notice of the alert. -/
theorem eq_of_id_eq {n : Notice String (Alert D)} (hn : n ∈ b.notices) (he : e ∈ s.emitted)
    (hid : n.item.id = e.alert.id) : n.key = e.key ∧ n.item = e.alert := by
  obtain ⟨e', he', heq⟩ := List.mem_map.1 (h.shown.exists_posted hn)
  injection heq with hkey hitem
  have hsame : e' = e := List.inj_on_of_nodup_map hids he' he (by rw [hitem, hid])
  rw [← hkey, ← hitem, hsame]
  exact ⟨rfl, rfl⟩

/-- An unresolved alert that is left is filed under its key. -/
theorem filed (he : e ∈ s.emitted) :
    s.manager.Unresolved e.alert.id ↔
      s.manager.opened.get? e.key = some ⟨e.key, e.alert.id⟩ := by
  rw [h.refines.unresolved_iff, h.refines.get?_eq_some]
  constructor
  · rintro ⟨n, hn, hid, hopen⟩
    exact ⟨n, hn, (h.eq_of_id_eq hids hn he hid).1, hopen, by rw [hid]⟩
  · rintro ⟨n, hn, -, hopen, hentry⟩
    injection hentry with _ hid
    exact ⟨n, hn, hid.symm, hopen⟩

omit hids in
/-- The entry of a key is that of an alert emitted under it. -/
theorem exists_emitted {entry : OpenAlert} (hentry : s.manager.opened.get? key = some entry) :
    ∃ e ∈ s.emitted, e.key = key ∧ s.manager.Unresolved e.alert.id := by
  obtain ⟨n, hn, rfl, hopen, -⟩ := h.refines.get?_eq_some.1 hentry
  obtain ⟨e, he, heq⟩ := List.mem_map.1 (h.shown.exists_posted hn)
  injection heq with hkey hitem
  exact ⟨e, he, hkey, h.refines.unresolved_iff.2 ⟨n, hn, by rw [hitem], hopen⟩⟩

theorem get?_eq_none :
    s.manager.opened.get? key = none ↔
      ∀ e ∈ s.emitted, e.key = key → ¬s.manager.Unresolved e.alert.id := by
  constructor
  · rintro hnone e he rfl hopen
    rw [(h.filed hids he).1 hopen] at hnone
    cases hnone
  · intro hall
    cases hentry : s.manager.opened.get? key with
    | none => rfl
    | some entry =>
        obtain ⟨e, he, hkey, hopen⟩ := h.exists_emitted hentry
        exact absurd hopen (hall e he hkey)

end Booked

/-- The book once an operation has given its manager and its alerts. -/
def after (s : Book D) (r : Manager D × List (Emission D)) : Book D := ⟨r.1, s.emitted ++ r.2⟩

theorem after_after (s : Book D) (r r' : Manager D × List (Emission D)) :
    (s.after r).after r' = s.after (r'.1, r.2 ++ r'.2) := by
  rw [after, after, after, List.append_assoc]

theorem after_nil (s : Book D) (m : Manager D) : s.after (m, []) = { s with manager := m } := by
  rw [after, List.append_nil]

theorem UniqueIDs.of_after {r : Manager D × List (Emission D)} (h : (s.after r).UniqueIDs) :
    s.UniqueIDs := by
  rw [UniqueIDs, after, List.map_append] at h
  exact h.of_append_left

/-- An alert that is emitted is the newest of its key and the only one that is
not resolved. -/
theorem Booked.emitLocked (h : s.Booked b) (hnone : s.manager.opened.get? key = none)
    (halert : alert.resolvedAt = none) {emission : Emission D}
    (hemission : (s.manager.emitLocked key alert draw).2 = some emission)
    (hids : (s.after ((s.manager.emitLocked key alert draw).1, [emission])).UniqueIDs) :
    ∃ b', (s.after ((s.manager.emitLocked key alert draw).1, [emission])).Booked b' := by
  have hstanding := h.refines.standing_eq_none.2 hnone
  have hissued : (⟨s.manager, key, { alert with id := draw.id, createdAt := draw.now }⟩ :
      Emission D) = emission := by
    rw [Manager.emitLocked, hnone] at hemission
    exact Option.some.inj hemission
  subst hissued
  have hold := hids.of_after
  rw [UniqueIDs, after, List.map_append, List.nodup_append] at hids
  have hfresh : draw.id ∉ b.notices.map fun n => n.item.id := by
    intro hmem
    obtain ⟨n, hn, hid⟩ := List.mem_map.1 hmem
    obtain ⟨e, he, heq⟩ := List.mem_map.1 (h.shown.exists_posted hn)
    injection heq with _ hitem
    refine hids.2.2 _ (List.mem_map_of_mem he) draw.id ?_ (by rw [hitem, hid])
    exact List.mem_singleton_self _
  refine ⟨_, h.refines.emitLocked hstanding halert hfresh, ?_, ?_, ?_⟩
  · rw [after, List.map_append]
    exact h.shown.post hstanding
  · intro e he
    rcases List.mem_append.1 he with he | he
    · exact h.quiet e he
    · rw [List.mem_singleton.1 he]
      exact hnone
  · refine List.pairwise_append.2 ⟨h.alone, List.pairwise_singleton _ _, fun e he e' he' hkey => ?_⟩
    rw [List.mem_singleton.1 he'] at hkey ⊢
    exact (h.get?_eq_none hold).1 hnone e he hkey

/-! ## Runs -/

/-- Where the identifiers tell the alerts apart, the manager has a board. -/
def Sound (s : Book D) : Prop := s.UniqueIDs → ∃ b, s.Booked b

theorem sound_new : ({} : Book D).Sound := fun _ =>
  ⟨{}, Manager.refines_new, Board.shows_empty, fun _ he => absurd he List.not_mem_nil, .nil⟩

namespace Sound

variable (h : s.Sound)

include h

theorem emitLocked (key : String) (draw : Draw) (halert : alert.resolvedAt = none) :
    (s.after ((s.manager.emitLocked key alert draw).1,
      appendCreated [] (s.manager.emitLocked key alert draw).2)).Sound := by
  intro hids
  obtain ⟨b, hb⟩ := h hids.of_after
  cases hentry : s.manager.opened.get? key with
  | some entry =>
      rw [Manager.emitLocked_of_open hentry]
      exact ⟨b, by rwa [appendCreated, after_nil]⟩
  | none =>
      cases hemission : (s.manager.emitLocked key alert draw).2 with
      | none =>
          rw [Manager.emitLocked, hentry] at hemission
          cases hemission
      | some emission =>
          rw [hemission] at hids
          exact hb.emitLocked hentry halert hemission hids

theorem resolveLocked (key : String) (now : Int) :
    ({ s with manager := s.manager.resolveLocked key now } : Book D).Sound := by
  intro hids
  obtain ⟨b, hb⟩ := h hids
  exact ⟨b.close key, hb.refines.resolveLocked, hb.shown.close, hb.quiet, hb.alone⟩

theorem withCounts (counts : String → Int64) :
    ({ s with manager := { s.manager with authCounts := counts } } : Book D).Sound := by
  intro hids
  obtain ⟨b, hb⟩ := h hids
  exact ⟨b, hb.refines.withCounts counts, hb.shown, hb.quiet, hb.alone⟩

theorem unchanged : (s.after (s.manager, [])).Sound := by
  rwa [after_nil]

/-! The calls, in the order of the source. -/

theorem evaluateManyAttempts (requestID : String) (attempt elapsed : Int64) (cfg : RiskConfig)
    (draw : Draw) :
    (s.after (s.manager.evaluateManyAttempts requestID attempt elapsed cfg draw)).Sound := by
  unfold Manager.evaluateManyAttempts
  split
  next => exact h.emitLocked _ _ rfl
  next => exact h.unchanged

theorem evaluateElapsed (requestID : String) (attempt elapsed : Int64) (cfg : RiskConfig)
    (draw : Draw) :
    (s.after (s.manager.evaluateElapsed requestID attempt elapsed cfg draw)).Sound := by
  unfold Manager.evaluateElapsed
  split
  next => exact h.unchanged
  next => exact h.emitLocked _ _ rfl

/-- The errors are counted before the alert is looked for. -/
theorem evaluateAuthLocked (requestID : String) (attempt statusCode elapsed : Int64)
    (threshold : Int) (draw : Draw) :
    (s.after (s.manager.evaluateAuthLocked requestID attempt statusCode elapsed threshold
      draw)).Sound := by
  unfold Manager.evaluateAuthLocked
  split
  next =>
    rw [after_nil]
    exact h.withCounts _
  next =>
    dsimp only
    split
    next =>
      rw [after_nil]
      exact h.withCounts _
    next => exact (h.withCounts _).emitLocked _ _ rfl

theorem evaluateAttempt (requestID : String) (attempt : Int64) (started : Int)
    (statusCode : Int64) (cfg : RiskConfig) (now : Int) (many long auth : Draw) :
    (s.after (s.manager.evaluateAttempt requestID attempt started statusCode cfg now many long
      auth)).Sound := by
  have hmany := h.evaluateManyAttempts requestID attempt (sub now started) cfg many
  have hlong := hmany.evaluateElapsed requestID attempt (sub now started) cfg long
  have hauth := hlong.evaluateAuthLocked requestID attempt statusCode (sub now started)
    cfg.authErrorAttempts auth
  rw [after_after, after_after, ← List.append_assoc] at hauth
  exact hauth

theorem evaluateQueue (active waiting maxActive maxWaiting : Int64) (cfg : RiskConfig)
    (draw : Draw) :
    (s.after (s.manager.evaluateQueue active waiting maxActive maxWaiting cfg draw)).Sound := by
  unfold Manager.evaluateQueue
  dsimp only
  split
  next => exact h.unchanged
  next =>
    split
    next =>
      rw [after_nil]
      exact h.resolveLocked _ _
    next => exact h.emitLocked _ _ rfl

theorem resolveRequest (requestID : String) (rank : String → Nat) (now : String → Int) :
    ({ s with manager := s.manager.resolveRequest requestID rank now } : Book D).Sound := by
  have hloop : ∀ (keys : List String) {s : Book D}, s.Sound →
      ({ s with manager := keys.foldl (fun m key => m.resolveLocked key (now key)) s.manager } :
        Book D).Sound := by
    intro keys
    induction keys with
    | nil => exact fun hs => hs
    | cons key keys ih => exact fun hs => ih (hs.resolveLocked key (now key))
  exact (hloop _ h).withCounts _

/-- The step lemma. -/
theorem step (call : Call D) : (s.step call).Sound := by
  show (s.after (s.manager.perform call)).Sound
  cases call with
  | evaluateAttempt requestID attempt started statusCode cfg now many long auth =>
      exact h.evaluateAttempt requestID attempt started statusCode cfg now many long auth
  | evaluateLongRunning requestID attempt started cfg now draw =>
      exact h.evaluateElapsed requestID attempt (sub now started) cfg draw
  | evaluateQueue active waiting maxActive maxWaiting cfg draw =>
      exact h.evaluateQueue active waiting maxActive maxWaiting cfg draw
  | recordGlobal alertType severity message draw => exact h.emitLocked _ _ rfl
  | recordGlobalMessage alertType severity message draw => exact h.emitLocked _ _ rfl
  | resolveRequest requestID rank now =>
      rw [Manager.perform, after_nil]
      exact h.resolveRequest requestID rank now
  | resolveGlobal alertType now =>
      rw [Manager.perform, after_nil]
      exact h.resolveLocked _ _

end Sound

/-- The run lemma. -/
theorem sound_run (calls : List (Call D)) : (run calls).Sound :=
  foldl_invariant (fun _ call h => h.step call) sound_new calls

/-! ## What holds of a run -/

/-- What a manager keeps of the alerts it has emitted. The keys are those the
alerts were emitted under. -/
structure Kept (s : Book D) : Prop where
  /-- The index is a bijection between its keys and the unresolved alerts. -/
  bijection : ∃ f : {key // (s.manager.opened.get? key).isSome} ≃
      {alert // alert ∈ s.manager.alerts ∧ alert.resolvedAt = none},
    ∀ key : {key // (s.manager.opened.get? key).isSome},
      s.manager.opened.get? key = some ⟨key, (f key).1.id⟩
  filed : ∀ e ∈ s.emitted, s.manager.Unresolved e.alert.id ↔
    s.manager.opened.get? e.key = some ⟨e.key, e.alert.id⟩
  bounded : s.manager.alerts.length ≤ 200
  newest_first : s.manager.alerts.map Alert.created =
    (s.emitted.map Emission.alert).reverse.take 200
  newest_first_by_time :
    (s.emitted.Pairwise fun e e' => e.alert.createdAt ≤ e'.alert.createdAt) →
      s.manager.alerts.Pairwise fun newer older => older.createdAt ≤ newer.createdAt
  one_unresolved : ∀ e ∈ s.emitted, ∀ e' ∈ s.emitted, e.key = e'.key →
    s.manager.Unresolved e.alert.id → s.manager.Unresolved e'.alert.id → e = e'
  /-- What was emitted met no open alert of its key, neither in the index nor in
  the list. -/
  quiet : ∀ e ∈ s.emitted, e.before.opened.get? e.key = none
  alone : s.emitted.Pairwise fun e e' => e.key = e'.key → ¬e'.before.Unresolved e.alert.id
  /-- And nothing else keeps an alert from being emitted. -/
  refused_iff : ∀ key alert draw, (s.manager.emitLocked key alert draw).2 = none ↔
    ∃ e ∈ s.emitted, e.key = key ∧ s.manager.Unresolved e.alert.id

namespace Booked

variable (h : s.Booked b)

include h

theorem alerts_created :
    s.manager.alerts.map Alert.created = (s.emitted.map Emission.alert).reverse.take maxAlerts := by
  have hlisted := congrArg (List.map Prod.fst) h.refines.listed
  have hshown := congrArg (List.map Prod.snd) h.shown
  rw [List.map_map, List.map_map] at hlisted
  rw [List.map_map, List.map_take, List.map_reverse, List.map_map] at hshown
  exact hlisted.trans hshown

theorem alerts_by_time
    (hreadings : s.emitted.Pairwise fun e e' => e.alert.createdAt ≤ e'.alert.createdAt) :
    s.manager.alerts.Pairwise fun newer older => older.createdAt ≤ newer.createdAt := by
  have hcreated : (s.manager.alerts.map Alert.created).Pairwise
      fun newer older => older.createdAt ≤ newer.createdAt := by
    rw [h.alerts_created]
    refine List.Pairwise.sublist (List.take_sublist _ _) (List.pairwise_reverse.2 ?_)
    exact List.pairwise_map.2 hreadings
  exact List.pairwise_map.1 hcreated

theorem emitLocked_eq_none (hids : s.UniqueIDs) :
    (s.manager.emitLocked key alert draw).2 = none ↔
      ∃ e ∈ s.emitted, e.key = key ∧ s.manager.Unresolved e.alert.id := by
  cases hentry : s.manager.opened.get? key with
  | none =>
      rw [Manager.emitLocked, hentry]
      refine iff_of_false (fun hnone => by cases hnone) ?_
      rintro ⟨e, he, hkey, hopen⟩
      exact (h.get?_eq_none hids).1 hentry e he hkey hopen
  | some entry =>
      rw [Manager.emitLocked_of_open hentry]
      exact iff_of_true rfl (h.exists_emitted hentry)

theorem kept (hids : s.UniqueIDs) : s.Kept where
  bijection := h.refines.bijection
  filed e he := h.filed hids he
  bounded := by
    rw [← List.length_map Alert.created, h.alerts_created]
    exact List.length_take_le _ _
  newest_first := h.alerts_created
  newest_first_by_time := h.alerts_by_time
  one_unresolved e he e' he' hkey hopen hopen' := by
    have hentry := (h.filed hids he).1 hopen
    have hentry' := (h.filed hids he').1 hopen'
    rw [hkey, hentry'] at hentry
    injection hentry with hentry
    injection hentry with _ hid
    exact List.inj_on_of_nodup_map hids he he' hid.symm
  quiet := h.quiet
  alone := h.alone
  refused_iff _ _ _ := h.emitLocked_eq_none hids

end Booked

/-- The bookkeeping of the alerts, over every run of calls whose alerts were
given identifiers of their own. -/
theorem run_kept (calls : List (Call D)) (hids : (run calls).UniqueIDs) : (run calls).Kept := by
  obtain ⟨b, hb⟩ := sound_run calls hids
  exact hb.kept hids

theorem Kept.resolved (h : s.Kept) {requestID : String}
    (hresolved : s.manager.hasOpenRequestAlerts requestID = false) (he : e ∈ s.emitted)
    (hof : Manager.ofRequest requestID e.key = true) : ¬s.manager.Unresolved e.alert.id := by
  intro hopen
  have hentry := Table.mem_of_get? ((h.filed e he).1 hopen)
  exact List.any_eq_false.1 hresolved _ hentry hof

/-- Once a request is resolved, no alert under a key of its own is left open. -/
theorem run_resolveRequest (calls : List (Call D)) {requestID : String} {rank : String → Nat}
    {now : String → Int}
    (hids : (run (calls ++ [.resolveRequest requestID rank now])).UniqueIDs) :
    ∀ e ∈ (run (calls ++ [.resolveRequest requestID rank now])).emitted,
      Manager.ofRequest requestID e.key = true →
        ¬(run (calls ++ [.resolveRequest requestID rank now])).manager.Unresolved e.alert.id := by
  obtain ⟨b, hb⟩ := sound_run _ hids
  intro e he hof
  refine (hb.kept hids).resolved ?_ he hof
  rw [run, List.foldl_append]
  exact Manager.hasOpenRequestAlerts_resolveRequest _ requestID rank now

/-- Two attempts of a request, then its end; and a queue that fills twice. -/
def busy : List (Call Unit) :=
  let cfg : RiskConfig :=
    { warningAfter := 60000000000, warningAttempts := 2, authErrorAttempts := 2
      queueWarningPercent := 80, minimumFreeDisk := 0 }
  [.evaluateAttempt "r" 1 0 401 cfg 1 ⟨"a", 2⟩ ⟨"b", 3⟩ ⟨"c", 4⟩,
    .evaluateQueue 8 80 8 100 cfg ⟨"d", 5⟩,
    .evaluateAttempt "r" 2 0 401 cfg 60000000006 ⟨"e", 7⟩ ⟨"f", 8⟩ ⟨"g", 9⟩,
    .evaluateQueue 1 0 8 100 cfg ⟨"h", 10⟩,
    .evaluateQueue 8 80 8 100 cfg ⟨"i", 11⟩,
    .resolveRequest "r" String.length fun _ => 12,
    .recordGlobal "disk" "warning" "full" ⟨"j", 13⟩]

theorem run_kept_busy : (run busy).UniqueIDs ∧ (run busy).Kept := by
  have hids : (run busy).UniqueIDs := by
    show (List.map _ _).Nodup
    decide +kernel
  exact ⟨hids, run_kept busy hids⟩

theorem run_resolveRequest_busy :
    ∃ e ∈ (run (busy.take 5 ++ [.resolveRequest "r" String.length fun _ => 12])).emitted,
      Manager.ofRequest "r" e.key = true ∧
        ¬(run (busy.take 5 ++ [.resolveRequest "r" String.length fun _ => 12])).manager.Unresolved
          e.alert.id := by
  obtain ⟨e, he, hof⟩ :
      ∃ e ∈ (run (busy.take 5 ++ [.resolveRequest "r" String.length fun _ => 12])).emitted,
        Manager.ofRequest "r" e.key = true := by decide +kernel
  refine ⟨e, he, hof, run_resolveRequest (busy.take 5) ?_ e he hof⟩
  show (List.map _ _).Nodup
  decide +kernel

end Book

end RelayLifeline.Risk
