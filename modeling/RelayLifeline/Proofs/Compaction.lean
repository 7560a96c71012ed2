import RelayLifeline.Governance.Compaction
import RelayLifeline.Proofs.ReplayFrame
import RelayLifeline.Proofs.WriteOnly

/-!
# Compaction and replay

Beside the ledger that is compacted we follow what replay would have rebuilt
of the one that never is. The two agree in the windows no compaction reached,
and on every reservation but those that were dropped while they were open: all
their attempts were released, and the ledger says nothing of them any more.

A dropped reservation does no harm as long as nothing more is written of it
than its release. A binding, an attempt or a settlement of it is an orphan, and
the ledger that has one cannot be replayed.
-/

namespace RelayLifeline.Governance

open Lib

/-! ## Leaving entities out -/

/-- No entry names a window that began after the newest entry of its
entity. -/
def Timed (l : List Entry) : Prop :=
  ∀ id since, (∀ e ∈ l, e.entityID = id → e.time < since) →
    ∀ e ∈ l, e.entityID = id → e.event.Before since

theorem partBefore_empty (since : Int) (id : String) :
    PartBefore since (({} : Replay).part id) :=
  fun _ hnone => nomatch (show (none : Option ReservationState) = some _ from hnone)

namespace Replay

variable {r r₁ r' : Replay} {l : List Entry} {id : String} {since : Int}

theorem entries_cons_ok {e : Entry} (h : r.entries (e :: l) = .ok r₁) :
    ∃ r₂, r.entry e = .ok r₂ ∧ r₂.entries l = .ok r₁ := by
  unfold entries at h
  rw [List.foldlM_cons] at h
  cases hr : r.entry e with
  | error error =>
      rw [hr] at h
      cases h
  | ok r₂ =>
      rw [hr] at h
      exact ⟨r₂, rfl, h⟩

theorem entries_cons {e : Entry} (h : r.entry e = .ok r') : r.entries (e :: l) = r'.entries l := by
  unfold entries
  rw [List.foldlM_cons, h]
  rfl

/-- What the entries of an entity name bounds what replay holds of it. -/
theorem entries_before (hl : ∀ e ∈ l, e.entityID = id → e.event.Before since)
    (h : r.entries l = .ok r₁) (hp : PartBefore since (r.part id)) :
    PartBefore since (r₁.part id) := by
  induction l generalizing r with
  | nil =>
      cases h
      exact hp
  | cons e l ih =>
      obtain ⟨r₂, hentry, hrest⟩ := entries_cons_ok h
      obtain ⟨f, part', hacts⟩ := acts_of_ok hentry
      have hwrites := hacts.writes rfl hentry
      refine ih (fun e he => hl e (List.mem_cons_of_mem _ he)) hrest ?_
      by_cases hid : e.entityID = id
      · subst hid
        rw [hwrites.own]
        exact (hacts.before since (hl e (by simp) rfl) hp).2
      · rw [hwrites.others id fun h => hid h.symm]
        exact hp

/-- Of an entity it has no entry of, replay holds what it held. -/
theorem entries_absent (hl : ∀ e ∈ l, e.entityID ≠ id) (h : r.entries l = .ok r₁) :
    r₁.part id = r.part id := by
  induction l generalizing r with
  | nil =>
      cases h
      rfl
  | cons e l ih =>
      obtain ⟨r₂, hentry, hrest⟩ := entries_cons_ok h
      obtain ⟨f, part', hacts⟩ := acts_of_ok hentry
      rw [ih (fun e he => hl e (List.mem_cons_of_mem _ he)) hrest,
        (hacts.writes rfl hentry).others id fun h => hl e (by simp) h.symm]

/-- The second replay agrees with the first on the entities kept, and in the
windows from `since` on. -/
structure Agrees (since : Int) (kept : String → Bool) (r r' : Replay) : Prop where
  windows : ∀ slot window, since ≤ window → r'.windows slot window = r.windows slot window
  parts : ∀ id, kept id → r'.part id = r.part id

/-- Entities whose windows all began before `since` can be left out. -/
theorem entries_filter {kept : String → Bool}
    (hl : ∀ e ∈ l, kept e.entityID = false → e.event.Before since)
    (hp : ∀ id, kept id = false → PartBefore since (r.part id)) (hagree : Agrees since kept r r')
    (h : r.entries l = .ok r₁) :
    ∃ r₁', r'.entries (l.filter fun e => kept e.entityID) = .ok r₁' ∧
      Agrees since kept r₁ r₁' := by
  induction l generalizing r r' with
  | nil =>
      cases h
      exact ⟨r', rfl, hagree⟩
  | cons e l ih =>
      obtain ⟨r₂, hentry, hrest⟩ := entries_cons_ok h
      obtain ⟨f, part', hacts⟩ := acts_of_ok hentry
      have hwrites := hacts.writes rfl hentry
      have hl' : ∀ e ∈ l, kept e.entityID = false → e.event.Before since :=
        fun e he => hl e (List.mem_cons_of_mem _ he)
      cases hkept : kept e.entityID with
      | true =>
          obtain ⟨r₂', hentry', hwrites'⟩ := hacts.replays r' (hagree.parts _ hkept)
          rw [List.filter_cons_of_pos (by exact hkept), entries_cons hentry']
          refine ih hl' (fun id hid => ?_) ⟨fun slot window hle => ?_, fun id hid => ?_⟩ hrest
          · have hne : id ≠ e.entityID := fun heq => by simp [heq, hkept] at hid
            rw [hwrites.others id hne]
            exact hp id hid
          · rw [hwrites.windows, hwrites'.windows]
            exact hacts.isLocal _ _ slot window (hagree.windows slot window hle)
          · by_cases heq : id = e.entityID
            · rw [heq, hwrites.own, hwrites'.own]
            · rw [hwrites.others id heq, hwrites'.others id heq, hagree.parts id hid]
      | false =>
          obtain ⟨hkeeps, hbefore⟩ := hacts.before since (hl e (by simp) hkept) (hp _ hkept)
          rw [List.filter_cons_of_neg (by simp [hkept])]
          refine ih hl' (fun id hid => ?_) ⟨fun slot window hle => ?_, fun id hid => ?_⟩ hrest
          · by_cases heq : id = e.entityID
            · rw [heq, hwrites.own]
              exact hbefore
            · rw [hwrites.others id heq]
              exact hp id hid
          · rw [hagree.windows slot window hle, hwrites.windows, hkeeps _ slot window hle]
          · have hne : id ≠ e.entityID := fun heq => by simp [heq, hkept] at hid
            rw [hwrites.others id hne, hagree.parts id hid]

end Replay

/-! ## Following the ledger that is never compacted -/

/-- How replay of a compacted ledger `l` compares with replay of the whole. -/
structure Tracks (since : Int) (l : List Entry) (whole r : Replay) : Prop where
  windows : ∀ slot window, since ≤ window → r.windows slot window = whole.windows slot window
  parts : ∀ id, r.part id = whole.part id ∨
    (∀ e ∈ l, e.entityID ≠ id) ∧ ∀ reservation, whole.active.get? id = some reservation →
      ∀ attempt ∈ reservation.attempts.items, attempt.reservationReleased = true

theorem Tracks.mono {since since' : Int} {l : List Entry} {whole r : Replay}
    (h : Tracks since l whole r) (hle : since ≤ since') : Tracks since' l whole r :=
  ⟨fun slot window hw => h.windows slot window (hle.trans hw), h.parts⟩

/-- The same entry written on both sides. -/
theorem Tracks.write {since : Int} {l : List Entry} {whole r whole' r' : Replay} {e : Entry}
    {f : Windows → Windows} {part' : Option ReservationState × List String}
    (h : Tracks since l whole r) (hf : Windows.Local f)
    (hwhole : Replay.Writes e.entityID f part' whole whole')
    (hr : Replay.Writes e.entityID f part' r r') : Tracks since (l ++ [e]) whole' r' := by
  refine ⟨fun slot window hle => ?_, fun id => ?_⟩
  · rw [hwhole.windows, hr.windows]
    exact hf _ _ slot window (h.windows slot window hle)
  · by_cases heq : id = e.entityID
    · rw [heq, hwhole.own, hr.own]
      exact .inl rfl
    · have hactive : whole'.active.get? id = whole.active.get? id :=
        congrArg Prod.fst (hwhole.others id heq)
      rw [hwhole.others id heq, hr.others id heq, hactive]
      refine (h.parts id).imp_right fun ⟨habsent, hreleased⟩ => ⟨fun e' he' => ?_, hreleased⟩
      rcases List.mem_append.1 he' with hin | hlast
      · exact habsent e' hin
      · obtain rfl := List.mem_singleton.1 hlast
        exact fun hid => heq hid.symm

/-- Appending an entry keeps the ledger timed if its window is older than it,
or than an entry its entity has. -/
theorem Timed.append {l : List Entry} {e : Entry} (h : Timed l)
    (he : ∀ since, (∀ e' ∈ l, e'.entityID = e.entityID → e'.time < since) → e.time < since →
      e.event.Before since) : Timed (l ++ [e]) := by
  intro id since hall e' he' hid
  have hfront : ∀ e' ∈ l, e'.entityID = id → e'.time < since :=
    fun e' hin => hall e' (List.mem_append_left _ hin)
  rcases List.mem_append.1 he' with hin | hlast
  · exact h id since hfront e' hin hid
  · obtain rfl := List.mem_singleton.1 hlast
    exact he since (hid ▸ hfront) (hall e' he' hid)

/-- A ledger whose entities are kept or left out whole stays timed. -/
theorem Timed.filter {l : List Entry} (h : Timed l) (kept : String → Bool) :
    Timed (l.filter fun e => kept e.entityID) := by
  intro id since hall e he hid
  obtain ⟨hin, hkept⟩ := List.mem_filter.1 he
  refine h id since (fun e' hin' hid' => hall e' (List.mem_filter.2 ⟨hin', ?_⟩) hid') e hin hid
  rw [hid', ← hid]
  exact hkept

namespace Manager

/-- A manager whose ledger was compacted up to `since`, and can be replayed. -/
structure Compacted (since : Int) (m : Manager) : Prop where
  durable : m.Durable
  wellFormed : m.accounts.WellFormed
  timed : Timed m.entries
  replay : ∃ whole r, Replay.entries {} m.entries = .ok r ∧ whole.Mirrors m.accounts ∧
    Tracks since m.entries whole r

variable {m m' : Manager} {op : Op} {since : Int}

theorem Compacted.mono {since' : Int} (h : m.Compacted since) (hle : since ≤ since') :
    m.Compacted since' := by
  obtain ⟨whole, r, hr, hmirrors, htracks⟩ := h.replay
  exact ⟨h.durable, h.wellFormed, h.timed, whole, r, hr, hmirrors, htracks.mono hle⟩

theorem Compacted.quiet (h : m.Compacted since) (hq : Quiet m m') : m'.Compacted since := by
  obtain ⟨whole, r, hr, hmirrors, htracks⟩ := h.replay
  refine ⟨hq.durable h.durable, hq.accounts ▸ h.wellFormed, hq.entries ▸ h.timed, whole, r, ?_,
    hq.accounts ▸ hmirrors, hq.entries ▸ htracks⟩
  rw [hq.entries]
  exact hr

/-- A change concerns a reservation the ledger knows, or opens or closes
one. -/
def Known (m : Manager) : Effect → Prop
  | .admitted _ _ => True
  | .released _ => True
  | e => ∃ entry ∈ m.entries, entry.entityID = e.id

/-- What replay holds of a live reservation, where the ledger still knows it,
began before the newest of its entries. -/
theorem Compacted.before (h : m.Compacted since) {reservation : ReservationState}
    (hfound : m.reservations.get? reservation.id = some reservation)
    (hknown : ∃ entry ∈ m.entries, entry.entityID = reservation.id) {bound : Int}
    (hbound : ∀ entry ∈ m.entries, entry.entityID = reservation.id → entry.time < bound) :
    reservation.Before bound := by
  obtain ⟨whole, r, hr, hmirrors, htracks⟩ := h.replay
  obtain ⟨active, hactive, hsame⟩ := hmirrors.get? hfound
  have hpart : r.part reservation.id = whole.part reservation.id := by
    refine (htracks.parts reservation.id).resolve_right fun ⟨habsent, _⟩ => ?_
    obtain ⟨entry, hin, hid⟩ := hknown
    exact habsent entry hin hid
  have hbefore : PartBefore bound (r.part reservation.id) :=
    Replay.entries_before (h.timed reservation.id bound hbound) hr (partBefore_empty bound _)
  rw [hpart] at hbefore
  intro attempt hin
  obtain ⟨attempt', hin', hrest⟩ := hsame.attempts.exists_left hin
  rw [← hrest.rest]
  exact hbefore active hactive attempt' hin'

/-- The window an entry names is not past its own stamp, or is an attempt's
the ledger has an entry of. -/
theorem Compacted.timed_entry {e : Effect} (h : m.Compacted since) (he : e.Allowed m op)
    (hclk : op.clk.now ≤ op.clk.stamp) (hknown : m.Known e) :
    Timed (m.entries ++ [e.entry op.clk]) := by
  have hwindow : ∀ {bound : Int}, op.clk.stamp < bound → op.clk.window < bound := fun hlt =>
    lt_of_le_of_lt (op.clk.window_le_now.trans hclk) hlt
  refine h.timed.append fun bound hbound htime => ?_
  cases he with
  | admitted => exact hwindow htime
  | bound => trivial
  | began => exact hwindow htime
  | settled htarget hfound hnamed hbegun hfresh =>
      exact h.before hfound hknown hbound _ (Table.mem_of_get? hbegun)
  | released => trivial

/-- Closing a reservation whose attempts are all released changes no
window. -/
theorem releaseReservation_of_released (w : Windows) {reservation : ReservationState}
    (h : ∀ attempt ∈ reservation.attempts.items, attempt.reservationReleased = true) :
    w.releaseReservation reservation = w := by
  unfold Windows.releaseReservation
  generalize reservation.attempts.items = l at h
  induction l with
  | nil => rfl
  | cons attempt l ih =>
      rw [List.foldl_cons, show w.releaseAttempt attempt = w from if_pos (h attempt (by simp))]
      exact ih fun a ha => h a (List.mem_cons_of_mem _ ha)

/-- A change of a reservation the ledger knows keeps the ledger replayable. -/
theorem Compacted.makes {e : Effect} (h : m.Compacted since) (hmakes : Makes op m e m')
    (hclk : op.clk.now ≤ op.clk.stamp) (hknown : m.Known e) : m'.Compacted since := by
  obtain ⟨hdurable, hentries⟩ := hmakes.durable h.durable
  have htimed := h.timed_entry hmakes.allowed hclk hknown
  rw [← hentries] at htimed
  obtain ⟨whole, r, hr, hmirrors, htracks⟩ := h.replay
  obtain ⟨whole', hwhole', hmirrors'⟩ :=
    Replay.entry_of_allowed hmirrors h.wellFormed hmakes.allowed
  refine ⟨hdurable, hmakes.accounts ▸ wellFormed_apply h.wellFormed hmakes.allowed, htimed,
    whole', ?_⟩
  suffices ∃ f part' r', Windows.Local f ∧ r.entry (e.entry op.clk) = .ok r' ∧
      Replay.Writes e.id f part' whole whole' ∧ Replay.Writes e.id f part' r r' by
    obtain ⟨f, part', r', hf, hr', hwrites, hwrites'⟩ := this
    refine ⟨r', ?_, hmakes.accounts ▸ hmirrors', ?_⟩
    · rw [hentries, Replay.entries_append, hr]
      exact (Replay.entries_cons hr').trans rfl
    · rw [hentries]
      exact htracks.write hf hwrites hwrites'
  rcases htracks.parts e.id with hsame | ⟨habsent, hreleased⟩
  · obtain ⟨f, part', hacts⟩ := Replay.acts_of_ok hwhole'
    obtain ⟨r', hr', hwrites'⟩ := hacts.replays r hsame
    exact ⟨f, part', r', hacts.isLocal, hr', hacts.writes rfl hwhole', hwrites'⟩
  · cases hmakes.allowed with
    | admitted =>
        obtain ⟨f, part', hacts⟩ := Replay.acts_reserved rfl hwhole'
        obtain ⟨r', hr', hwrites'⟩ := (hacts (r.part _)).replays r rfl
        exact ⟨f, part', r', (hacts (none, [])).isLocal, hr', (hacts _).writes rfl hwhole',
          hwrites'⟩
    | @released reservation hcall hfound =>
        cases hwhole'
        have hnone : r.part reservation.id = (none, []) := Replay.entries_absent habsent hr
        refine ⟨id, _, _, Windows.local_id, rfl, Replay.writes_closed whole _ ?_,
          Replay.writes_closed r _ ?_⟩
        · simp only [Replay.closed]
          split
          · next active hactive => exact releaseReservation_of_released _ (hreleased active hactive)
          · rfl
        · simp only [Replay.closed]
          rw [show r.active.get? (Effect.released reservation).id = none from
            congrArg Prod.fst hnone]
          rfl
    | bound =>
        obtain ⟨entry, hin, hid⟩ := hknown
        exact absurd hid (habsent entry hin)
    | began =>
        obtain ⟨entry, hin, hid⟩ := hknown
        exact absurd hid (habsent entry hin)
    | settled =>
        obtain ⟨entry, hin, hid⟩ := hknown
        exact absurd hid (habsent entry hin)

/-! ## The heartbeats -/

/-- Where writes succeed, an append adds an entry and nothing else. -/
theorem append_eq_withEntries (hd : m.Durable) (clk : Clock) (id : String)
    (event : LedgerEvent) :
    m.append clk id event = (m.withEntries (m.entries ++ [⟨clk.stamp, id, event⟩]), true) := by
  obtain ⟨config, windows, estimates, reservations, ledger, counters⟩ := m
  obtain ⟨ledger', hl, hs, hf⟩ := hd
  cases hl
  obtain ⟨entries, state, faults, probes⟩ := ledger'
  cases hs
  cases hf
  rfl

/-- Replay still holds what it should of a live reservation with an attempt
unreleased. -/
theorem part_of_open {whole r : Replay} {l : List Entry} (hmirrors : whole.Mirrors m.accounts)
    (htracks : Tracks since l whole r) {reservation : ReservationState}
    (hin : reservation ∈ m.reservations.items) (hopen : reservation.allAttemptsReleased = false) :
    r.part reservation.id = whole.part reservation.id := by
  refine (htracks.parts reservation.id).resolve_right fun ⟨_, hreleased⟩ => ?_
  obtain ⟨active, hactive, hsame⟩ := hmirrors.get? (Table.get?_of_mem hin)
  have hall : reservation.allAttemptsReleased = true := by
    refine List.all_eq_true.2 fun attempt hattempt => ?_
    obtain ⟨attempt', hin', hrest⟩ := hsame.attempts.exists_left hattempt
    have hreleased' := hreleased active hactive attempt' hin'
    rw [← hrest.rest]
    simp [hreleased']
  rw [hopen] at hall
  cases hall

/-- A heartbeat replays, and changes nothing. -/
theorem Compacted.heartbeat (h : m.Compacted since) {reservation : ReservationState}
    (hin : reservation ∈ m.reservations.items) (hopen : reservation.allAttemptsReleased = false)
    (time now : Int) :
    (m.withEntries (m.entries ++ [⟨time, reservation.id,
      .heartbeat { principal := reservation.principal, recordedAt := now }⟩])).Compacted since := by
  obtain ⟨whole, r, hr, hmirrors, htracks⟩ := h.replay
  obtain ⟨active, hactive, -⟩ := hmirrors.get? (Table.get?_of_mem hin)
  have hpart := part_of_open hmirrors htracks hin hopen
  have hentry : r.entry ⟨time, reservation.id,
      .heartbeat { principal := reservation.principal, recordedAt := now }⟩ = .ok r := by
    unfold Replay.entry Replay.heartbeat
    dsimp only
    rw [Replay.get?_of_part hactive hpart, if_neg (by
      rintro (hnone | hnamed)
      · cases hnone
      · exact (h.wellFormed reservation hin).principal hnamed)]
  refine ⟨withEntries_durable m _ h.durable, h.wellFormed, ?_, whole, r, ?_, hmirrors, ?_⟩
  · rw [withEntries_entries m _ h.durable]
    exact h.timed.append fun _ _ _ => trivial
  · rw [withEntries_entries m _ h.durable, Replay.entries_append, hr]
    exact (Replay.entries_cons hentry).trans rfl
  · rw [withEntries_entries m _ h.durable]
    have hidle : Replay.Writes reservation.id id (r.part reservation.id) r r :=
      ⟨rfl, rfl, fun _ _ => rfl⟩
    exact htracks.write Windows.local_id ⟨rfl, hpart.symm, fun _ _ => rfl⟩ hidle

/-- What the heartbeats of some reservations leave. -/
structure Beaten (stamp : String → Int) (l : List ReservationState) (m m' : Manager) : Prop where
  same : m' = m.withEntries m'.entries
  kept : ∀ entry ∈ m.entries, entry ∈ m'.entries
  beat : ∀ reservation ∈ l, reservation.allAttemptsReleased = false →
    ∃ entry ∈ m'.entries, entry.entityID = reservation.id ∧ entry.time = stamp reservation.id

theorem Beaten.withEntries {stamp : String → Int} {l : List ReservationState}
    (h : Beaten stamp l m m') (entries : List Entry) :
    m'.withEntries entries = m.withEntries entries := by
  rw [h.same]
  exact withEntries_withEntries m _ _

/-- The heartbeats are all written. -/
theorem Compacted.heartbeats (h : m.Compacted since) (clk : Clock) (stamp : String → Int)
    {l : List ReservationState} (hl : ∀ reservation ∈ l, reservation ∈ m.reservations.items) :
    ∃ m', l.foldl (Manager.heartbeat clk stamp) (m, false) = (m', false) ∧
      m'.Compacted since ∧ Beaten stamp l m m' := by
  induction l generalizing m with
  | nil =>
      exact ⟨m, rfl, h, m.withEntries_self.symm, fun _ he => he, fun _ hin => nomatch hin⟩
  | cons reservation l ih =>
      have htail : ∀ r ∈ l, r ∈ m.reservations.items := fun r hr => hl r (List.mem_cons_of_mem _ hr)
      cases hopen : reservation.allAttemptsReleased with
      | true =>
          obtain ⟨m', hm', hcompacted, hbeaten⟩ := ih h htail
          refine ⟨m', ?_, hcompacted, hbeaten.same, hbeaten.kept, fun r hr hr' => ?_⟩
          · rw [List.foldl_cons, show Manager.heartbeat clk stamp (m, false) reservation = (m, false)
              from if_pos (by simp [hopen])]
            exact hm'
          · rcases List.mem_cons.1 hr with rfl | hr
            · rw [hopen] at hr'
              cases hr'
            · exact hbeaten.beat r hr hr'
      | false =>
          let entry : Entry := ⟨stamp reservation.id, reservation.id,
            .heartbeat { principal := reservation.principal, recordedAt := clk.now }⟩
          have hbeat := h.heartbeat (hl reservation (by simp)) hopen (stamp reservation.id) clk.now
          obtain ⟨m', hm', hcompacted, hbeaten⟩ := ih hbeat htail
          have hentries := withEntries_entries m (m.entries ++ [entry]) h.durable
          refine ⟨m', ?_, hcompacted, ?_, fun e he => hbeaten.kept e ?_, fun r hr hr' => ?_⟩
          · have hstep : Manager.heartbeat clk stamp (m, false) reservation =
                (m.withEntries (m.entries ++ [entry]), false) := by
              unfold Manager.heartbeat
              dsimp only
              rw [if_neg (by simp [hopen]), append_eq_withEntries h.durable]
              rfl
            rw [List.foldl_cons, hstep]
            exact hm'
          · exact hbeaten.same.trans (withEntries_withEntries m _ _)
          · rw [hentries]
            exact List.mem_append_left _ he
          · rcases List.mem_cons.1 hr with rfl | hr
            · exact ⟨entry, hbeaten.kept entry (by rw [hentries]; simp), rfl, rfl⟩
            · exact hbeaten.beat r hr hr'

/-! ## Compacting -/

/-- Dropping the entities with no entry from the cutoff on, where every
reservation with an attempt unreleased has one. -/
theorem Compacted.filter (h : m.Compacted since) {ledger : Ledger} (hledger : m.ledger = some ledger)
    {cutoff : Int} (hopen : ∀ reservation ∈ m.reservations.items,
      reservation.allAttemptsReleased = false → ledger.retains cutoff reservation.id = true) :
    (m.withEntries (ledger.entries.filter fun entry =>
      ledger.retains cutoff entry.entityID)).Compacted (max since cutoff) := by
  have hentries : m.entries = ledger.entries := by
    unfold entries
    rw [hledger]
  have hold : ∀ id, ledger.retains cutoff id = false →
      ∀ entry ∈ m.entries, entry.entityID = id → entry.time < max since cutoff := by
    intro id hid entry hin heq
    rw [hentries] at hin
    have hnot := List.any_eq_false.1 hid entry hin
    have hlt : entry.time < cutoff := by simpa [heq] using hnot
    exact lt_of_lt_of_le hlt (le_max_right _ _)
  obtain ⟨whole, r, hr, hmirrors, htracks⟩ := (h.mono (le_max_left since cutoff)).replay
  obtain ⟨r', hr', hagree⟩ := Replay.entries_filter
    (fun entry hin hid => h.timed entry.entityID _ (hold _ hid) entry hin rfl)
    (fun id _ => partBefore_empty _ id)
    ⟨fun _ _ _ => rfl, fun _ _ => rfl⟩ hr
  rw [← hentries]
  refine ⟨withEntries_durable m _ h.durable, h.wellFormed, ?_, whole, r', ?_, hmirrors, ?_⟩
  · rw [withEntries_entries m _ h.durable]
    exact h.timed.filter (ledger.retains cutoff)
  · rw [withEntries_entries m _ h.durable]
    exact hr'
  · rw [withEntries_entries m _ h.durable]
    refine ⟨fun slot window hle => ?_, fun id => ?_⟩
    · rw [hagree.windows slot window hle, htracks.windows slot window hle]
    · cases hid : ledger.retains cutoff id with
      | true =>
          rw [hagree.parts id hid]
          exact (htracks.parts id).imp_right fun ⟨habsent, hreleased⟩ =>
            ⟨fun e he => habsent e (List.mem_filter.1 he).1, hreleased⟩
      | false =>
          refine .inr ⟨fun e he heq => ?_, fun active hactive attempt hattempt => ?_⟩
          · have hkept := (List.mem_filter.1 he).2
            rw [heq, hid] at hkept
            cases hkept
          · obtain ⟨reservation, hin, hsame⟩ := hmirrors.active.exists_right
              (Table.mem_of_get? hactive)
            have hrid : reservation.id = id := hsame.id.symm.trans (Table.key_of_get? hactive)
            cases hall : reservation.allAttemptsReleased with
            | false =>
                have hretained := hopen reservation hin hall
                rw [hrid, hid] at hretained
                cases hretained
            | true =>
                have hclosed := hsame.closed (h.wellFormed reservation hin) attempt hattempt
                obtain ⟨attempt', hin', hrest⟩ := hsame.attempts.exists_right hattempt
                have hdone := List.all_eq_true.1 hall attempt' hin'
                rw [← hrest.rest] at hdone
                simpa [hclosed] using hdone

/-- The job keeps the ledger replayable, up to its cutoff. -/
theorem Compacted.compact (h : m.Compacted since) {clk : Clock} {stamp : String → Int}
    {cutoff : Int} {rewrite : Rewrite} (ht : (Step.compact clk stamp cutoff rewrite).Timely) :
    (m.compact clk stamp cutoff rewrite).1.Compacted (max since cutoff) ∧
      ∃ l, (m.compact clk stamp cutoff rewrite).1 = m.withEntries l := by
  obtain ⟨hcutoff, hstamp, hanchored⟩ := ht
  obtain ⟨m', hm', hcompacted, hbeaten⟩ :=
    h.heartbeats clk stamp (l := m.reservations.items) fun _ hin => hin
  obtain ⟨ledger, hledger, -⟩ := h.durable
  obtain ⟨ledger', hledger', hs, hf⟩ := hcompacted.durable
  have hsame : m'.reservations = m.reservations := by
    rw [hbeaten.same]
    rfl
  have hopen : ∀ reservation ∈ m'.reservations.items,
      reservation.allAttemptsReleased = false →
        ledger'.retains cutoff reservation.id = true := by
    intro reservation hin hopen
    rw [hsame] at hin
    obtain ⟨entry, hentry, hid, htime⟩ := hbeaten.beat reservation hin hopen
    unfold entries at hentry
    rw [hledger'] at hentry
    refine List.any_eq_true.2 ⟨entry, hentry, ?_⟩
    simp only [hid, htime, true_and, decide_eq_true_eq]
    exact hcutoff.trans (hstamp _)
  have hfilter := hcompacted.filter hledger' hopen
  have hkept : m'.Compacted (max since cutoff) := hcompacted.mono (le_max_left _ _)
  have hset : ∀ l, { m' with ledger := some { ledger' with entries := l } } =
      m'.withEntries l := by
    intro l
    unfold withEntries
    rw [hledger']
    rfl
  unfold Manager.compact
  rw [if_neg (by rw [hledger]; exact Bool.false_ne_true), hm']
  dsimp only
  rw [if_neg Bool.false_ne_true, hledger']
  dsimp only
  unfold Ledger.compact
  dsimp only
  have hidle : { m' with ledger := some ledger' } = m' := by
    rw [← hledger']
  split
  · rw [hidle]
    exact ⟨hkept, _, hbeaten.same⟩
  · cases rewrite with
    | done =>
        rw [hset]
        exact ⟨hfilter, _, hbeaten.withEntries _⟩
    | failed =>
        rw [hidle]
        exact ⟨hkept, _, hbeaten.same⟩
    | unanchored => exact absurd rfl hanchored

end Manager

end RelayLifeline.Governance
