import RelayLifeline.Governance.Replay
import RelayLifeline.Proofs.Outstanding

/-!
# Replay follows the live manager

Each change of the live manager writes one entry, and replaying that entry
makes the same change. The two keep the same windows and the same estimates to
the letter. Their reservations differ in what nothing reads any more: replay
moves the keys of every attempt where a binding moves those of the outstanding
ones, and it adds a reservation's own totals up along another path.

So a ledger replays to the windows of the manager that wrote it, up to the
amounts of the reservations still open, and reconciling those takes exactly
these amounts off.
-/

namespace RelayLifeline.Governance

open Lib Lib.Word

/-! ## What replay keeps of the live accounts -/

/-- The same attempt, and under the same keys as long as it is outstanding. -/
structure AttemptState.Mirrors (a a' : AttemptState) : Prop where
  rest : { a with budgetKeys := a'.budgetKeys } = a'
  keys : a'.outstanding = true → a.budgetKeys = a'.budgetKeys

/-- The same reservation, as far as anything later reads it. -/
structure ReservationState.Mirrors (r r' : ReservationState) : Prop where
  id : r.id = r'.id
  principal : r.principal = r'.principal
  settlements : r.settlements = r'.settlements
  attempts : Table.Rel AttemptState.Mirrors r.attempts r'.attempts

/-- Replay has got where the live accounts are. -/
structure Replay.Mirrors (r : Replay) (a : Accounts) : Prop where
  windows : r.windows = a.windows
  estimates : r.estimates = a.estimates
  active : Table.Rel ReservationState.Mirrors r.active a.reservations
  seen : ∀ reservation ∈ a.reservations.items, ∀ id,
    id ∈ r.seen reservation.id ↔ (reservation.settlements.lookup id).isSome

namespace AttemptState

theorem Mirrors.refl (a : AttemptState) : a.Mirrors a := ⟨rfl, fun _ => rfl⟩

theorem Mirrors.id_eq {a a' : AttemptState} (h : a.Mirrors a') : a.id = a'.id := by
  rw [← h.rest]

theorem Mirrors.eq {a a' : AttemptState} (h : a.Mirrors a') (ho : a'.outstanding = true) :
    a = a' := by
  have := h.rest
  rw [← h.keys ho] at this
  exact this

theorem Mirrors.outstanding_eq {a a' : AttemptState} (h : a.Mirrors a') :
    a.outstanding = a'.outstanding := by
  rw [← h.rest]
  rfl

theorem mirrors_key : ∀ a a' : AttemptState, a.Mirrors a' → key a = key a' :=
  fun _ _ h => h.id_eq

end AttemptState

namespace ReservationState

theorem mirrors_key : ∀ r r' : ReservationState, r.Mirrors r' → key r = key r' :=
  fun _ _ h => h.id

theorem Mirrors.refl (r : ReservationState) : r.Mirrors r :=
  ⟨rfl, rfl, rfl, List.forall₂_same.2 fun a _ => .refl a⟩

/-- Outstanding attempts are the same on both sides. -/
theorem Mirrors.outstandingAttempts_eq {r r' : ReservationState} (h : r.Mirrors r') :
    r.outstandingAttempts = r'.outstandingAttempts := by
  have hall := h.attempts
  unfold Table.Rel at hall
  unfold outstandingAttempts
  generalize r.attempts.items = l at hall
  generalize r'.attempts.items = l' at hall
  induction hall with
  | nil => rfl
  | @cons a a' l l' ha _ ih =>
      simp only [List.filter_cons, ha.outstanding_eq, ih]
      split
      · next ho => rw [ha.eq ho]
      · rfl

/-- Putting every attempt under the same keys changes those keys only. -/
theorem chargeAll_items (r : ReservationState) (keys : List String) :
    (r.chargeAll keys).attempts.items =
      r.attempts.items.map fun attempt => { attempt with budgetKeys := keys } := by
  exact Table.items_foldl_set (p := fun _ => true)
    (f := fun attempt : AttemptState => { attempt with budgetKeys := keys }) (fun _ => rfl)
    r.attempts

end ReservationState

/-! ## One entry -/

/-- Releasing gives back what the outstanding attempts hold. -/
theorem releaseReservation_eq (w : Windows) {reservation : ReservationState}
    (hclosed : ∀ attempt ∈ reservation.attempts.items,
      attempt.settled = attempt.reservationReleased) :
    w.releaseReservation reservation =
      reservation.outstandingAttempts.foldl Windows.releaseAttempt w := by
  unfold Windows.releaseReservation ReservationState.outstandingAttempts
  generalize reservation.attempts.items = l at hclosed
  induction l generalizing w with
  | nil => rfl
  | cons attempt l ih =>
      have hrest := fun w => ih w fun a ha => hclosed a (List.mem_cons_of_mem _ ha)
      rw [List.foldl_cons, hrest, List.filter_cons]
      split
      · rfl
      · next ho =>
          have hrel : attempt.reservationReleased = true := by
            have := hclosed attempt (by simp)
            simpa [AttemptState.outstanding, this] using ho
          rw [show w.releaseAttempt attempt = w from if_pos hrel]

theorem ReservationState.Mirrors.closed {r r' : ReservationState} (h : r.Mirrors r')
    (hr : r'.WellFormed) :
    ∀ attempt ∈ r.attempts.items, attempt.settled = attempt.reservationReleased := by
  intro attempt hin
  obtain ⟨attempt', hin', hmirrors⟩ := h.attempts.exists_right hin
  have hclosed := (hr.attempts attempt' hin').closed
  rw [← hmirrors.rest] at hclosed
  exact hclosed

theorem ReservationState.Mirrors.release_eq {r r' : ReservationState} (h : r.Mirrors r')
    (hr : r'.WellFormed) (w : Windows) : w.releaseReservation r = w.releaseReservation r' := by
  rw [releaseReservation_eq w (h.closed hr),
    releaseReservation_eq w fun attempt hin => (hr.attempts attempt hin).closed,
    h.outstandingAttempts_eq]

namespace Replay

variable {r : Replay} {m : Manager} {op : Op}

/-- A reservation the live manager holds is active in replay. -/
theorem Mirrors.get? {a : Accounts} (h : r.Mirrors a) {reservation : ReservationState}
    (hget : a.reservations.get? reservation.id = some reservation) :
    ∃ active, r.active.get? reservation.id = some active ∧ active.Mirrors reservation :=
  h.active.get?_some ReservationState.mirrors_key hget

theorem reservedKeys_of_canonical (event : ReservedEvent) (h : CanonicalKeys event.budgetKeys) :
    reservedKeys event = event.budgetKeys := by
  unfold reservedKeys
  rw [if_neg h.nonempty]
  conv_rhs => rw [← List.map_id event.budgetKeys]
  exact List.map_congr_left fun key hkey => h.normalize hkey

/-- Replay's record of settlements after one reservation's is written anew. -/
theorem seen_set {reservation : ReservationState} {settled : List String}
    (h : r.Mirrors m.accounts)
    (hown : ∀ id, id ∈ settled ↔ (reservation.settlements.lookup id).isSome) :
    ∀ other ∈ (m.reservations.set reservation).items, ∀ id,
      id ∈ Function.update r.seen reservation.id settled other.id ↔
        (other.settlements.lookup id).isSome := by
  intro other hin
  rcases Table.mem_set.1 hin with rfl | ⟨hin, hne⟩
  · rw [Function.update_self]
    exact hown
  · rw [Function.update_of_ne (by exact hne)]
    exact h.seen other hin

/-- Replay's record of settlements where a change settles nothing. -/
theorem seen_kept {reservation : ReservationState} (h : r.Mirrors m.accounts)
    (hfound : m.reservations.get? reservation.id = some reservation) (after : ReservationState)
    (hid : after.id = reservation.id) (hsettled : after.settlements = reservation.settlements) :
    ∀ other ∈ (m.reservations.set after).items, ∀ id,
      id ∈ r.seen other.id ↔ (other.settlements.lookup id).isSome := by
  intro other hin
  rcases Table.mem_set.1 hin with rfl | ⟨hin, -⟩
  · rw [hid, hsettled]
    exact h.seen reservation (Table.mem_of_get? hfound)
  · exact h.seen other hin

theorem entry_admitted {id : String} {admission : AdmissionContext} {keys : List String}
    {amounts : Int64 × Int64} (h : r.Mirrors m.accounts) (hp : admission.principal ≠ "")
    (hkeys : ReservationKeys admission.principal keys) :
    let e : Effect := .admitted (Manager.openReservation op.clk id admission amounts keys)
      (Manager.initialAttempt op.clk amounts keys)
    ∃ r', r.entry (e.entry op.clk) = .ok r' ∧ r'.Mirrors (e.apply m.accounts) := by
  intro e
  refine ⟨{ r with
    windows := r.windows.applyAttemptReservation (Manager.initialAttempt op.clk amounts keys)
    counters.admitted := r.counters.admitted + 1
    active := r.active.set (Manager.openReservation op.clk id admission amounts keys)
    seen := Function.update r.seen id [] }, ?_, ?_⟩
  · show r.reserved id (Manager.reservedEvent op.clk admission amounts keys) = _
    unfold reserved
    rw [if_neg (by
      rintro (hnone | hzero)
      · exact hp hnone
      · exact op.clk.window_ne_zero hzero)]
    dsimp only
    rw [reservedKeys_of_canonical (Manager.reservedEvent op.clk admission amounts keys)
      hkeys.toCanonicalKeys]
    rfl
  · have hnone : ∀ id', id' ∈ ([] : List String) ↔
        (List.lookup id' (Manager.openReservation op.clk id admission amounts keys).settlements).isSome :=
      fun id' => by simp [Manager.openReservation]
    refine ⟨?_, h.estimates, h.active.set ReservationState.mirrors_key (.refl _),
      seen_set h hnone⟩
    simp only [h.windows]
    rfl

theorem entry_began {reservation : ReservationState} {attemptID : String}
    {amounts : Int64 × Int64} (h : r.Mirrors m.accounts) (hr : reservation.WellFormed)
    (hfound : m.reservations.get? reservation.id = some reservation) (hid : attemptID ≠ "")
    (hfresh : reservation.attempts.get? attemptID = none) :
    let e : Effect :=
      .began reservation (Manager.allowedAttempt op.clk reservation attemptID amounts)
    ∃ r', r.entry (e.entry op.clk) = .ok r' ∧ r'.Mirrors (e.apply m.accounts) := by
  intro e
  obtain ⟨active, hactive, hmirrors⟩ := h.get? hfound
  have hnew : active.attempts.get? attemptID = none :=
    hmirrors.attempts.get?_none AttemptState.mirrors_key hfresh
  have hkeys : normalizeBudgetKeys reservation.budgetKeys active.principal =
      reservation.budgetKeys := normalizeBudgetKeys_of_canonical hr.keys.toCanonicalKeys _
  refine ⟨{ r with
    windows := r.windows.applyAttemptReservation
      (Manager.allowedAttempt op.clk reservation attemptID amounts)
    active := r.active.set { active with
      attempts := active.attempts.set
        (Manager.allowedAttempt op.clk reservation attemptID amounts)
      reservedTokens := safeAdd64 active.reservedTokens (max64 amounts.1 0)
      reservedCostMicros := safeAdd64 active.reservedCostMicros (max64 amounts.2 0) } }, ?_, ?_⟩
  · show r.attemptReserved reservation.id _ = _
    unfold attemptReserved
    simp only [hactive, Manager.allowedAttempt, hid, op.clk.window_ne_zero, or_self, if_false,
      hnew, Option.isSome_none, Bool.false_eq_true, hkeys]
  · have hseen := seen_kept h hfound (reservation.addAttempt
      (Manager.allowedAttempt op.clk reservation attemptID amounts)) rfl rfl
    refine ⟨?_, h.estimates, h.active.set ReservationState.mirrors_key ⟨hmirrors.id,
      hmirrors.principal, hmirrors.settlements,
      hmirrors.attempts.set AttemptState.mirrors_key (.refl _)⟩, hseen⟩
    simp only [h.windows]
    rfl

/-- A binding with no attempt to move changes no window. -/
theorem moveReservationKeys_of_none (w : Windows) {reservation : ReservationState}
    (keys : List String) (h : reservation.outstandingAttempts = []) :
    moveReservationKeys w reservation keys = (w, reservation) := by
  have hall : ∀ attempt ∈ reservation.attempts.items, attempt.outstanding = false := by
    simpa [ReservationState.outstandingAttempts, List.filter_eq_nil_iff] using h
  unfold moveReservationKeys
  generalize reservation.attempts.items = l at hall
  induction l with
  | nil => rfl
  | cons attempt l ih =>
      have hskip : moveAttempt keys (w, reservation) attempt = (w, reservation) := by
        unfold moveAttempt
        rw [if_neg (by simp [hall attempt (by simp)])]
      rw [List.foldl_cons, hskip]
      exact ih fun a ha => hall a (List.mem_cons_of_mem _ ha)

/-- Moving attempts moves the outstanding ones. -/
theorem fst_rebindReservation (w : Windows) (reservation : ReservationState)
    (newKeys : List String) (amounts : List AttemptReservationEvent) :
    (rebindReservation w reservation newKeys amounts).1 =
      reservation.outstandingAttempts.foldl (fun w attempt =>
        (w.unapplyAttemptReservation attempt).applyAttemptReservation
          (attempt.rebind newKeys amounts)) w :=
  windowsAfter_bound w reservation "" newKeys amounts

/-- Both sides move the same attempts, and put them under the same keys. -/
theorem rebind_mirrors {active reservation : ReservationState} (h : active.Mirrors reservation)
    (w : Windows) (newKeys : List String) (amounts : List AttemptReservationEvent)
    (hmoves : amounts = [] → reservation.outstandingAttempts = []) :
    let moved := if amounts ≠ [] then rebindReservation w active newKeys amounts
      else moveReservationKeys w active newKeys
    moved.1 = (rebindReservation w reservation newKeys amounts).1 ∧
      moved.2.id = active.id ∧ moved.2.principal = active.principal ∧
      moved.2.settlements = active.settlements ∧
      moved.2.attempts.items = active.attempts.items.map fun attempt =>
        if attempt.outstanding then attempt.rebind newKeys amounts else attempt := by
  intro moved
  rw [fst_rebindReservation, ← h.outstandingAttempts_eq]
  simp only [moved]
  split
  · obtain ⟨hid, hp, -, -, hs⟩ := rebindReservation_rest w active newKeys amounts
    exact ⟨fst_rebindReservation _ _ _ _, hid, hp, hs, rebindReservation_attempts _ _ _ _⟩
  · next hnone =>
      have hout : active.outstandingAttempts = [] :=
        h.outstandingAttempts_eq.trans (hmoves (not_not.1 hnone))
      rw [moveReservationKeys_of_none w newKeys hout, hout]
      refine ⟨rfl, rfl, rfl, rfl, ?_⟩
      conv_lhs => rw [← List.map_id active.attempts.items]
      refine List.map_congr_left fun attempt hin => (if_neg fun ho => ?_).symm
      exact List.eq_nil_iff_forall_not_mem.1 hout attempt (List.mem_filter.2 ⟨hin, ho⟩)

theorem entry_bound {reservation : ReservationState} {upstream : String} {newKeys : List String}
    (h : r.Mirrors m.accounts)
    (hfound : m.reservations.get? reservation.id = some reservation) (hnamed : upstream ≠ "")
    (hkeys : ReservationKeys reservation.principal newKeys) :
    let e : Effect := .bound reservation upstream newKeys (m.attemptReservations reservation newKeys)
    ∃ r', r.entry (e.entry op.clk) = .ok r' ∧ r'.Mirrors (e.apply m.accounts) := by
  intro e
  obtain ⟨active, hactive, hmirrors⟩ := h.get? hfound
  have hnormal : normalizeBudgetKeys newKeys active.principal = newKeys :=
    normalizeBudgetKeys_of_canonical hkeys.toCanonicalKeys _
  have hmoves : m.attemptReservations reservation newKeys = [] →
      reservation.outstandingAttempts = [] := List.map_eq_nil_iff.1
  obtain ⟨hw, hid, hp, hs, hitems⟩ := rebind_mirrors hmirrors r.windows newKeys
    (m.attemptReservations reservation newKeys) hmoves
  generalize hmoved : (if m.attemptReservations reservation newKeys ≠ [] then
    rebindReservation r.windows active newKeys (m.attemptReservations reservation newKeys)
    else moveReservationKeys r.windows active newKeys) = moved at hw hid hp hs hitems
  refine ⟨{ r with
    windows := moved.1
    active := r.active.set
      (({ moved.2 with upstream, budgetKeys := newKeys } : ReservationState).chargeAll newKeys) },
    ?_, ?_⟩
  · show r.bound reservation.id _ = _
    unfold bound
    simp only [hactive, hnamed, if_false, hnormal, hmoved]
  · have hafter := rebindReservation_rest m.windows reservation newKeys
      (m.attemptReservations reservation newKeys)
    have hseen := seen_kept h hfound (e.reservationAfter m.windows) hafter.1 hafter.2.2.2.2
    refine ⟨?_, h.estimates, h.active.set ReservationState.mirrors_key ⟨?_, ?_, ?_, ?_⟩, hseen⟩
    · simp only [hw, h.windows]
      rfl
    · exact hid.trans (hmirrors.id.trans hafter.1.symm)
    · exact hp.trans (hmirrors.principal.trans hafter.2.1.symm)
    · exact hs.trans (hmirrors.settlements.trans hafter.2.2.2.2.symm)
    · have hlive : (e.reservationAfter m.accounts.windows).attempts.items = _ :=
        rebindReservation_attempts m.windows reservation newKeys
          (m.attemptReservations reservation newKeys)
      have hboth : List.Forall₂ AttemptState.Mirrors
          ((active.attempts.items.map fun attempt =>
            if attempt.outstanding then attempt.rebind newKeys
              (m.attemptReservations reservation newKeys) else attempt).map fun attempt =>
                { attempt with budgetKeys := newKeys })
          (reservation.attempts.items.map fun attempt =>
            if attempt.outstanding then attempt.rebind newKeys
              (m.attemptReservations reservation newKeys) else attempt) := by
        simp only [List.forall₂_map_left_iff, List.forall₂_map_right_iff]
        refine List.Forall₂.imp (fun a a' ha => ?_) hmirrors.attempts
        rw [ha.outstanding_eq]
        by_cases ho : a'.outstanding = true
        · rw [if_pos ho, if_pos ho, ha.eq ho]
          exact .refl _
        · rw [if_neg ho, if_neg ho]
          exact ⟨ha.rest, fun hout => absurd hout ho⟩
      unfold Table.Rel
      rw [ReservationState.chargeAll_items, hlive]
      simp only [hitems]
      exact hboth

/-- The attempt a settlement is about is outstanding until then. -/
theorem outstanding_of_fresh {reservation : ReservationState} {attempt : AttemptState}
    (hr : reservation.WellFormed) (hbegun : reservation.attempts.get? attempt.id = some attempt)
    (hfresh : reservation.settlements.lookup attempt.id = none) : attempt.outstanding = true := by
  have hin := Table.mem_of_get? hbegun
  have hsettled : attempt.settled = false := by
    by_contra hset
    have := (hr.settled attempt.id).2 ⟨attempt, hin, rfl, by simpa using hset⟩
    rw [hfresh] at this
    cases this
  have hclosed := (hr.attempts attempt hin).closed
  rw [(hr.attempts attempt hin).outstanding_eq, ← hclosed, hsettled]
  rfl

theorem entry_settled {reservation : ReservationState} {attempt : AttemptState} {usage : Usage}
    (h : r.Mirrors m.accounts) (hr : reservation.WellFormed)
    (hfound : m.reservations.get? reservation.id = some reservation) (hnamed : attempt.id ≠ "")
    (hbegun : reservation.attempts.get? attempt.id = some attempt)
    (hfresh : reservation.settlements.lookup attempt.id = none) :
    let e : Effect := .settled reservation attempt
      (m.usageEvent op.clk reservation attempt attempt.id usage)
    ∃ r', r.entry (e.entry op.clk) = .ok r' ∧ r'.Mirrors (e.apply m.accounts) := by
  intro e
  have hin := Table.mem_of_get? hbegun
  have ho := outstanding_of_fresh hr hbegun hfresh
  obtain ⟨active, hactive, hmirrors⟩ := h.get? hfound
  obtain ⟨found, hget, hsame⟩ := hmirrors.attempts.get?_some AttemptState.mirrors_key hbegun
  obtain rfl : found = attempt := hsame.eq ho
  have hunseen : found.id ∉ r.seen reservation.id := by
    rw [h.seen reservation (Table.mem_of_get? hfound), hfresh]
    simp
  refine ⟨r.settle active found (m.usageEvent op.clk reservation found found.id usage), ?_, ?_⟩
  · show r.usageRecorded reservation.id _ = _
    unfold usageRecorded
    simp only [hactive]
    rw [if_neg (by
      rintro (hnone | hother)
      · exact hnamed hnone
      · exact hother hmirrors.principal.symm), if_neg (by exact hunseen),
      show attemptIDOr (m.usageEvent op.clk reservation found found.id usage).attemptID = found.id
        from if_neg hnamed, hget]
  · obtain ⟨hid, hp, -⟩ := releaseAttempt_rest active found
    obtain ⟨hid', hp', -⟩ := releaseAttempt_rest reservation found
    have hrel : found.reservationReleased = false := by
      simpa [(hr.attempts found hin).outstanding_eq] using ho
    have hsettlements : ∀ id, id ∈ found.id :: r.seen reservation.id ↔
        ((e.reservationAfter m.windows).settlements.lookup id).isSome := by
      intro id
      show _ ↔ ((reservation.settlements ++ [(found.id, _)]).lookup id).isSome
      rw [List.lookup_append, Option.isSome_or, List.mem_cons,
        h.seen reservation (Table.mem_of_get? hfound), Bool.or_eq_true, or_comm]
      by_cases hi : id = found.id
      · simp [hi]
      · have hb : (id == found.id) = false := beq_eq_false_iff_ne.2 hi
        simp [hi, List.lookup_cons, hb]
    have hseen := seen_set h hsettlements
    rw [show (e.reservationAfter m.windows).id = reservation.id from reservationAfter_id _ _]
      at hseen
    refine ⟨?_, ?_, h.active.set ReservationState.mirrors_key ⟨?_, ?_, ?_, ?_⟩, ?_⟩
    · simp only [settle, h.windows]
      rw [if_neg (by exact (hr.attempts found hin).opened)]
      rfl
    · simp only [settle, h.estimates]
      rfl
    · exact hid.trans (hmirrors.id.trans hid'.symm)
    · exact hp.trans (hmirrors.principal.trans hp'.symm)
    · exact congrArg (· ++ [_]) hmirrors.settlements
    · have hstep : ∀ reservation : ReservationState,
          (reservation.releaseAttempt found).attempts =
            reservation.attempts.set { found with reservationReleased := true } := by
        intro reservation
        unfold ReservationState.releaseAttempt
        rw [if_neg (by simp [hrel])]
      show Table.Rel AttemptState.Mirrors ((active.releaseAttempt found).attempts.set _)
        ((reservation.releaseAttempt found).attempts.set _)
      rw [hstep, hstep]
      exact (hmirrors.attempts.set AttemptState.mirrors_key (.refl _)).set
        AttemptState.mirrors_key (.refl _)
    · simp only [settle, hmirrors.id]
      exact hseen

theorem entry_released {reservation : ReservationState} (h : r.Mirrors m.accounts)
    (hr : reservation.WellFormed)
    (hfound : m.reservations.get? reservation.id = some reservation) :
    let e : Effect := .released reservation
    ∃ r', r.entry (e.entry op.clk) = .ok r' ∧ r'.Mirrors (e.apply m.accounts) := by
  intro e
  obtain ⟨active, hactive, hmirrors⟩ := h.get? hfound
  refine ⟨r.closed reservation.id, rfl, ?_, h.estimates,
    h.active.erase ReservationState.mirrors_key _, ?_⟩
  · simp only [closed, hactive, hmirrors.release_eq hr, h.windows]
    rfl
  · intro other hin id
    obtain ⟨hin, hne⟩ := Table.mem_erase.1 hin
    simp only [closed]
    rw [Function.update_of_ne (by exact hne)]
    exact h.seen other hin id

/-- Replaying the entry of a change makes the change. -/
theorem entry_of_allowed {e : Effect} (h : r.Mirrors m.accounts)
    (hwf : m.accounts.WellFormed) (he : e.Allowed m op) :
    ∃ r', r.entry (e.entry op.clk) = .ok r' ∧ r'.Mirrors (e.apply m.accounts) := by
  cases he with
  | admitted htarget hnamed hp hfresh hcharged hreserved hlimits =>
      exact entry_admitted h hp (hcharged ▸ budgetKeys_reservationKeys _ _ hp _)
  | bound hcall htrim hfound hnamed helse hcharged hreserved hlimits =>
      have hr := hwf _ (Table.mem_of_get? hfound)
      subst hcharged hreserved
      exact entry_bound h hfound hnamed (budgetKeys_reservationKeys _ _ hr.principal _)
  | began htarget hfound hnamed hfresh hreserved hlimits =>
      exact entry_began h (hwf _ (Table.mem_of_get? hfound)) hfound hnamed hfresh
  | settled htarget hfound hnamed hbegun hfresh =>
      exact entry_settled h (hwf _ (Table.mem_of_get? hfound)) hfound hnamed hbegun hfresh
  | released hcall hfound =>
      exact entry_released h (hwf _ (Table.mem_of_get? hfound)) hfound

/-- Replaying one ledger after another. -/
theorem entries_append (r : Replay) (front back : List Entry) :
    r.entries (front ++ back) = r.entries front >>= fun r => r.entries back :=
  List.foldlM_append

end Replay

/-! ## Runs -/

namespace Manager

/-- The ledger replays to the accounts it was written from. -/
def Mirrored (m : Manager) : Prop :=
  ∃ r, Replay.entries {} m.entries = .ok r ∧ r.Mirrors m.accounts

theorem mirrored_of_makes {m m' : Manager} {op : Op} {e : Effect} (hmakes : Makes op m e m')
    (hd : m.Durable) (hwf : m.accounts.WellFormed) (h : m.Mirrored) : m'.Mirrored := by
  obtain ⟨r, hr, hmirrors⟩ := h
  obtain ⟨r', hr', hmirrors'⟩ := Replay.entry_of_allowed hmirrors hwf hmakes.allowed
  refine ⟨r', ?_, hmakes.accounts ▸ hmirrors'⟩
  rw [(hmakes.durable hd).2, Replay.entries_append, hr]
  show Replay.entries r [e.entry op.clk] = _
  simp [Replay.entries, hr']

theorem run_mirrored {m : Manager} (hfresh : m.Fresh) (hd : m.Durable) (ops : List Op) :
    (m.run ops).Mirrored ∧ (m.run ops).Durable := by
  have h := run_invariant
    (P := fun m => m.Durable ∧ m.accounts.WellFormed ∧ m.Mirrored) ?_ ?_ ?_ ops (m := m)
  · exact ⟨h.2.2, h.1⟩
  · rintro m m' hq ⟨hd, hwf, r, hr, hmirrors⟩
    refine ⟨hq.durable hd, hq.accounts ▸ hwf, r, ?_, hq.accounts ▸ hmirrors⟩
    rw [hq.entries]
    exact hr
  · rintro op m m' e hmakes ⟨hd, hwf, h⟩
    exact ⟨(hmakes.durable hd).1, hmakes.accounts ▸ wellFormed_apply hwf hmakes.allowed,
      mirrored_of_makes hmakes hd hwf h⟩
  · refine ⟨hd, run_wellFormed hfresh [], {}, ?_, ?_⟩
    · rw [hfresh.entries]
      rfl
    · refine ⟨hfresh.windows.symm, hfresh.estimates.symm, ?_, ?_⟩
      · rw [accounts_reservations, hfresh.reservations]
        exact .nil
      · rw [accounts_reservations, hfresh.reservations]
        exact fun _ hin => absurd hin List.not_mem_nil

/-! ## Reconciling -/

/-- What reconciling a reservation writes down. -/
def reconciledEntry (clk : String → Clock) (reservation : ReservationState) : Entry where
  time := (clk reservation.id).stamp
  entityID := reservation.id
  event := .reconciled
    { principal := reservation.principal, reason := "process_restart",
      recordedAt := (clk reservation.id).now }

/-- A manager whose open reservations `l` were reconciled. -/
structure Reconciled (clk : String → Clock) (l : List ReservationState) (m m' : Manager) :
    Prop where
  windows : m'.windows = l.foldl Windows.releaseReservation m.windows
  estimates : m'.estimates = m.estimates
  reservations : m'.reservations = m.reservations
  durable : m'.Durable
  entries : m'.entries = m.entries ++ l.map (reconciledEntry clk)

theorem reconcile_durable {m : Manager} (clk : String → Clock) (hd : m.Durable)
    (reservation : ReservationState) :
    ∃ m', m.reconcile clk reservation = .ok m' ∧ Reconciled clk [reservation] m m' := by
  obtain ⟨hok, hd', he⟩ := append_durable hd (clk reservation.id) reservation.id
    (reconciledEntry clk reservation).event
  obtain ⟨-, ha⟩ := append_rest m (clk reservation.id) reservation.id
    (reconciledEntry clk reservation).event
  unfold reconcile
  dsimp only
  generalize happ : m.append (clk reservation.id) reservation.id (.reconciled
    { principal := reservation.principal, reason := "process_restart",
      recordedAt := (clk reservation.id).now }) = appended
  rw [show m.append (clk reservation.id) reservation.id (reconciledEntry clk reservation).event =
    appended from happ] at hok hd' he ha
  rw [if_neg (by simp [hok])]
  refine ⟨_, rfl, ?_, congrArg Accounts.estimates ha, congrArg Accounts.reservations ha, hd', he⟩
  exact congrArg (fun a : Accounts => a.windows.releaseReservation reservation) ha

/-- Where writes succeed every open reservation is reconciled. -/
theorem reconcile_all (clk : String → Clock) (l : List ReservationState) {m : Manager}
    (hd : m.Durable) :
    ∃ m', l.foldlM (reconcile clk) m = .ok m' ∧ Reconciled clk l m m' := by
  induction l generalizing m with
  | nil => exact ⟨m, rfl, rfl, rfl, rfl, hd, (List.append_nil _).symm⟩
  | cons reservation l ih =>
      obtain ⟨m₁, h₁, hrec₁⟩ := reconcile_durable clk hd reservation
      obtain ⟨m', h', hrec⟩ := ih hrec₁.durable
      refine ⟨m', ?_, ?_, hrec.estimates.trans hrec₁.estimates,
        hrec.reservations.trans hrec₁.reservations, hrec.durable, ?_⟩
      · rw [List.foldlM_cons, h₁]
        exact h'
      · rw [hrec.windows, hrec₁.windows]
        rfl
      · rw [hrec.entries, hrec₁.entries, List.append_assoc]
        rfl

/-- Replaying the reconciled entries closes what was open. -/
theorem replay_reconciled (clk : String → Clock) (l : List ReservationState) {r : Replay}
    (hactive : r.active.items = l) :
    ∃ r', r.entries (l.map (reconciledEntry clk)) = .ok r' ∧
      r'.windows = l.foldl Windows.releaseReservation r.windows ∧
      r'.estimates = r.estimates ∧ r'.active = ∅ := by
  induction l generalizing r with
  | nil => exact ⟨r, rfl, rfl, rfl, Table.ext hactive⟩
  | cons reservation l ih =>
      have hget : r.active.get? reservation.id = some reservation :=
        Table.get?_of_mem (by rw [hactive]; simp)
      have herase : (r.closed reservation.id).active.items = l :=
        Table.items_erase_of_split (show r.active.items = [] ++ reservation :: l from hactive)
      obtain ⟨r', hr', hwindows, hestimates, hnone⟩ := ih herase
      refine ⟨r', ?_, ?_, hestimates, hnone⟩
      · rw [List.map_cons]
        exact hr'
      · rw [hwindows, List.foldl_cons]
        simp only [Replay.closed, hget]

end Manager

/-! ## What a restart leaves -/

/-- The usage a state has counted, with nothing reserved. -/
def UsageState.unreserved (state : UsageState) : UsageState :=
  { state with reservedTokens := 0, reservedCostMicros := 0 }

/-- A state with nothing outstanding reserves nothing. -/
theorem UsageState.Reflects.eq_unreserved {s : UsageState} (h : s.Reflects 0) (hn : s.Nonneg) :
    s = s.unreserved := by
  have ht : s.reservedTokens = 0 := eq_zero_iff.2 (Int.le_antisymm h.tokens hn.reservedTokens)
  have hc : s.reservedCostMicros = 0 :=
    eq_zero_iff.2 (Int.le_antisymm h.costMicros hn.reservedCostMicros)
  cases s
  cases ht
  cases hc
  rfl

/-- Releasing gives back amounts and nothing else. -/
theorem respectsRelease_unreserved :
    RespectsRelease fun s s' => s'.unreserved = s.unreserved :=
  ⟨fun _ => rfl, fun h h' => h'.trans h, fun _ _ _ => rfl⟩

/-- Releasing reservations one after the other takes their loads off. -/
theorem reflects_releaseAll {key : String} {u : Int} (hkey : Canonical key)
    {l : List ReservationState} (hl : ∀ reservation ∈ l, reservation.WellFormed) {w : Windows}
    (hn : ∀ slot window, (w slot window).Nonneg)
    (h : (w.get key u).Reflects (l.map (ReservationState.loadAt key u)).sum) :
    ((l.foldl Windows.releaseReservation w).get key u).Reflects 0 ∧
      ((l.foldl Windows.releaseReservation w).get key u).Nonneg := by
  induction l generalizing w with
  | nil => exact ⟨h, hn _ _⟩
  | cons reservation l ih =>
      have hrest : 0 ≤ (l.map (ReservationState.loadAt key u)).sum := by
        refine List.sum_nonneg fun x hx => ?_
        obtain ⟨r, hr, rfl⟩ := List.mem_map.1 hx
        exact (hl r (List.mem_cons_of_mem _ hr)).loadAt_nonneg key u
      rw [List.map_cons, List.sum_cons, add_comm] at h
      have hoff := reflects_releaseReservation hkey hrest (hl reservation (by simp)).attempts hn h
      have hn' : ∀ slot window, (w.releaseReservation reservation slot window).Nonneg :=
        fun slot window => (windowsAfter_released_rel respects_grows.toRespectsRelease w reservation
          slot window (hn slot window)).1
      exact ih (fun r hr => hl r (List.mem_cons_of_mem _ hr)) hn' hoff

/-- With every reservation released, a key keeps the usage it has counted and
reserves nothing. -/
theorem Accounts.Sound.get_releaseAll {a : Accounts} (h : a.Sound) {key : String}
    (hkey : Canonical key) (u : Int) :
    (a.reservations.items.foldl Windows.releaseReservation a.windows).get key u =
      (a.windows.get key u).unreserved := by
  obtain ⟨hreflects, hn⟩ := reflects_releaseAll hkey h.wellFormed h.nonneg (h.reflects hkey u)
  have hkept := Windows.Rel.foldl (R := fun s s' => s'.unreserved = s.unreserved)
    respectsRelease_unreserved.refl respectsRelease_unreserved.trans
    (fun w reservation (_ : reservation ∈ a.reservations.items) =>
      windowsAfter_released_rel respectsRelease_unreserved w reservation)
    a.windows (slotOf key) (truncateMinute u)
  exact (hreflects.eq_unreserved hn).trans hkept

namespace Manager

/-- What a restart makes of a manager: its usage and its estimates, with
nothing reserved and nothing open. -/
structure RestartOf (live restarted : Manager) : Prop where
  usage : ∀ (scope : Scope) (value : String) (window : Int),
    restarted.windows.get (scope.key value) window =
      (live.windows.get (scope.key value) window).unreserved
  estimates : restarted.estimates = live.estimates
  reservations : restarted.reservations = ∅

/-- Releasing what replay has open is releasing what is open. -/
theorem foldl_release_eq {r : Replay} {a : Accounts} (h : r.Mirrors a) (hwf : a.WellFormed)
    (w : Windows) : r.active.items.foldl Windows.releaseReservation w =
      a.reservations.items.foldl Windows.releaseReservation w := by
  have hall := h.active
  unfold Table.Rel at hall
  unfold Accounts.WellFormed at hwf
  generalize r.active.items = l at hall
  generalize a.reservations.items = l' at hall hwf
  induction hall generalizing w with
  | nil => rfl
  | @cons reservation reservation' l l' hmirrors _ ih =>
      rw [List.foldl_cons, List.foldl_cons, hmirrors.release_eq (hwf reservation' (by simp))]
      exact ih _ fun r hr => hwf r (List.mem_cons_of_mem _ hr)

/-- The ledger of a run replays to the usage of the manager that wrote it, and
what is left open is reconciled; restarting once more changes nothing. -/
theorem restart_refines_live (m : Manager) (hfresh : m.Fresh) (hd : m.Durable) (ops : List Op)
    (ledger : Ledger) (hledger : (m.run ops).ledger = some ledger) (cfg : GovernanceConfig)
    (clk : String → Clock) :
    ∃ restarted, newPersistent cfg ledger clk = .ok restarted ∧
      RestartOf (m.run ops) restarted ∧
      ∀ (ledger' : Ledger) (cfg' : GovernanceConfig) (clk' : String → Clock),
        restarted.ledger = some ledger' →
        ∃ again, newPersistent cfg' ledger' clk' = .ok again ∧
          again.windows = restarted.windows ∧ again.estimates = restarted.estimates ∧
          again.reservations = ∅ ∧ again.ledger = some ledger' := by
  obtain ⟨⟨r, hr, hmirrors⟩, hdurable⟩ := run_mirrored hfresh hd ops
  have hsound := run_sound hfresh ops
  have hentries : (m.run ops).entries = ledger.entries := by
    unfold entries
    rw [hledger]
  rw [hentries] at hr
  have hd' : (replayed cfg ledger r).Durable := by
    obtain ⟨l, hl, hs, hf⟩ := hdurable
    rw [hledger] at hl
    cases hl
    exact ⟨ledger, rfl, hs, hf⟩
  obtain ⟨restarted, hok, hrec⟩ := reconcile_all clk r.active.items hd'
  refine ⟨restarted, ?_, ⟨?_, hrec.estimates.trans hmirrors.estimates, hrec.reservations⟩, ?_⟩
  · unfold newPersistent
    rw [hr]
    exact hok
  · intro scope value window
    have hwindows : restarted.windows = (m.run ops).reservations.items.foldl
        Windows.releaseReservation (m.run ops).windows := by
      rw [hrec.windows]
      show r.active.items.foldl Windows.releaseReservation r.windows = _
      rw [foldl_release_eq hmirrors hsound.wellFormed, hmirrors.windows]
      rfl
    rw [hwindows]
    exact hsound.get_releaseAll ⟨scope, value, rfl⟩ window
  · intro ledger' cfg' clk' hledger'
    have hentries' : ledger'.entries =
        ledger.entries ++ r.active.items.map (reconciledEntry clk) := by
      have := hrec.entries
      simp only [entries, hledger', replayed] at this
      exact this
    obtain ⟨r', hr', hwindows, hestimates, hnone⟩ := replay_reconciled clk r.active.items rfl
    have hreplay : Replay.entries {} ledger'.entries = .ok r' := by
      rw [hentries', Replay.entries_append, hr]
      exact hr'
    refine ⟨replayed cfg' ledger' r', ?_, ?_, ?_, rfl, rfl⟩
    · unfold newPersistent
      rw [hreplay]
      show r'.active.items.foldlM _ _ = _
      rw [hnone]
      rfl
    · exact hwindows.trans hrec.windows.symm
    · exact hestimates.trans hrec.estimates.symm

/-- Five tokens a minute, and a ledger. -/
def ledgered : Manager where
  config := { mode := .enforce, tokenLimit := 5, token_nonneg := five_nonneg }
  ledger := some {}

/-- One client settles two tokens, another is still open. -/
def settledAndOpen : List Op :=
  let clk : Clock := { now := minute, stamp := 0 }
  [⟨clk, .admitWithContext false "a" { principal := "alice" }⟩,
   ⟨clk, .record "a" "attempt-1" { totalTokens := 2, known := true }⟩,
   ⟨clk, .admitWithContext false "b" { principal := "alice" }⟩]

theorem restart_of_settledAndOpen :
    ∃ restarted, newPersistent ledgered.config ((ledgered.run settledAndOpen).ledger.getD {})
        (fun _ => { now := 2 * minute, stamp := 0 }) = .ok restarted ∧
      restarted.windows.get (Scope.principal.key "alice") minute =
        { requests := 2, tokens := 2 } := by
  obtain ⟨restarted, hok, hrestart, -⟩ := restart_refines_live ledgered ⟨rfl, rfl, rfl, rfl⟩
    ⟨_, rfl, rfl, rfl⟩ settledAndOpen ((ledgered.run settledAndOpen).ledger.getD {}) (by rfl)
    ledgered.config fun _ => { now := 2 * minute, stamp := 0 }
  exact ⟨restarted, hok, (hrestart.usage .principal "alice" minute).trans (by decide +kernel)⟩

end Manager

end RelayLifeline.Governance
