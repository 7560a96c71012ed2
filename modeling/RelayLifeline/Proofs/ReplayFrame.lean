import RelayLifeline.Proofs.Replay

/-!
# Replay, one entity at a time

An entry is replayed from what replay holds of its own entity, and changes
that and the windows. What it does to a window depends on the window alone,
and it leaves alone every window that begins after the attempts of its entity.
So entries of one entity can be left out of a ledger without the others
noticing, except in windows the entity itself was charged in.
-/

namespace RelayLifeline.Governance

open Lib

/-! ## What a change of the windows depends on -/

namespace Windows

/-- What becomes of a window depends on that window alone. -/
def Local (f : Windows → Windows) : Prop :=
  ∀ (w w' : Windows) slot window, w slot window = w' slot window → f w slot window = f w' slot window

/-- Windows that begin at `since` or later stay as they are. -/
def Keeps (since : Int) (f : Windows → Windows) : Prop :=
  ∀ (w : Windows) slot window, since ≤ window → f w slot window = w slot window

theorem local_id : Local id := fun _ _ _ _ h => h

theorem keeps_id (since : Int) : Keeps since id := fun _ _ _ _ => rfl

variable {f g : Windows → Windows} {since : Int}

theorem Local.comp (hg : Local g) (hf : Local f) : Local (g ∘ f) :=
  fun w w' slot window h => hg _ _ slot window (hf w w' slot window h)

theorem Keeps.comp (hg : Keeps since g) (hf : Keeps since f) : Keeps since (g ∘ f) :=
  fun w slot window h => (hg (f w) slot window h).trans (hf w slot window h)

theorem local_modifySlot (slot : Slot) (window : Int) (change : UsageState → UsageState) :
    Local fun w => w.modifySlot slot window change := by
  intro w w' slot' window' h
  simp only [modifySlot]
  rw [h]

theorem keeps_modifySlot (slot : Slot) {window : Int} (change : UsageState → UsageState)
    (h : window < since) : Keeps since fun w => w.modifySlot slot window change := by
  intro w slot' window' hle
  have := truncateMinute_le window
  exact if_neg fun hand => by omega

theorem local_foldl {α : Type*} {step : Windows → α → Windows} {l : List α}
    (h : ∀ a ∈ l, Local fun w => step w a) : Local fun w => l.foldl step w := by
  induction l with
  | nil => exact local_id
  | cons a l ih =>
      exact Local.comp (ih fun b hb => h b (List.mem_cons_of_mem _ hb)) (h a (by simp))

theorem keeps_foldl {α : Type*} {step : Windows → α → Windows} {l : List α}
    (h : ∀ a ∈ l, Keeps since fun w => step w a) : Keeps since fun w => l.foldl step w := by
  induction l with
  | nil => exact keeps_id since
  | cons a l ih =>
      exact Keeps.comp (ih fun b hb => h b (List.mem_cons_of_mem _ hb)) (h a (by simp))

theorem local_charge (keys : List String) (window : Int) (change : UsageState → UsageState) :
    Local fun w => w.charge keys window change :=
  local_foldl fun key _ => local_modifySlot (slotOf key) window change

theorem keeps_charge (keys : List String) {window : Int} (change : UsageState → UsageState)
    (h : window < since) : Keeps since fun w => w.charge keys window change :=
  keeps_foldl fun key _ => keeps_modifySlot (slotOf key) change h

theorem local_applyAttemptReservation (attempt : AttemptState) :
    Local fun w => w.applyAttemptReservation attempt := by
  unfold applyAttemptReservation
  split
  · exact local_id
  · exact local_charge _ _ _

theorem keeps_applyAttemptReservation (attempt : AttemptState) (h : attempt.windowStarted < since) :
    Keeps since fun w => w.applyAttemptReservation attempt := by
  unfold applyAttemptReservation
  split
  · exact keeps_id since
  · exact keeps_charge _ _ h

theorem local_releaseAttempt (attempt : AttemptState) :
    Local fun w => w.releaseAttempt attempt := by
  unfold releaseAttempt
  split
  · exact local_id
  · split
    · exact local_charge _ _ _
    · exact local_id

theorem keeps_releaseAttempt {attempt : AttemptState} (h : attempt.windowStarted < since) :
    Keeps since fun w => w.releaseAttempt attempt := by
  unfold releaseAttempt
  split
  · exact keeps_id since
  · split
    · exact keeps_charge _ _ h
    · exact keeps_id since

theorem local_recordUsage (keys : List String) (window : Int) (event : UsageRecordedEvent) :
    Local fun w => w.recordUsage keys window event :=
  Local.comp (local_charge _ _ _) (local_modifySlot _ _ _)

theorem keeps_recordUsage (keys : List String) {window : Int} (event : UsageRecordedEvent)
    (h : window < since) : Keeps since fun w => w.recordUsage keys window event :=
  Keeps.comp (keeps_charge _ _ h) (keeps_modifySlot _ _ h)

theorem local_releaseReservation (reservation : ReservationState) :
    Local fun w => w.releaseReservation reservation :=
  local_foldl fun attempt _ => local_releaseAttempt attempt

end Windows

/-- Every attempt of a reservation began before `since`. -/
def ReservationState.Before (since : Int) (reservation : ReservationState) : Prop :=
  ∀ attempt ∈ reservation.attempts.items, attempt.windowStarted < since

theorem Windows.keeps_releaseReservation {since : Int} {reservation : ReservationState}
    (h : reservation.Before since) : Keeps since fun w => w.releaseReservation reservation :=
  keeps_foldl fun attempt hin => keeps_releaseAttempt (h attempt hin)

/-! ## Moving attempts

A binding walks over a reservation's attempts with the windows beside it. What
it leaves of the reservation does not depend on the windows.
-/

/-- A walk that changes the two parts of a pair, each by itself. -/
theorem foldl_pair {α σ τ : Type*} {step : σ × τ → α → σ × τ} {left : σ → α → σ}
    {right : τ → α → τ} (hstep : ∀ acc a, step acc a = (left acc.1 a, right acc.2 a))
    (l : List α) (x : σ) (y : τ) :
    l.foldl step (x, y) = (l.foldl left x, l.foldl right y) := by
  induction l generalizing x y with
  | nil => rfl
  | cons a l ih => rw [List.foldl_cons, hstep, ih]; rfl

namespace Windows

/-- The windows' part of moving an attempt. -/
def moveAttempt (move : AttemptState → AttemptState) (w : Windows) (attempt : AttemptState) :
    Windows :=
  if attempt.outstanding then
    (w.unapplyAttemptReservation attempt).applyAttemptReservation (move attempt)
  else w

theorem local_moveAttempt (move : AttemptState → AttemptState) (attempt : AttemptState) :
    Local fun w => w.moveAttempt move attempt := by
  unfold moveAttempt
  split
  · exact Local.comp (local_applyAttemptReservation _) (local_charge _ _ _)
  · exact local_id

theorem keeps_moveAttempt {since : Int} {move : AttemptState → AttemptState}
    {attempt : AttemptState} (hmove : (move attempt).windowStarted = attempt.windowStarted)
    (h : attempt.windowStarted < since) : Keeps since fun w => w.moveAttempt move attempt := by
  unfold moveAttempt
  split
  · exact Keeps.comp (keeps_applyAttemptReservation _ (hmove ▸ h)) (keeps_charge _ _ h)
  · exact keeps_id since

end Windows

/-- What a walk over its attempts leaves of a reservation, if it moves each to
other keys. -/
theorem ReservationState.Before.foldl {since : Int} {l : List AttemptState}
    (step : ReservationState → AttemptState → ReservationState)
    (hstep : ∀ reservation attempt, attempt.windowStarted < since → reservation.Before since →
      (step reservation attempt).Before since)
    (hl : ∀ attempt ∈ l, attempt.windowStarted < since) {reservation : ReservationState}
    (h : reservation.Before since) : (l.foldl step reservation).Before since :=
  List.foldlRecOn (motive := fun reservation : ReservationState => reservation.Before since)
    l step h fun reservation hr attempt hin => hstep reservation attempt (hl attempt hin) hr

theorem ReservationState.Before.set {since : Int} {reservation after : ReservationState}
    (h : reservation.Before since) (attempt : AttemptState) (ha : attempt.windowStarted < since)
    (hafter : after.attempts = reservation.attempts.set attempt) : after.Before since := by
  intro other hin
  rw [hafter] at hin
  rcases Table.mem_set.1 hin with rfl | ⟨hin, -⟩
  · exact ha
  · exact h other hin

/-- What a binding does to the windows, by its attempts, and what it leaves of
the reservation. -/
theorem rebindReservation_walk (reservation : ReservationState) (newKeys : List String)
    (amounts : List AttemptReservationEvent) :
    ∃ after : ReservationState, (∀ w, rebindReservation w reservation newKeys amounts =
        (reservation.attempts.items.foldl
          (Windows.moveAttempt fun attempt => attempt.rebind newKeys amounts) w, after)) ∧
      after.id = reservation.id ∧
      ∀ since, reservation.Before since → after.Before since := by
  let right := fun (reservation : ReservationState) attempt =>
    (rebindAttempt newKeys amounts (Windows.empty, reservation) attempt).2
  have hwalk : ∀ w, reservation.attempts.items.foldl (rebindAttempt newKeys amounts)
      (w, reservation) = (reservation.attempts.items.foldl
        (Windows.moveAttempt fun attempt => attempt.rebind newKeys amounts) w,
        reservation.attempts.items.foldl right reservation) := by
    refine fun w => foldl_pair (fun acc attempt => ?_) reservation.attempts.items w reservation
    simp only [right, rebindAttempt, Windows.moveAttempt]
    split <;> rfl
  let walked := reservation.attempts.items.foldl right reservation
  refine ⟨{ walked with reservationReleased := walked.allAttemptsReleased }, fun w => ?_, ?_,
    fun since h => ?_⟩
  · unfold rebindReservation
    rw [hwalk]
  · have hid := (rebindReservation_rest Windows.empty reservation newKeys amounts).1
    unfold rebindReservation at hid
    rw [hwalk] at hid
    exact hid
  · refine ReservationState.Before.foldl right (fun reservation attempt ha hr => ?_) h h
    simp only [right, rebindAttempt]
    split
    · exact hr.set (attempt.rebind newKeys amounts) ha rfl
    · exact hr

theorem moveReservationKeys_walk (reservation : ReservationState) (newKeys : List String) :
    ∃ after : ReservationState, (∀ w, moveReservationKeys w reservation newKeys =
        (reservation.attempts.items.foldl
          (Windows.moveAttempt fun attempt => { attempt with budgetKeys := newKeys }) w, after)) ∧
      after.id = reservation.id ∧
      ∀ since, reservation.Before since → after.Before since := by
  let right := fun (reservation : ReservationState) attempt =>
    (moveAttempt newKeys (Windows.empty, reservation) attempt).2
  refine ⟨reservation.attempts.items.foldl right reservation, fun w => ?_, ?_, fun since h => ?_⟩
  · refine foldl_pair (fun acc attempt => ?_) reservation.attempts.items w reservation
    simp only [right, moveAttempt, Windows.moveAttempt]
    split <;> rfl
  · refine List.foldlRecOn (motive := fun after : ReservationState => after.id = reservation.id)
      reservation.attempts.items right rfl fun after hid attempt _ => ?_
    simp only [right, moveAttempt]
    split <;> exact hid
  · refine ReservationState.Before.foldl right (fun reservation attempt ha hr => ?_) h h
    simp only [right, moveAttempt]
    split
    · exact hr.set { attempt with budgetKeys := newKeys } ha rfl
    · exact hr

/-! ## What an entry does -/

/-- What replay holds of one entity. -/
def Replay.part (r : Replay) (id : String) : Option ReservationState × List String :=
  (r.active.get? id, r.seen id)

/-- Every attempt in a part began before `since`. -/
def PartBefore (since : Int) (part : Option ReservationState × List String) : Prop :=
  ∀ reservation, part.1 = some reservation → reservation.Before since

/-- The windows an event names began before `since`. -/
def LedgerEvent.Before (since : Int) : LedgerEvent → Prop
  | .reserved event => event.windowStarted < since
  | .attemptReserved event => event.windowStarted < since
  | .usageRecorded event => event.windowStarted < since
  | _ => True

namespace Replay

/-- From `r` to `r'` the windows changed by `f`, and of the entities only one. -/
structure Writes (id : String) (f : Windows → Windows)
    (part : Option ReservationState × List String) (r r' : Replay) : Prop where
  windows : r'.windows = f r.windows
  own : r'.part id = part
  others : ∀ other, other ≠ id → r'.part other = r.part other

/-- What an entry does wherever replay holds `part` of its entity. -/
structure Acts (e : Entry) (part : Option ReservationState × List String)
    (f : Windows → Windows) (part' : Option ReservationState × List String) : Prop where
  isLocal : Windows.Local f
  replays : ∀ r, r.part e.entityID = part →
    ∃ r', r.entry e = .ok r' ∧ Writes e.entityID f part' r r'
  before : ∀ since, e.event.Before since → PartBefore since part →
    Windows.Keeps since f ∧ PartBefore since part'

variable {r r₁ : Replay} {e : Entry}

theorem writes_set {reservation : ReservationState} {id : String} {f : Windows → Windows}
    {seen : List String} (hid : reservation.id = id) (hw : r₁.windows = f r.windows)
    (hactive : r₁.active = r.active.set reservation)
    (hseen : r₁.seen = Function.update r.seen id seen) :
    Writes id f (some reservation, seen) r r₁ := by
  subst hid
  refine ⟨hw, ?_, fun other hne => ?_⟩
  · unfold part
    rw [hactive, hseen, Function.update_self]
    exact congrArg (·, seen) (Table.get?_set_self (a := reservation))
  · unfold part
    rw [hactive, hseen, Function.update_of_ne hne, Table.get?_set_of_ne hne]

/-- The same where what was seen of the entity's settlements stays. -/
theorem writes_active {reservation : ReservationState} {id : String} {f : Windows → Windows}
    {seen : List String} (hid : reservation.id = id) (hw : r₁.windows = f r.windows)
    (hactive : r₁.active = r.active.set reservation) (hseen : r₁.seen = r.seen)
    (hown : r.seen id = seen) : Writes id f (some reservation, seen) r r₁ :=
  writes_set hid hw hactive (by rw [hseen, ← hown, Function.update_eq_self])

theorem writes_closed (r : Replay) (id : String) {f : Windows → Windows}
    (hw : (r.closed id).windows = f r.windows) : Writes id f (none, []) r (r.closed id) := by
  refine ⟨hw, ?_, fun other hne => ?_⟩
  · unfold part closed
    dsimp only
    rw [Function.update_self, Table.get?_erase_self]
  · unfold part closed
    dsimp only
    rw [Function.update_of_ne hne, Table.get?_erase_of_ne hne]

/-- Two replays that hold the same of an entity have the same of it active. -/
theorem get?_of_part {reservation : Option ReservationState} {id : String}
    (h : r.active.get? id = reservation) (hp : r₁.part id = r.part id) :
    r₁.active.get? id = reservation :=
  (congrArg Prod.fst hp).trans h

theorem seen_of_part {id : String} (hp : r₁.part id = r.part id) : r₁.seen id = r.seen id :=
  congrArg Prod.snd hp

/-- Where an entry leaves replay as it is. -/
theorem acts_idle {p : Option ReservationState × List String}
    (h : ∀ r : Replay, r.part e.entityID = p → r.entry e = .ok r) : Acts e p id p where
  isLocal := Windows.local_id
  replays r hr := ⟨r, h r hr, rfl, hr, fun _ _ => rfl⟩
  before since _ hp := ⟨Windows.keeps_id since, hp⟩

theorem acts_reserved {event : ReservedEvent} (he : e.event = .reserved event)
    (h : r.entry e = .ok r₁) : ∃ f part', ∀ p, Acts e p f part' := by
  unfold entry reserved at h
  rw [he] at h
  dsimp only at h
  split at h
  · cases h
  · next hvalid =>
      let attempt : AttemptState :=
        { id := attemptIDOr event.attemptID, windowStarted := event.windowStarted,
          reservedTokens := event.reservedTokens, reservedCostMicros := event.reservedCostMicros,
          budgetKeys := reservedKeys event }
      let reservation : ReservationState :=
        { id := e.entityID, principal := event.principal, tenant := event.tenant,
          upstream := event.upstream, model := event.model, requestID := event.requestID,
          startedAt := event.startedAt, windowStarted := event.windowStarted,
          reservedTokens := event.reservedTokens,
          reservedCostMicros := event.reservedCostMicros, budgetKeys := reservedKeys event,
          attempts := Table.set ∅ attempt }
      refine ⟨fun w => w.applyAttemptReservation attempt, (some reservation, []), fun p =>
        ⟨Windows.local_applyAttemptReservation attempt, fun r' _ => ?_, fun since hbefore _ => ?_⟩⟩
      · unfold entry reserved
        rw [he]
        dsimp only
        rw [if_neg hvalid]
        exact ⟨_, rfl, writes_set rfl rfl rfl rfl⟩
      · rw [he] at hbefore
        refine ⟨Windows.keeps_applyAttemptReservation attempt hbefore, ?_⟩
        rintro _ ⟨⟩ other hin
        rcases Table.mem_set.1 hin with rfl | ⟨hin, -⟩
        · exact hbefore
        · cases hin

theorem acts_attemptReserved {event : AttemptReservedEvent}
    (he : e.event = .attemptReserved event) (h : r.entry e = .ok r₁) :
    ∃ f part', Acts e (r.part e.entityID) f part' := by
  unfold entry attemptReserved at h
  rw [he] at h
  dsimp only at h
  split at h
  · cases h
  · next reservation hget =>
      have hid : reservation.id = e.entityID := Table.key_of_get? hget
      split at h
      · cases h
      · next hvalid =>
          split at h
          · next hknown =>
              refine ⟨id, _, acts_idle fun r' hr' => ?_⟩
              unfold entry attemptReserved
              rw [he]
              dsimp only
              rw [get?_of_part hget hr']
              dsimp only
              rw [if_neg hvalid, if_pos hknown]
          · next hnew =>
              let attempt : AttemptState :=
                { id := event.attemptID, windowStarted := event.windowStarted,
                  reservedTokens := event.reservedTokens,
                  reservedCostMicros := event.reservedCostMicros,
                  budgetKeys := normalizeBudgetKeys event.budgetKeys reservation.principal }
              let after : ReservationState :=
                { reservation with
                  attempts := reservation.attempts.set attempt
                  reservedTokens :=
                    safeAdd64 reservation.reservedTokens (max64 event.reservedTokens 0)
                  reservedCostMicros :=
                    safeAdd64 reservation.reservedCostMicros (max64 event.reservedCostMicros 0) }
              refine ⟨fun w => w.applyAttemptReservation attempt,
                (some after, r.seen e.entityID),
                Windows.local_applyAttemptReservation attempt, fun r' hr' => ?_,
                fun since hbefore hp => ?_⟩
              · unfold entry attemptReserved
                rw [he]
                dsimp only
                rw [get?_of_part hget hr']
                dsimp only
                rw [if_neg hvalid, if_neg hnew]
                exact ⟨_, rfl, writes_active hid rfl rfl rfl (seen_of_part hr')⟩
              · rw [he] at hbefore
                refine ⟨Windows.keeps_applyAttemptReservation attempt hbefore, ?_⟩
                rintro _ ⟨⟩
                exact (hp reservation hget).set attempt hbefore rfl

theorem acts_bound {event : BoundEvent} (he : e.event = .bound event) (h : r.entry e = .ok r₁) :
    ∃ f part', Acts e (r.part e.entityID) f part' := by
  unfold entry bound at h
  rw [he] at h
  dsimp only at h
  split at h
  · cases h
  · next reservation hget =>
      have hid : reservation.id = e.entityID := Table.key_of_get? hget
      split at h
      · cases h
      · next hnamed =>
          let keys := normalizeBudgetKeys event.budgetKeys reservation.principal
          obtain ⟨move, after, hwalk, hmove, hsame, hbefore⟩ :
              ∃ (move : AttemptState → AttemptState) (after : ReservationState),
                (∀ w, (if event.attemptReservations ≠ [] then
                    rebindReservation w reservation keys event.attemptReservations
                  else moveReservationKeys w reservation keys) =
                    (reservation.attempts.items.foldl (Windows.moveAttempt move) w, after)) ∧
                (∀ attempt, (move attempt).windowStarted = attempt.windowStarted) ∧
                after.id = reservation.id ∧
                ∀ since, reservation.Before since → after.Before since := by
            split
            · obtain ⟨after, hwalk, hrest⟩ :=
                rebindReservation_walk reservation keys event.attemptReservations
              exact ⟨_, after, hwalk, fun _ => rfl, hrest⟩
            · obtain ⟨after, hwalk, hrest⟩ := moveReservationKeys_walk reservation keys
              exact ⟨_, after, hwalk, fun _ => rfl, hrest⟩
          let final := ({ after with upstream := event.upstream, budgetKeys := keys } :
            ReservationState).chargeAll keys
          refine ⟨fun w => reservation.attempts.items.foldl (Windows.moveAttempt move) w,
            (some final, r.seen e.entityID),
            Windows.local_foldl fun attempt _ => Windows.local_moveAttempt move attempt,
            fun r' hr' => ?_, fun since _ hp => ⟨?_, ?_⟩⟩
          · unfold entry bound
            rw [he]
            dsimp only
            rw [get?_of_part hget hr']
            dsimp only
            rw [if_neg hnamed, hwalk]
            exact ⟨_, rfl, writes_active (by exact hsame.trans hid) rfl rfl rfl (seen_of_part hr')⟩
          · exact Windows.keeps_foldl fun attempt hin =>
              Windows.keeps_moveAttempt (hmove attempt) (hp reservation hget attempt hin)
          · rintro _ ⟨⟩ attempt hin
            rw [ReservationState.chargeAll_items] at hin
            obtain ⟨moved, hmoved, rfl⟩ := List.mem_map.1 hin
            exact hbefore since (hp reservation hget) moved hmoved

/-- A settlement of an attempt, once replay has found it. -/
theorem acts_settle {reservation : ReservationState} {attempt : AttemptState}
    {event : UsageRecordedEvent} (hget : r.active.get? e.entityID = some reservation)
    (hin : attempt ∈ reservation.attempts.items) (he : e.event = .usageRecorded event)
    (hfound : ∀ r' : Replay, r'.part e.entityID = r.part e.entityID →
      r'.entry e = .ok (r'.settle reservation attempt event)) :
    ∃ f part', Acts e (r.part e.entityID) f part' := by
  have hid : reservation.id = e.entityID := Table.key_of_get? hget
  obtain ⟨hsame, -⟩ := releaseAttempt_rest reservation attempt
  let window := if event.windowStarted = 0 then attempt.windowStarted else event.windowStarted
  let closed : AttemptState := { attempt with reservationReleased := true, settled := true }
  let released := reservation.releaseAttempt attempt
  let after : ReservationState :=
    { released with
      settlements := reservation.settlements ++ [(event.settlementID, event.costMicros)]
      attempts := released.attempts.set closed }
  refine ⟨fun w => (w.releaseAttempt attempt).recordUsage attempt.budgetKeys window event,
    (some after, event.settlementID :: r.seen e.entityID),
    Windows.Local.comp (Windows.local_recordUsage _ _ _) (Windows.local_releaseAttempt _),
    fun r' hr' => ⟨_, hfound r' hr', writes_set (hsame.trans hid) rfl rfl ?_⟩,
    fun since hbefore hp => ⟨?_, ?_⟩⟩
  · rw [← seen_of_part hr', ← hid]
    rfl
  · rw [he] at hbefore
    have hstarted := hp reservation hget attempt hin
    have hwindow : window < since := by
      simp only [window]
      split
      · exact hstarted
      · exact hbefore
    exact Windows.Keeps.comp (Windows.keeps_recordUsage _ _ hwindow)
      (Windows.keeps_releaseAttempt hstarted)
  · rintro _ ⟨⟩
    have hstarted := hp reservation hget attempt hin
    have hreleased : released.Before since := by
      simp only [released, ReservationState.releaseAttempt]
      split
      · exact hp reservation hget
      · exact (hp reservation hget).set
          { attempt with reservationReleased := true } hstarted rfl
    exact hreleased.set closed hstarted rfl

theorem acts_usageRecorded {event : UsageRecordedEvent} (he : e.event = .usageRecorded event)
    (h : r.entry e = .ok r₁) : ∃ f part', Acts e (r.part e.entityID) f part' := by
  unfold entry usageRecorded at h
  rw [he] at h
  dsimp only at h
  split at h
  · cases h
  · next reservation hget =>
      split at h
      · cases h
      · next hvalid =>
          split at h
          · next hseen =>
              refine ⟨id, _, acts_idle fun r' hr' => ?_⟩
              unfold entry usageRecorded
              rw [he]
              dsimp only
              rw [get?_of_part hget hr', seen_of_part hr']
              dsimp only
              rw [if_neg hvalid, if_pos hseen]
          · next hseen =>
              split at h
              · next attempt hattempt =>
                  refine acts_settle hget (Table.mem_of_get? hattempt) he fun r' hr' => ?_
                  unfold entry usageRecorded
                  rw [he]
                  dsimp only
                  rw [get?_of_part hget hr', seen_of_part hr']
                  dsimp only
                  rw [if_neg hvalid, if_neg hseen, hattempt]
              · next hattempt =>
                  split at h
                  · next attempt hhead =>
                      have hin := (List.mem_filter.1 (List.mem_of_mem_head? hhead)).1
                      refine acts_settle hget hin he fun r' hr' => ?_
                      unfold entry usageRecorded
                      rw [he]
                      dsimp only
                      rw [get?_of_part hget hr', seen_of_part hr']
                      dsimp only
                      rw [if_neg hvalid, if_neg hseen, hattempt]
                      dsimp only
                      rw [hhead]
                  · cases h

theorem acts_closed (h : ∀ r : Replay, r.entry e = .ok (r.closed e.entityID)) (r : Replay) :
    ∃ f, Acts e (r.part e.entityID) f (none, []) := by
  cases hget : r.active.get? e.entityID with
  | none =>
      refine ⟨id, Windows.local_id, fun r' hr' => ⟨_, h r', writes_closed r' e.entityID ?_⟩,
        fun since _ _ => ⟨Windows.keeps_id since, fun _ hnone => nomatch hnone⟩⟩
      simp only [closed, get?_of_part hget hr']
      rfl
  | some reservation =>
      refine ⟨fun w => w.releaseReservation reservation,
        Windows.local_releaseReservation reservation,
        fun r' hr' => ⟨_, h r', writes_closed r' e.entityID ?_⟩,
        fun since _ hp => ⟨Windows.keeps_releaseReservation (hp reservation hget),
          fun _ hnone => nomatch hnone⟩⟩
      simp only [closed, get?_of_part hget hr']

/-- Every entry that replays acts on its own entity. -/
theorem acts_of_ok (h : r.entry e = .ok r₁) : ∃ f part', Acts e (r.part e.entityID) f part' := by
  cases he : e.event with
  | reserved event =>
      obtain ⟨f, part', hacts⟩ := acts_reserved he h
      exact ⟨f, part', hacts _⟩
  | attemptReserved event => exact acts_attemptReserved he h
  | bound event => exact acts_bound he h
  | usageRecorded event => exact acts_usageRecorded he h
  | heartbeat event =>
      refine ⟨id, _, acts_idle fun r' hr' => ?_⟩
      unfold entry heartbeat at h ⊢
      rw [he] at h ⊢
      dsimp only at h ⊢
      rw [get?_of_part rfl hr']
      split at h
      · cases h
      · next hvalid => rw [if_neg hvalid]
  | released event =>
      obtain ⟨f, hacts⟩ := acts_closed (e := e) (fun r => by unfold entry; rw [he]) r
      exact ⟨f, _, hacts⟩
  | reconciled event =>
      obtain ⟨f, hacts⟩ := acts_closed (e := e) (fun r => by unfold entry; rw [he]) r
      exact ⟨f, _, hacts⟩
  | malformed type =>
      unfold entry at h
      rw [he] at h
      cases h
  | other type =>
      unfold entry at h
      rw [he] at h
      cases h

/-- So an entry writes what its action says. -/
theorem Acts.writes {p part' : Option ReservationState × List String} {f : Windows → Windows}
    (ha : Acts e p f part') (hp : r.part e.entityID = p) (h : r.entry e = .ok r₁) :
    Writes e.entityID f part' r r₁ := by
  obtain ⟨r', hr', hwrites⟩ := ha.replays r hp
  rw [h] at hr'
  cases hr'
  exact hwrites

end Replay

end RelayLifeline.Governance
