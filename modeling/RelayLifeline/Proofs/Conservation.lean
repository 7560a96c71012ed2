import RelayLifeline.Governance.Actions
import RelayLifeline.Proofs.Outstanding

/-!
# What is reserved is what is outstanding

As long as no sum of reserved amounts runs past the top of a word, the
inequalities of `UsageState.Reflects` are equalities: a key reserves the
amounts of the attempts outstanding under it, and a reservation those of its
own outstanding attempts. A binding is what makes the assumption delicate. It
moves the attempts one at a time, so the sums it forms are of some attempts at
their new amounts and the rest at their old ones.
-/

namespace RelayLifeline.Governance

open Lib Lib.Word

/-! ## Amounts that are a load -/

/-- A load's amounts fit words. -/
def Fits (load : Load) : Prop := load.2.1 ≤ top ∧ load.2.2 ≤ top

instance (load : Load) : Decidable (Fits load) := inferInstanceAs (Decidable (_ ∧ _))

/-- Two words that hold a load's amounts. -/
structure Holds (tokens costMicros : Int64) (load : Load) : Prop where
  tokens : tokens.toInt = load.2.1
  costMicros : costMicros.toInt = load.2.2

section

variable {t c tokens cost : Int64} {load : Load}

theorem Holds.reserve (h : Holds t c load) (ht : 0 ≤ tokens.toInt) (hc : 0 ≤ cost.toInt)
    (hfits : Fits (load + loadOf tokens cost)) :
    Holds (safeAdd64 t tokens) (safeAdd64 c cost) (load + loadOf tokens cost) := by
  obtain ⟨hft, hfc⟩ := hfits
  simp only [loadOf, Prod.snd_add, Prod.fst_add] at hft hfc
  refine ⟨?_, ?_⟩
  · rw [toInt_safeAdd64 ht, h.tokens]
    simp only [loadOf, Prod.snd_add, Prod.fst_add]
    omega
  · rw [toInt_safeAdd64 hc, h.costMicros]
    simp only [loadOf, Prod.snd_add]
    omega

theorem Holds.release (h : Holds t c (load + loadOf tokens cost)) (hload : 0 ≤ load)
    (ht : 0 ≤ tokens.toInt) (hc : 0 ≤ cost.toInt) :
    Holds (max64 (t - tokens) 0) (max64 (c - cost) 0) load := by
  obtain ⟨-, hlt, hlc⟩ := hload
  have hzt : 0 ≤ load.2.1 := hlt
  have hzc : 0 ≤ load.2.2 := hlc
  have htokens := h.tokens
  have hcost := h.costMicros
  simp only [loadOf, Prod.snd_add, Prod.fst_add] at htokens hcost
  refine ⟨?_, ?_⟩
  · rw [toInt_max64_sub (by omega) ht]
    omega
  · rw [toInt_max64_sub (by omega) hc]
    omega

end

/-! ## A reservation's own amounts -/

namespace ReservationState

/-- The amounts of a reservation's outstanding attempts. -/
def load (reservation : ReservationState) : Load :=
  (reservation.outstandingAttempts.map AttemptState.load).sum

theorem load_eq_total (reservation : ReservationState) :
    reservation.load = reservation.attempts.total fun attempt =>
      if attempt.outstanding then attempt.load else 0 := by
  unfold load outstandingAttempts Table.total
  rw [List.sum_map_ite]
  simp

/-- An attempt that is not outstanding holds nothing anywhere. -/
theorem loadAt_eq_outstanding (reservation : ReservationState) (key : String) (window : Int) :
    reservation.loadAt key window =
      (reservation.outstandingAttempts.map (AttemptState.loadAt key window)).sum := by
  have hzero : ∀ attempt ∈ reservation.attempts.items, attempt.loadAt key window =
      if attempt.outstanding = true then attempt.loadAt key window else 0 := by
    intro attempt _
    split
    · rfl
    · next ho => exact if_neg fun h => ho h.1
  unfold loadAt outstandingAttempts Table.total
  rw [List.map_congr_left hzero, List.sum_map_ite]
  simp

theorem load_nonneg {reservation : ReservationState} (h : reservation.WellFormed) :
    0 ≤ reservation.load := by
  rw [load_eq_total]
  refine Table.total_nonneg fun attempt hin => ?_
  have hwf := h.attempts attempt hin
  split
  · exact ⟨Nat.zero_le _, hwf.tokens, hwf.cost⟩
  · exact le_refl _

end ReservationState

/-! ## The sums a call forms -/

/-- With `l` as one reservation's outstanding attempts and everything else as
it is, every sum of reserved amounts fits. -/
structure Accounts.FitsWith (a : Accounts) (id : String) (l : List AttemptState) : Prop where
  keys : ∀ key, Canonical key → ∀ window, Fits
    ((a.reservations.erase id).total (ReservationState.loadAt key window) +
      (l.map (AttemptState.loadAt key window)).sum)
  own : Fits (l.map AttemptState.load).sum

namespace Effect

/-- The lists a reservation's outstanding attempts pass through while a change
adds amounts: those there are and the new one; or those a binding has moved
already and those it has not. -/
def passes : Effect → List (List AttemptState)
  | .admitted _ attempt => [[attempt]]
  | .bound reservation _ newKeys amounts =>
      let l := reservation.outstandingAttempts
      (List.range (l.length + 1)).map fun n =>
        (l.take n).map (fun attempt => attempt.rebind newKeys amounts) ++ l.drop n
  | .began reservation attempt => [reservation.outstandingAttempts ++ [attempt]]
  | .settled _ _ _ => []
  | .released _ => []

/-- A change forms no sum past the top of a word. -/
def SumsFit (a : Accounts) (e : Effect) : Prop := ∀ l ∈ e.passes, a.FitsWith e.id l

end Effect

namespace Manager

/-- A change a call makes, as the only one or as the first of two. -/
def Changes (m : Manager) (op : Op) (e : Effect) : Prop :=
  Makes op m e (m.perform op) ∨
    ∃ m₁ e', Makes op m e m₁ ∧ Makes op m₁ e' (m.perform op)

/-- No call forms a sum of reserved amounts past the top of a word. -/
def SumsFit (m : Manager) : Action → Prop
  | .step (.call op) => ∀ e, m.Changes op e → e.SumsFit m.accounts
  | _ => True

end Manager

/-! ## Every change keeps the sums -/

/-- Sound accounts in which every reserved amount is the sum of what is
outstanding. -/
structure Accounts.Exact (a : Accounts) : Prop where
  sound : a.Sound
  keys : ∀ {key}, Canonical key → ∀ u,
    Holds (a.windows.get key u).reservedTokens (a.windows.get key u).reservedCostMicros
      (a.loadAt key u)
  own : ∀ reservation ∈ a.reservations.items,
    Holds reservation.reservedTokens reservation.reservedCostMicros reservation.load

/-- What a key reserves, as words that hold a load. -/
def Windows.Holds (w : Windows) (key : String) (u : Int) (load : Load) : Prop :=
  Governance.Holds (w.get key u).reservedTokens (w.get key u).reservedCostMicros load

section

variable {w : Windows} {attempt : AttemptState} {principal key : String} {u : Int} {load : Load}

theorem holds_applyAttemptReservation (ha : attempt.WellFormed principal)
    (hrel : attempt.reservationReleased = false) (hkey : Canonical key)
    (h : w.Holds key u load) (hfits : Fits (load + attempt.loadAt key u)) :
    (w.applyAttemptReservation attempt).Holds key u (load + attempt.loadAt key u) := by
  have ho : attempt.outstanding = true := by rw [ha.outstanding_eq, hrel]; rfl
  unfold Windows.Holds
  rw [get_applyAttemptReservation w ha hrel hkey]
  unfold AttemptState.loadAt at hfits ⊢
  by_cases hcharged : attempt.ChargedAt key u
  · rw [if_pos ⟨ho, hcharged⟩] at hfits
    rw [if_pos hcharged, if_pos ⟨ho, hcharged⟩]
    exact h.reserve ha.tokens ha.cost hfits
  · rw [if_neg hcharged, if_neg fun hand => hcharged hand.2, add_zero]
    exact h

theorem holds_unapplyAttemptReservation (ha : attempt.WellFormed principal)
    (ho : attempt.outstanding = true) (hkey : Canonical key) (hload : 0 ≤ load)
    (h : w.Holds key u (load + attempt.loadAt key u)) :
    (w.unapplyAttemptReservation attempt).Holds key u load := by
  unfold Windows.Holds at h ⊢
  rw [get_unapplyAttemptReservation w ha hkey]
  unfold AttemptState.loadAt at h
  by_cases hcharged : attempt.ChargedAt key u
  · rw [if_pos ⟨ho, hcharged⟩] at h
    rw [if_pos hcharged]
    exact h.release hload ha.tokens ha.cost
  · rw [if_neg fun hand => hcharged hand.2, add_zero] at h
    rw [if_neg hcharged]
    exact h

theorem holds_releaseAttempt (ha : attempt.WellFormed principal) (hkey : Canonical key)
    (hload : 0 ≤ load) (h : w.Holds key u (load + attempt.loadAt key u)) :
    (w.releaseAttempt attempt).Holds key u load := by
  unfold Windows.Holds at h ⊢
  rw [get_releaseAttempt w ha hkey]
  unfold AttemptState.loadAt at h
  by_cases hcharged : attempt.reservationReleased = false ∧ attempt.ChargedAt key u
  · rw [if_pos ⟨by rw [ha.outstanding_eq, hcharged.1]; rfl, hcharged.2⟩] at h
    rw [if_pos hcharged]
    exact h.release hload ha.tokens ha.cost
  · have hnot : ¬(attempt.outstanding = true ∧ attempt.ChargedAt key u) := by
      rw [ha.outstanding_eq]
      exact fun hand => hcharged ⟨by simpa using hand.1, hand.2⟩
    rw [if_neg hnot, add_zero] at h
    rw [if_neg hcharged]
    exact h

theorem holds_releaseReservation (hkey : Canonical key) (hload : 0 ≤ load)
    {l : List AttemptState} (hl : ∀ attempt ∈ l, attempt.WellFormed principal)
    (h : w.Holds key u (load + (l.map (AttemptState.loadAt key u)).sum)) :
    (l.foldl Windows.releaseAttempt w).Holds key u load := by
  induction l generalizing w with
  | nil =>
      rw [List.map_nil, List.sum_nil, add_zero] at h
      exact h
  | cons attempt l ih =>
      have hrest := AttemptState.sum_loadAt_nonneg
        (fun a ha => hl a (List.mem_cons_of_mem _ ha)) key u
      rw [List.map_cons, List.sum_cons, add_left_comm, add_comm] at h
      have hattempt := hl attempt (by simp)
      exact ih (fun a ha => hl a (List.mem_cons_of_mem _ ha))
        (holds_releaseAttempt hattempt hkey (add_nonneg hload hrest) h)

theorem holds_recordUsage (ha : attempt.WellFormed principal) (hkey : Canonical key)
    {event : UsageRecordedEvent} (he : event.principal = principal) (h : w.Holds key u load) :
    (w.recordUsage attempt.budgetKeys attempt.windowStarted event).Holds key u load := by
  unfold Windows.Holds at h ⊢
  rw [get_recordUsage w ha hkey he]
  split
  · unfold UsageState.applyUsage
    split <;> exact h
  · exact h

end

/-! ### A binding -/

/-- Exchange each member's old load for its new one, in order. The sums on the
way are of new loads up to some member and old loads from there on. -/
theorem foldl_exchange {σ : Type*} (P : σ → Load → Prop) (step : σ → AttemptState → σ)
    (old new : AttemptState → Load) {l : List AttemptState}
    (hstep : ∀ s, ∀ attempt ∈ l, ∀ load, 0 ≤ load → P s (load + old attempt) →
      Fits (load + new attempt) → P (step s attempt) (load + new attempt))
    (hold : ∀ attempt ∈ l, 0 ≤ old attempt) (hnew : ∀ attempt ∈ l, 0 ≤ new attempt)
    {load : Load} (hload : 0 ≤ load)
    (hfits : ∀ n ≤ l.length, Fits (load + ((l.take n).map new ++ (l.drop n).map old).sum))
    {s : σ} (h : P s (load + (l.map old).sum)) :
    P (l.foldl step s) (load + (l.map new).sum) := by
  induction l generalizing s load with
  | nil => exact h
  | cons attempt l ih =>
      have hrest : 0 ≤ (l.map old).sum := by
        refine List.sum_nonneg fun x hx => ?_
        obtain ⟨a, ha, rfl⟩ := List.mem_map.1 hx
        exact hold a (List.mem_cons_of_mem _ ha)
      rw [List.map_cons, List.sum_cons, add_left_comm, add_comm] at h
      have hone := hfits 1 (by simp)
      simp only [List.take_succ_cons, List.take_zero, List.map_cons, List.map_nil,
        List.drop_succ_cons, List.drop_zero, List.cons_append, List.nil_append,
        List.sum_cons, add_comm (new attempt), ← add_assoc] at hone
      have hmoved := hstep s attempt (by simp) _ (add_nonneg hload hrest) h hone
      rw [add_right_comm] at hmoved
      have hlast := ih (fun s a ha => hstep s a (List.mem_cons_of_mem _ ha))
        (fun a ha => hold a (List.mem_cons_of_mem _ ha))
        (fun a ha => hnew a (List.mem_cons_of_mem _ ha))
        (add_nonneg hload (hnew attempt (by simp))) (fun n hn => by
          have := hfits (n + 1) (by simpa using hn)
          simpa [add_assoc] using this) hmoved
      rwa [List.map_cons, List.sum_cons, ← add_assoc]

section

variable {m : Manager} {reservation : ReservationState} {newKeys : List String}

/-- An outstanding attempt, moved. -/
theorem rebind_wellFormed (hr : reservation.WellFormed)
    (hkeys : ReservationKeys reservation.principal newKeys) {attempt : AttemptState}
    (hin : attempt ∈ reservation.outstandingAttempts) :
    (attempt.rebind newKeys (m.attemptReservations reservation newKeys)).WellFormed
      reservation.principal := by
  obtain ⟨hin, ho⟩ := List.mem_filter.1 hin
  have hwf := hr.attempts attempt hin
  obtain ⟨ht, hc⟩ := m.amounts_nonneg reservation.model newKeys
  have hrel : attempt.reservationReleased = false := by simpa [hwf.outstanding_eq] using ho
  rw [rebind_attemptReservations m newKeys hin ho]
  exact ⟨hwf.named, hkeys, hwf.window, hwf.opened, ht, hc, hrel ▸ hwf.closed⟩

theorem holds_windowsAfter_bound (w : Windows) (upstream : String) {key : String} {u : Int}
    {load : Load} (hr : reservation.WellFormed)
    (hkeys : ReservationKeys reservation.principal newKeys) (hkey : Canonical key)
    (hload : 0 ≤ load)
    (hfits : ∀ n ≤ reservation.outstandingAttempts.length, Fits (load +
      (((reservation.outstandingAttempts.take n).map fun attempt =>
        attempt.rebind newKeys (m.attemptReservations reservation newKeys)) ++
          reservation.outstandingAttempts.drop n |>.map (AttemptState.loadAt key u)).sum))
    (h : w.Holds key u (load + reservation.loadAt key u)) :
    ((Effect.bound reservation upstream newKeys
        (m.attemptReservations reservation newKeys)).windowsAfter w).Holds key u
      (load + ((reservation.outstandingAttempts.map fun attempt =>
        attempt.rebind newKeys (m.attemptReservations reservation newKeys)).map
          (AttemptState.loadAt key u)).sum) := by
  rw [windowsAfter_bound, List.map_map]
  rw [reservation.loadAt_eq_outstanding] at h
  refine foldl_exchange (fun (w : Windows) load => w.Holds key u load) _ _ _ ?_ ?_ ?_ hload ?_ h
  · intro w attempt hin load hload hw hfits
    have hwf := hr.attempts attempt (List.mem_filter.1 hin).1
    exact holds_applyAttemptReservation (rebind_wellFormed hr hkeys hin) rfl hkey
      (holds_unapplyAttemptReservation hwf (List.mem_filter.1 hin).2 hkey hload hw) hfits
  · intro attempt hin
    exact (hr.attempts attempt (List.mem_filter.1 hin).1).loadAt_nonneg key u
  · intro attempt hin
    exact (rebind_wellFormed hr hkeys hin).loadAt_nonneg key u
  · intro n hn
    have := hfits n hn
    rwa [List.map_append, List.map_map] at this

/-- What a binding does to the reservation's own amounts, attempt by
attempt. -/
theorem rebindReservation_amounts (w : Windows) (reservation : ReservationState)
    (newKeys : List String) (amounts : List AttemptReservationEvent) :
    let moved := (rebindReservation w reservation newKeys amounts).2
    (moved.reservedTokens, moved.reservedCostMicros) =
      reservation.outstandingAttempts.foldl (fun sums attempt =>
        let moved := attempt.rebind newKeys amounts
        (safeAdd64 (max64 (sums.1 - attempt.reservedTokens) 0) moved.reservedTokens,
          safeAdd64 (max64 (sums.2 - attempt.reservedCostMicros) 0) moved.reservedCostMicros))
        (reservation.reservedTokens, reservation.reservedCostMicros) := by
  have hwalk : ∀ (l : List AttemptState) (acc : Windows × ReservationState),
      ((l.foldl (rebindAttempt newKeys amounts) acc).2.reservedTokens,
        (l.foldl (rebindAttempt newKeys amounts) acc).2.reservedCostMicros) =
      (l.filter AttemptState.outstanding).foldl (fun sums attempt =>
        let moved := attempt.rebind newKeys amounts
        (safeAdd64 (max64 (sums.1 - attempt.reservedTokens) 0) moved.reservedTokens,
          safeAdd64 (max64 (sums.2 - attempt.reservedCostMicros) 0) moved.reservedCostMicros))
        (acc.2.reservedTokens, acc.2.reservedCostMicros) := by
    intro l
    induction l with
    | nil => intro acc; rfl
    | cons attempt l ih =>
        intro acc
        rw [List.foldl_cons, ih]
        unfold rebindAttempt
        cases ho : attempt.outstanding with
        | true => simp [ho]
        | false => simp [ho]
  exact hwalk reservation.attempts.items (w, reservation)

theorem holds_bound (w : Windows) (upstream : String) (hr : reservation.WellFormed)
    (hkeys : ReservationKeys reservation.principal newKeys)
    (hfits : ∀ n ≤ reservation.outstandingAttempts.length, Fits
      (((reservation.outstandingAttempts.take n).map fun attempt =>
        attempt.rebind newKeys (m.attemptReservations reservation newKeys)) ++
          reservation.outstandingAttempts.drop n |>.map AttemptState.load).sum)
    (h : Holds reservation.reservedTokens reservation.reservedCostMicros reservation.load) :
    let after := Effect.reservationAfter w (.bound reservation upstream newKeys
      (m.attemptReservations reservation newKeys))
    Holds after.reservedTokens after.reservedCostMicros after.load := by
  intro after
  have hload : after.load = 0 + (reservation.outstandingAttempts.map fun attempt =>
      (attempt.rebind newKeys (m.attemptReservations reservation newKeys)).load).sum := by
    unfold ReservationState.load
    rw [outstandingAttempts_bound, List.map_map, zero_add]
    rfl
  have hamounts := rebindReservation_amounts w reservation newKeys
    (m.attemptReservations reservation newKeys)
  have hafter : (fun sums : Int64 × Int64 => Holds sums.1 sums.2)
      (after.reservedTokens, after.reservedCostMicros) after.load := by
    rw [hload]
    refine hamounts ▸ foldl_exchange (fun sums : Int64 × Int64 => Holds sums.1 sums.2) _
      AttemptState.load _ ?_ ?_ ?_ le_rfl ?_ ((zero_add reservation.load).symm ▸ h)
    · intro sums attempt hin load hload hsums hfits
      have hwf := hr.attempts attempt (List.mem_filter.1 hin).1
      have hmoved := rebind_wellFormed (m := m) hr hkeys hin
      exact (hsums.release hload hwf.tokens hwf.cost).reserve hmoved.tokens hmoved.cost hfits
    · intro attempt hin
      have hwf := hr.attempts attempt (List.mem_filter.1 hin).1
      exact ⟨Nat.zero_le _, hwf.tokens, hwf.cost⟩
    · intro attempt hin
      have hmoved := rebind_wellFormed (m := m) hr hkeys hin
      exact ⟨Nat.zero_le _, hmoved.tokens, hmoved.cost⟩
    · intro n hn
      have := hfits n hn
      rwa [List.map_append, List.map_map, ← zero_add (List.sum _)] at this
  exact hafter

end

/-! ### The other changes -/

theorem load_openReservation {clk : Clock} (id : String) (admission : AdmissionContext)
    {amounts : Int64 × Int64} {keys : List String} :
    (Manager.openReservation clk id admission amounts keys).load = loadOf amounts.1 amounts.2 := by
  rw [ReservationState.load_eq_total]
  unfold Manager.openReservation
  rw [Table.total_set, Table.erase_of_none rfl, Table.total_empty, zero_add]
  rfl

theorem load_addAttempt {reservation : ReservationState} {attempt : AttemptState}
    (ho : attempt.outstanding = true)
    (hfresh : reservation.attempts.get? attempt.id = none) :
    (reservation.addAttempt attempt).load = reservation.load + attempt.load := by
  rw [ReservationState.load_eq_total, ReservationState.load_eq_total]
  unfold ReservationState.addAttempt
  rw [Table.total_set, key_attempt, Table.erase_of_none hfresh, if_pos ho]

theorem load_settled {reservation : ReservationState} {attempt : AttemptState} (w : Windows)
    (event : UsageRecordedEvent) (ho : attempt.outstanding = true)
    (hget : reservation.attempts.get? attempt.id = some attempt) :
    (Effect.reservationAfter w (.settled reservation attempt event)).load + attempt.load =
      reservation.load := by
  have hrel : attempt.reservationReleased = false := by
    simp only [AttemptState.outstanding, Bool.and_eq_true, Bool.not_eq_true'] at ho
    exact ho.1
  have herase : (reservation.releaseAttempt attempt).attempts.erase attempt.id =
      reservation.attempts.erase attempt.id := by
    unfold ReservationState.releaseAttempt
    rw [hrel]
    exact Table.erase_set_self (a := { attempt with reservationReleased := true }) _
  have hafter : (Effect.reservationAfter w (.settled reservation attempt event)).load =
      (reservation.attempts.erase attempt.id).total fun attempt =>
        if attempt.outstanding then attempt.load else 0 := by
    rw [ReservationState.load_eq_total]
    unfold Effect.reservationAfter
    dsimp only
    rw [Table.total_set]
    simp only [AttemptState.outstanding, Bool.not_true, Bool.and_false, Bool.false_eq_true,
      if_false, add_zero, key_attempt]
    exact congrArg (Table.total _) herase
  have hbefore := Table.total_erase_of_some
    (f := fun attempt : AttemptState => if attempt.outstanding then attempt.load else 0) hget
  rw [if_pos ho] at hbefore
  rw [hafter, reservation.load_eq_total]
  exact hbefore

/-- A change that forms no sum past the top of a word keeps the sums. -/
theorem exact_apply {m : Manager} {op : Op} {e : Effect} (h : m.accounts.Exact)
    (he : e.Allowed m op) (hfits : e.SumsFit m.accounts) : (e.apply m.accounts).Exact := by
  have hwf := h.sound.wellFormed
  have hfrom : ∀ {r : ReservationState} (key : String) (u : Int),
      m.reservations.get? r.id = some r →
      m.accounts.loadAt key u =
        (m.reservations.erase r.id).total (ReservationState.loadAt key u) + r.loadAt key u :=
    fun _ _ hget => (Table.total_erase_of_some hget).symm
  have hto : ∀ (r : ReservationState) (key : String) (u : Int),
      (m.reservations.set r).total (ReservationState.loadAt key u) =
        (m.reservations.erase r.id).total (ReservationState.loadAt key u) + r.loadAt key u :=
    fun _ _ _ => Table.total_set _ _
  have howns : ∀ r : ReservationState, Holds r.reservedTokens r.reservedCostMicros r.load →
      ∀ reservation ∈ (m.reservations.set r).items,
        Holds reservation.reservedTokens reservation.reservedCostMicros reservation.load := by
    intro r hr reservation hin
    rcases Table.mem_set.1 hin with rfl | ⟨hin, -⟩
    · exact hr
    · exact h.own reservation hin
  refine ⟨sound_apply h.sound he, ?_, ?_⟩
  · intro key hkey u
    have hbefore := h.keys hkey u
    have hothers := Accounts.others_nonneg hwf e.id key u
    cases he with
    | @admitted id admission keys amounts htarget hnamed hp hfresh hcharged hreserved hlimits =>
        subst hcharged hreserved
        have hr := m.openReservation_charged op.clk id hp
        have hattempt := hr.attempts _ (by exact List.mem_singleton.2 rfl)
        have hload := hto (Manager.openReservation op.clk id admission
          (m.reservationAmountsForKeys admission.model
            (m.config.budgetKeys admission admission.principal admission.model))
          (m.config.budgetKeys admission admission.principal admission.model)) key u
        have hfit := (hfits _ (List.mem_singleton.2 rfl)).keys key hkey u
        rw [List.map_singleton, List.sum_singleton, m.accounts_reservations,
          show Effect.id _ = id from rfl, Table.erase_of_none hfresh] at hfit
        have hon := holds_applyAttemptReservation hattempt rfl hkey hbefore hfit
        rw [← loadAt_openReservation id admission] at hon
        rw [show (Manager.openReservation op.clk id admission _ _).id = id from rfl,
          Table.erase_of_none hfresh] at hload
        exact Eq.mp (congrArg _ hload.symm) hon
    | @bound reservation raw upstream newKeys amounts hcall htrim hfound hnamed helse hcharged
        hreserved hlimits =>
        have hr := hwf _ (Table.mem_of_get? hfound)
        have hkeys : ReservationKeys reservation.principal newKeys :=
          hcharged ▸ budgetKeys_reservationKeys _ _ hr.principal _
        subst hreserved
        rw [hfrom key u hfound] at hbefore
        have hmoved := holds_windowsAfter_bound m.windows upstream hr hkeys hkey hothers
          (fun n hn => (hfits _ (List.mem_map.2
            ⟨n, List.mem_range.2 (Nat.lt_succ_of_le hn), rfl⟩)).keys key hkey u) hbefore
        have hload : (Effect.apply m.accounts (.bound reservation upstream newKeys
            (m.attemptReservations reservation newKeys))).loadAt key u = _ :=
          hto (Effect.reservationAfter m.windows (.bound reservation upstream newKeys
            (m.attemptReservations reservation newKeys))) key u
        rw [← outstandingAttempts_bound m.windows reservation upstream,
          ← ReservationState.loadAt_eq_outstanding] at hmoved
        rw [hload, reservationAfter_id]
        exact hmoved
    | @began reservation attemptID amounts htarget hfound hnamed hfresh hreserved hlimits =>
        subst hreserved
        have hr := hwf _ (Table.mem_of_get? hfound)
        obtain ⟨ht, hc⟩ := m.amounts_nonneg reservation.model reservation.budgetKeys
        have hfit := (hfits _ (List.mem_singleton.2 rfl)).keys key hkey u
        rw [List.map_append, List.sum_append, ← ReservationState.loadAt_eq_outstanding,
          List.map_singleton, List.sum_singleton, ← add_assoc, m.accounts_reservations,
          show Effect.id _ = reservation.id from rfl, ← hfrom key u hfound] at hfit
        have hon := holds_applyAttemptReservation
          (allowedAttempt_wellFormed op.clk hnamed hr ht hc) rfl hkey hbefore hfit
        rw [hfrom key u hfound, add_assoc, ← loadAt_addAttempt hfresh] at hon
        exact Eq.mp (congrArg _ (hto (reservation.addAttempt _) key u).symm) hon
    | @settled reservation attempt usage htarget hfound hnamed hbegun hfresh =>
        have hr := hwf _ (Table.mem_of_get? hfound)
        have hattempt := hr.attempts attempt (Table.mem_of_get? hbegun)
        have hr' := settled_wellFormed m.windows
          (m.usageEvent op.clk reservation attempt attempt.id usage) hr hbegun rfl
        rw [hfrom key u hfound, ← loadAt_settled m.windows
          (m.usageEvent op.clk reservation attempt attempt.id usage) hbegun,
          ← add_assoc] at hbefore
        have hoff := holds_releaseAttempt hattempt hkey
          (add_nonneg hothers (hr'.loadAt_nonneg key u)) hbefore
        have hload : (Effect.apply m.accounts (.settled reservation attempt
            (m.usageEvent op.clk reservation attempt attempt.id usage))).loadAt key u = _ :=
          hto (Effect.reservationAfter m.windows (.settled reservation attempt
            (m.usageEvent op.clk reservation attempt attempt.id usage))) key u
        rw [hload, reservationAfter_id]
        exact holds_recordUsage hattempt hkey rfl hoff
    | @released reservation hcall hfound =>
        have hr := hwf _ (Table.mem_of_get? hfound)
        rw [hfrom key u hfound] at hbefore
        exact holds_releaseReservation hkey hothers hr.attempts hbefore
  · cases he with
    | @admitted id admission keys amounts htarget hnamed hp hfresh hcharged hreserved hlimits =>
        refine howns (Manager.openReservation op.clk id admission amounts keys) ?_
        rw [load_openReservation]
        exact ⟨rfl, rfl⟩
    | @bound reservation raw upstream newKeys amounts hcall htrim hfound hnamed helse hcharged
        hreserved hlimits =>
        have hin := Table.mem_of_get? hfound
        have hr := hwf _ hin
        subst hreserved
        exact howns _ (holds_bound m.windows upstream hr
          (hcharged ▸ budgetKeys_reservationKeys _ _ hr.principal _)
          (fun n hn => (hfits _ (List.mem_map.2
            ⟨n, List.mem_range.2 (Nat.lt_succ_of_le hn), rfl⟩)).own) (h.own _ hin))
    | @began reservation attemptID amounts htarget hfound hnamed hfresh hreserved hlimits =>
        subst hreserved
        obtain ⟨ht, hc⟩ := m.amounts_nonneg reservation.model reservation.budgetKeys
        have hfit := (hfits _ (List.mem_singleton.2 rfl)).own
        rw [List.map_append, List.sum_append, List.map_singleton, List.sum_singleton] at hfit
        refine howns (reservation.addAttempt _) ?_
        rw [load_addAttempt rfl hfresh]
        exact (h.own _ (Table.mem_of_get? hfound)).reserve ht hc hfit
    | @settled reservation attempt usage htarget hfound hnamed hbegun hfresh =>
        have hin := Table.mem_of_get? hfound
        have hr := hwf _ hin
        have hattempt := hr.attempts attempt (Table.mem_of_get? hbegun)
        have hr' := settled_wellFormed m.windows
          (m.usageEvent op.clk reservation attempt attempt.id usage) hr hbegun rfl
        have ho : attempt.outstanding = true := by
          have hnot : ¬attempt.settled = true := fun hset => by
            have := (hr.settled attempt.id).2 ⟨attempt, Table.mem_of_get? hbegun, rfl, hset⟩
            rw [hfresh] at this
            cases this
          rw [hattempt.outstanding_eq, ← hattempt.closed]
          simpa using hnot
        have hold := h.own _ hin
        rw [← load_settled m.windows (m.usageEvent op.clk reservation attempt attempt.id usage)
          ho hbegun] at hold
        have hoff := hold.release (ReservationState.load_nonneg hr') hattempt.tokens hattempt.cost
        have hrel : attempt.reservationReleased = false := by
          simpa [hattempt.outstanding_eq] using ho
        refine howns (Effect.reservationAfter m.windows (.settled reservation attempt _)) ?_
        have hamounts : (reservation.releaseAttempt attempt).reservedTokens =
            max64 (reservation.reservedTokens - attempt.reservedTokens) 0 ∧
            (reservation.releaseAttempt attempt).reservedCostMicros =
              max64 (reservation.reservedCostMicros - attempt.reservedCostMicros) 0 := by
          unfold ReservationState.releaseAttempt
          rw [hrel]
          exact ⟨rfl, rfl⟩
        rw [← hamounts.1, ← hamounts.2] at hoff
        exact hoff
    | @released reservation hcall hfound =>
        intro reservation hin
        exact h.own reservation (Table.mem_erase.1 hin).1

theorem exact_perform {m : Manager} {op : Op} (h : m.accounts.Exact)
    (hfits : m.SumsFit (.step (.call op))) : (m.perform op).accounts.Exact := by
  cases m.perform_transition op with
  | quiet hq => exact hq.accounts.symm ▸ h
  | @change e hmakes =>
      exact hmakes.accounts.symm ▸ exact_apply h hmakes.allowed (hfits e (.inl hmakes))
  | @beginAndSettle m₁ reservation reservation' attempt event hbegan hsettled =>
      have h₁ : m₁.accounts.Exact := hbegan.accounts.symm ▸
        exact_apply h hbegan.allowed (hfits _ (.inr ⟨m₁, _, hbegan, hsettled⟩))
      refine hsettled.accounts.symm ▸ exact_apply h₁ hsettled.allowed fun l hl => ?_
      cases hl

/-- In every state a manager reaches, a key reserves exactly the amounts of
the attempts outstanding under it in the window, and a reservation exactly
those of its own. -/
theorem reserved_eq_outstanding (m : Manager) (hfresh : m.Fresh) (actions : List Action)
    (hfits : Along Manager.act Manager.SumsFit m actions) :
    (∀ (scope : Scope) (value : String) (window : Int),
      let state := (m.acts actions).windows.get (scope.key value) window
      let load := (m.acts actions).accounts.loadAt (scope.key value) window
      state.reservedTokens.toInt = load.2.1 ∧ state.reservedCostMicros.toInt = load.2.2) ∧
    ∀ reservation ∈ (m.acts actions).reservations.items,
      reservation.reservedTokens.toInt = reservation.load.2.1 ∧
        reservation.reservedCostMicros.toInt = reservation.load.2.2 := by
  have hstart : m.accounts.Exact := by
    have hsound := Manager.run_sound hfresh []
    refine ⟨hsound, fun {key} _ u => ?_, fun reservation hin => ?_⟩
    · have hload : m.accounts.loadAt key u = 0 := by
        unfold Accounts.loadAt
        rw [m.accounts_reservations, hfresh.reservations, Table.total_empty]
      rw [hload, m.accounts_windows, hfresh.windows]
      exact ⟨rfl, rfl⟩
    · rw [m.accounts_reservations, hfresh.reservations] at hin
      cases hin
  have hexact : (m.acts actions).accounts.Exact :=
    Manager.acts_invariant (fun m op hc h => exact_perform h hc) hfits hstart
  refine ⟨fun scope value window => ?_, fun reservation hin => ?_⟩
  · have hkey := hexact.keys ⟨scope, value, rfl⟩ window
    exact ⟨hkey.tokens, hkey.costMicros⟩
  · have hown := hexact.own reservation hin
    exact ⟨hown.tokens, hown.costMicros⟩

/-- Five tokens an attempt, of a hundred. -/
def fiveEach : Manager where
  config := { mode := .enforce, tokenLimit := 100, tokenReservation := 5 }

def admitAlice : List Action :=
  [.step (.call ⟨{ now := minute, stamp := 0 },
    .admitWithContext false "a" { principal := "alice" }⟩)]

/-- The first reservation of all cannot form a sum that does not fit. -/
theorem sumsFit_of_empty {m : Manager} (h : m.reservations = ∅) {op : Op} {e : Effect}
    (he : e.Allowed m op) : e.SumsFit m.accounts := by
  have hnone : ∀ {id}, m.reservations.get? id = none := by
    intro id
    rw [h]
    rfl
  cases he with
  | @admitted id admission keys amounts =>
      intro l hl
      obtain rfl := List.mem_singleton.1 hl
      have hfits : ∀ attempt : AttemptState, Fits attempt.load := fun attempt =>
        ⟨toInt_le_top _, toInt_le_top _⟩
      refine ⟨fun key _ window => ?_, ?_⟩
      · rw [m.accounts_reservations, h, Table.erase_of_none rfl, Table.total_empty, zero_add,
          List.map_singleton, List.sum_singleton]
        unfold AttemptState.loadAt
        split
        · exact hfits _
        · exact ⟨by decide, by decide⟩
      · rw [List.map_singleton, List.sum_singleton]
        exact hfits _
  | bound hcall htrim hfound => exact absurd (hnone.symm.trans hfound) nofun
  | began htarget hfound => exact absurd (hnone.symm.trans hfound) nofun
  | settled htarget hfound => exact absurd (hnone.symm.trans hfound) nofun
  | released hcall hfound => exact absurd (hnone.symm.trans hfound) nofun

/-- A reservation that is the only one adds up to no more than its own sum. -/
theorem fitsWith_of_only {a : Accounts} {id : String} {l : List AttemptState}
    (honly : (a.reservations.erase id).items = []) (hnonneg : ∀ attempt ∈ l, 0 ≤ attempt.load)
    (hown : Fits (l.map AttemptState.load).sum) : a.FitsWith id l where
  keys key _ window := by
    have hle : (l.map (AttemptState.loadAt key window)).sum ≤ (l.map AttemptState.load).sum := by
      refine List.sum_le_sum fun attempt hin => ?_
      unfold AttemptState.loadAt
      split
      · exact le_rfl
      · exact hnonneg attempt hin
    rw [Table.total, honly, List.map_nil, List.sum_nil, zero_add]
    exact ⟨hle.2.1.trans hown.1, hle.2.2.trans hown.2⟩
  own := hown

/-- Alice's request goes on to a second attempt while the first is outstanding. -/
def beginAnother : Action :=
  .step (.call ⟨{ now := minute, stamp := 1 }, .beginAttempt "a" "attempt-2"⟩)

/-- Two attempts of five tokens fit. -/
theorem sumsFit_beginAnother : (fiveEach.acts admitAlice).SumsFit beginAnother := by
  intro e he
  have hallowed : e.Allowed (fiveEach.acts admitAlice)
      ⟨{ now := minute, stamp := 1 }, .beginAttempt "a" "attempt-2"⟩ :=
    he.elim (·.allowed) fun h => h.choose_spec.choose_spec.1.allowed
  cases hallowed with
  | admitted htarget _ _ hfresh =>
      subst htarget
      exact absurd hfresh (by decide +kernel)
  | bound hcall => cases hcall
  | @began reservation attemptID amounts htarget hfound _ _ hreserved =>
      have hloads : ∀ r ∈ (fiveEach.acts admitAlice).reservations.get? "a",
          r.outstandingAttempts.map AttemptState.load = [(1, 5, 0)] ∧
            (fiveEach.acts admitAlice).reservationAmountsForKeys r.model r.budgetKeys = (5, 0) := by
        decide +kernel
      obtain ⟨hout, hnew⟩ := hloads reservation (by rwa [← htarget] at hfound)
      have honly : ((fiveEach.acts admitAlice).accounts.reservations.erase
          reservation.id).items = [] := by
        rw [← htarget]
        exact List.eq_nil_of_length_eq_zero (by decide +kernel)
      obtain rfl : amounts = (5, 0) := hreserved.trans hnew
      intro l hl
      obtain rfl := List.mem_singleton.1 hl
      have hmap : (reservation.outstandingAttempts ++ [Manager.allowedAttempt
          { now := minute, stamp := 1 } reservation attemptID (5, 0)]).map AttemptState.load =
            [(1, 5, 0), (1, 5, 0)] := by
        rw [List.map_append, hout]
        rfl
      refine fitsWith_of_only honly (fun attempt hin => ?_) ?_
      · have hload := List.mem_map_of_mem (f := AttemptState.load) hin
        rw [hmap] at hload
        rcases List.mem_pair.mp hload with heq | heq <;> exact heq ▸ by decide
      · rw [hmap]
        decide
  | settled => exact fun _ hl => nomatch hl
  | released => exact fun _ hl => nomatch hl

/-- What alice's key reserves then, and what is outstanding under it. -/
theorem reserved_eq_outstanding_alice :
    let after := fiveEach.acts (admitAlice ++ [beginAnother])
    (after.windows.get (Scope.principal.key "alice") minute).reservedTokens.toInt = 10 ∧
      (after.accounts.loadAt (Scope.principal.key "alice") minute).2.1 = 10 := by
  have hreserved : ((fiveEach.acts (admitAlice ++ [beginAnother])).windows.get
      (Scope.principal.key "alice") minute).reservedTokens.toInt = 10 := by decide +kernel
  have hfits : Along Manager.act Manager.SumsFit fiveEach (admitAlice ++ [beginAnother]) :=
    Along.append.mpr ⟨⟨fun e he => sumsFit_of_empty rfl
      (he.elim (·.allowed) fun h => h.choose_spec.choose_spec.1.allowed), trivial⟩,
      sumsFit_beginAnother, trivial⟩
  have hsum := (reserved_eq_outstanding fiveEach ⟨rfl, rfl, rfl, rfl⟩ _ hfits).1
    .principal "alice" minute
  exact ⟨hreserved, hsum.1.symm.trans hreserved⟩

end RelayLifeline.Governance
