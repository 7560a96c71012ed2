import RelayLifeline.Proofs.Usage
import Mathlib.Algebra.Order.Monoid.Prod

/-!
# What is outstanding

A key's state counts requests and adds up reserved amounts, and so do the
attempts outstanding under it. The two stay in step in one direction each: a
state has counted every outstanding attempt, and reserves no more than the
outstanding attempts do. The counts part company when an attempt is settled,
which gives back its amounts and not its request; the amounts part company
when a sum stops at the top of a word and is later reduced from there.

Two consequences are used elsewhere. Taking an outstanding attempt off a key
never meets a request count of zero, and a key without outstanding attempts
reserves nothing.
-/

namespace RelayLifeline.Governance

open Lib Lib.Word

/-- Requests, tokens and cost, added up without bound. -/
abbrev Load := ℕ × ℤ × ℤ

/-- What one request with these amounts adds. -/
def loadOf (tokens cost : Int64) : Load := (1, tokens.toInt, cost.toInt)

namespace AttemptState

def load (attempt : AttemptState) : Load :=
  loadOf attempt.reservedTokens attempt.reservedCostMicros

/-- What an attempt holds at a key in a window, while it is outstanding. -/
def loadAt (key : String) (window : Int) (attempt : AttemptState) : Load :=
  if attempt.outstanding ∧ attempt.ChargedAt key window then attempt.load else 0

theorem WellFormed.loadAt_nonneg {principal : String} {attempt : AttemptState}
    (h : attempt.WellFormed principal) (key : String) (window : Int) :
    0 ≤ attempt.loadAt key window := by
  unfold loadAt
  split
  · exact ⟨Nat.zero_le _, h.tokens, h.cost⟩
  · exact le_refl _

theorem sum_loadAt_nonneg {principal : String} {l : List AttemptState}
    (hl : ∀ attempt ∈ l, attempt.WellFormed principal) (key : String) (window : Int) :
    0 ≤ (l.map (loadAt key window)).sum := by
  refine List.sum_nonneg fun x hx => ?_
  obtain ⟨a, ha, rfl⟩ := List.mem_map.1 hx
  exact (hl a ha).loadAt_nonneg key window

end AttemptState

def ReservationState.loadAt (key : String) (window : Int) (reservation : ReservationState) :
    Load :=
  reservation.attempts.total (AttemptState.loadAt key window)

theorem ReservationState.WellFormed.loadAt_nonneg {reservation : ReservationState}
    (h : reservation.WellFormed) (key : String) (window : Int) :
    0 ≤ reservation.loadAt key window :=
  Table.total_nonneg fun attempt hin => (h.attempts attempt hin).loadAt_nonneg key window

def Accounts.loadAt (a : Accounts) (key : String) (window : Int) : Load :=
  a.reservations.total (ReservationState.loadAt key window)

/-! ## In step -/

/-- Every request of a load was counted, and no more is reserved than its
amounts. -/
structure UsageState.Reflects (s : UsageState) (load : Load) : Prop where
  requests : load.1 ≤ s.requests
  tokens : s.reservedTokens.toInt ≤ load.2.1
  costMicros : s.reservedCostMicros.toInt ≤ load.2.2

namespace UsageState

variable {s : UsageState} {load : Load} {tokens cost : Int64}

theorem Reflects.reserve (h : s.Reflects load) (ht : 0 ≤ tokens.toInt) (hc : 0 ≤ cost.toInt) :
    (s.reserve tokens cost).Reflects (load + loadOf tokens cost) := by
  refine ⟨Nat.add_le_add_right h.requests 1, ?_, ?_⟩
  · have := h.tokens
    simp only [UsageState.reserve, toInt_safeAdd64 ht, loadOf, Prod.snd_add, Prod.fst_add]
    omega
  · have := h.costMicros
    simp only [UsageState.reserve, toInt_safeAdd64 hc, loadOf, Prod.snd_add]
    omega

theorem Reflects.unreserve (h : s.Reflects (load + loadOf tokens cost)) (hs : s.Nonneg)
    (hload : 0 ≤ load) (ht : 0 ≤ tokens.toInt) (hc : 0 ≤ cost.toInt) :
    (s.unreserve tokens cost).Reflects load := by
  obtain ⟨-, hlt, hlc⟩ := hload
  refine ⟨?_, ?_, ?_⟩
  · have := h.requests
    simp only [UsageState.unreserve, loadOf, Prod.fst_add] at this ⊢
    omega
  · have := h.tokens
    have hzero : 0 ≤ load.2.1 := hlt
    simp only [UsageState.unreserve, UsageState.release, toInt_max64_sub hs.reservedTokens ht,
      loadOf, Prod.snd_add, Prod.fst_add] at this ⊢
    omega
  · have := h.costMicros
    have hzero : 0 ≤ load.2.2 := hlc
    simp only [UsageState.unreserve, UsageState.release, toInt_max64_sub hs.reservedCostMicros hc,
      loadOf, Prod.snd_add] at this ⊢
    omega

/-- Giving amounts back leaves the request counted. -/
theorem Reflects.release (h : s.Reflects (load + loadOf tokens cost)) (hs : s.Nonneg)
    (hload : 0 ≤ load) (ht : 0 ≤ tokens.toInt) (hc : 0 ≤ cost.toInt) :
    (s.release tokens cost).Reflects load := by
  have hoff := h.unreserve hs hload ht hc
  exact ⟨hoff.requests.trans (Nat.sub_le _ _), hoff.tokens, hoff.costMicros⟩

theorem Reflects.applyUsage (h : s.Reflects load) (event : UsageRecordedEvent) :
    (s.applyUsage event).Reflects load := by
  unfold UsageState.applyUsage
  split <;> exact ⟨h.requests, h.tokens, h.costMicros⟩

/-- Moving an attempt exchanges its old load for its new one. -/
theorem Reflects.move {principal : String} {was : Bool} (is : Bool) {amounts : Int64 × Int64}
    {attempt : AttemptState} (hattempt : attempt.WellFormed principal) (ht : 0 ≤ amounts.1.toInt)
    (hc : 0 ≤ amounts.2.toInt) (hs : s.Nonneg) (hload : 0 ≤ load)
    (h : s.Reflects (load + if was then attempt.load else 0)) :
    (s.move was is amounts attempt).Reflects
      (load + if is then loadOf amounts.1 amounts.2 else 0) := by
  have hoff : (if was then s.unreserve attempt.reservedTokens attempt.reservedCostMicros
      else s).Reflects load := by
    cases was with
    | false => exact add_zero load ▸ h
    | true => exact Reflects.unreserve h hs hload hattempt.tokens hattempt.cost
  cases is with
  | false => exact (add_zero load).symm ▸ hoff
  | true => exact hoff.reserve ht hc

/-- And so for attempts one after the other. -/
theorem Reflects.foldl_move {principal : String} {was : Bool} (is : Bool)
    {amounts : Int64 × Int64} {l : List AttemptState}
    (h : s.Reflects (load + (l.map fun attempt => if was then attempt.load else 0).sum))
    (ht : 0 ≤ amounts.1.toInt) (hc : 0 ≤ amounts.2.toInt)
    (hl : ∀ attempt ∈ l, attempt.WellFormed principal) (hs : s.Nonneg) (hload : 0 ≤ load) :
    (l.foldl (UsageState.move was is amounts) s).Reflects
      (load + (l.map fun _ => if is then loadOf amounts.1 amounts.2 else 0).sum) := by
  induction l generalizing s load with
  | nil =>
      rw [List.map_nil] at h ⊢
      exact h
  | cons attempt l ih =>
      have hattempt := hl attempt (by simp)
      have hrest := fun a ha => hl a (List.mem_cons_of_mem attempt ha)
      have hold : 0 ≤ (l.map fun attempt => if was then attempt.load else 0).sum := by
        refine List.sum_nonneg fun x hx => ?_
        obtain ⟨a, ha, rfl⟩ := List.mem_map.1 hx
        have := hrest a ha
        split
        · exact ⟨Nat.zero_le _, this.tokens, this.cost⟩
        · exact le_refl _
      have hnew : (0 : Load) ≤ if is then loadOf amounts.1 amounts.2 else 0 := by
        split
        · exact ⟨Nat.zero_le _, ht, hc⟩
        · exact le_refl _
      rw [List.map_cons, List.sum_cons, add_left_comm, add_comm] at h
      have hmoved := h.move is hattempt ht hc hs (add_nonneg hload hold)
      rw [add_right_comm] at hmoved
      have := ih hmoved hrest (move_nonneg was is attempt hs ht hc) (add_nonneg hload hnew)
      rwa [List.map_cons, List.sum_cons, ← add_assoc]

end UsageState

/-! ## Every change keeps them in step -/

/-- A manager's accounts with nothing amiss in them: every reservation is well
formed, nothing is negative, and every key reflects what is outstanding. -/
structure Accounts.Sound (a : Accounts) : Prop where
  wellFormed : a.WellFormed
  nonneg : ∀ slot window, (a.windows slot window).Nonneg
  reflects : ∀ {key}, Canonical key → ∀ u, (a.windows.get key u).Reflects (a.loadAt key u)

theorem loadAt_openReservation {clk : Clock} (id : String) (admission : AdmissionContext)
    {amounts : Int64 × Int64} {keys : List String} {key : String} {u : Int} :
    (Manager.openReservation clk id admission amounts keys).loadAt key u =
      (Manager.initialAttempt clk amounts keys).loadAt key u := by
  unfold ReservationState.loadAt Manager.openReservation
  rw [Table.total_set, Table.erase_of_none rfl, Table.total_empty, zero_add]

theorem loadAt_addAttempt {reservation : ReservationState} {attempt : AttemptState} {key : String}
    {u : Int} (hfresh : reservation.attempts.get? attempt.id = none) :
    (reservation.addAttempt attempt).loadAt key u =
      reservation.loadAt key u + attempt.loadAt key u := by
  unfold ReservationState.loadAt ReservationState.addAttempt
  rw [Table.total_set, key_attempt, Table.erase_of_none hfresh]

theorem loadAt_settled {reservation : ReservationState} {attempt : AttemptState} {key : String}
    {u : Int} (w : Windows) (event : UsageRecordedEvent)
    (hget : reservation.attempts.get? attempt.id = some attempt) :
    (Effect.reservationAfter w (.settled reservation attempt event)).loadAt key u +
      attempt.loadAt key u = reservation.loadAt key u := by
  have hattempts : ((reservation.releaseAttempt attempt).attempts.set
      { attempt with reservationReleased := true, settled := true }).total
        (AttemptState.loadAt key u) =
      (reservation.attempts.erase attempt.id).total (AttemptState.loadAt key u) := by
    rw [Table.total_set]
    have herase : (reservation.releaseAttempt attempt).attempts.erase attempt.id =
        reservation.attempts.erase attempt.id := by
      unfold ReservationState.releaseAttempt
      split
      · rfl
      · exact Table.erase_set_self (a := { attempt with reservationReleased := true }) _
    have hnone : AttemptState.loadAt key u
        { attempt with reservationReleased := true, settled := true } = 0 :=
      if_neg fun h => by simp [AttemptState.outstanding] at h
    rw [hnone, add_zero]
    exact congrArg (Table.total _) herase
  unfold ReservationState.loadAt Effect.reservationAfter
  dsimp only
  rw [hattempts]
  exact Table.total_erase_of_some hget

/-- What a reservation holds at a key: the attempts of the window, if the
reservation is charged there. -/
theorem loadAt_eq {reservation : ReservationState} (h : reservation.WellFormed) (key : String)
    (u : Int) : reservation.loadAt key u =
      ((Manager.attemptsIn reservation (truncateMinute u)).map fun attempt =>
        if key ∈ reservation.budgetKeys then attempt.load else 0).sum := by
  have hitems : ∀ attempt ∈ reservation.attempts.items, attempt.loadAt key u =
      if attempt.outstanding = true ∧ attempt.windowStarted = truncateMinute u then
        (if key ∈ reservation.budgetKeys then attempt.load else 0) else 0 := by
    intro attempt hin
    unfold AttemptState.loadAt
    by_cases ho : attempt.outstanding = true
    · simp only [AttemptState.ChargedAt, h.charged attempt hin ho]
      by_cases hw : attempt.windowStarted = truncateMinute u
      · simp [ho, hw]
      · simp [hw, Ne.symm hw]
    · simp [ho]
  unfold ReservationState.loadAt Table.total Manager.attemptsIn
    ReservationState.outstandingAttempts
  rw [List.map_congr_left hitems, List.sum_map_ite, List.filter_filter]
  simp [and_comm]

/-- A binding leaves as many attempts outstanding as it found. -/
theorem outstandingAttempts_bound (w : Windows) (reservation : ReservationState)
    (upstream : String) (newKeys : List String) (amounts : List AttemptReservationEvent) :
    (Effect.reservationAfter w
        (.bound reservation upstream newKeys amounts)).outstandingAttempts =
      reservation.outstandingAttempts.map fun attempt => attempt.rebind newKeys amounts := by
  have hkeeps : (AttemptState.outstanding ∘ fun attempt =>
      if attempt.outstanding then attempt.rebind newKeys amounts else attempt) =
        AttemptState.outstanding := by
    funext attempt
    simp only [Function.comp_apply]
    split
    · next ho =>
        simp only [AttemptState.outstanding, Bool.and_eq_true, Bool.not_eq_true'] at ho
        simp [AttemptState.outstanding, AttemptState.rebind, ho.1, ho.2]
    · rfl
  have hitems : (Effect.reservationAfter w
      (.bound reservation upstream newKeys amounts)).attempts.items = _ :=
    rebindReservation_attempts w reservation newKeys amounts
  unfold ReservationState.outstandingAttempts
  rw [hitems, List.filter_map, hkeeps]
  exact List.map_congr_left fun attempt hin => if_pos (List.mem_filter.1 hin).2

theorem loadAt_bound {m : Manager} (w : Windows) {reservation : ReservationState}
    (upstream : String) {newKeys : List String} (key : String) (u : Int)
    (hr : reservation.WellFormed) (hkeys : ReservationKeys reservation.principal newKeys) :
    let amounts := m.reservationAmountsForKeys reservation.model newKeys
    (Effect.reservationAfter w (.bound reservation upstream newKeys
        (m.attemptReservations reservation newKeys))).loadAt key u =
      ((Manager.attemptsIn reservation (truncateMinute u)).map fun _ =>
        if key ∈ newKeys then loadOf amounts.1 amounts.2 else 0).sum := by
  intro amounts
  rw [loadAt_eq (bound_wellFormed w upstream hr hkeys)]
  unfold Manager.attemptsIn
  rw [outstandingAttempts_bound, List.filter_map, List.map_map]
  refine congrArg List.sum (List.map_congr_left fun attempt hin => ?_)
  obtain ⟨hin, ho⟩ := List.mem_filter.1 (List.mem_of_mem_filter hin)
  simp only [Function.comp_apply, rebind_attemptReservations m newKeys hin ho]
  rfl

/-- What the other reservations hold is never negative. -/
theorem Accounts.others_nonneg {a : Accounts} (h : a.WellFormed) (id key : String) (u : Int) :
    0 ≤ (a.reservations.erase id).total (ReservationState.loadAt key u) :=
  Table.total_nonneg fun reservation hin =>
    (h reservation (Table.mem_erase.1 hin).1).loadAt_nonneg key u

/-- Putting an attempt on a key and counting it. -/
theorem reflects_applyAttemptReservation {w : Windows} {attempt : AttemptState}
    {principal key : String} {u : Int} {load : Load} (ha : attempt.WellFormed principal)
    (hrel : attempt.reservationReleased = false) (hkey : Canonical key)
    (h : (w.get key u).Reflects load) :
    ((w.applyAttemptReservation attempt).get key u).Reflects (load + attempt.loadAt key u) := by
  have ho : attempt.outstanding = true := by rw [ha.outstanding_eq, hrel]; rfl
  rw [get_applyAttemptReservation w ha hrel hkey]
  unfold AttemptState.loadAt
  by_cases hcharged : attempt.ChargedAt key u
  · rw [if_pos hcharged, if_pos ⟨ho, hcharged⟩]
    exact h.reserve ha.tokens ha.cost
  · rw [if_neg hcharged, if_neg fun hand => hcharged hand.2, add_zero]
    exact h

/-- Taking an attempt off a key and out of the count, if it was in it. -/
theorem reflects_releaseAttempt {w : Windows} {attempt : AttemptState} {principal key : String}
    {u : Int} {load : Load} (ha : attempt.WellFormed principal) (hkey : Canonical key)
    (hn : (w.get key u).Nonneg) (hload : 0 ≤ load)
    (h : (w.get key u).Reflects (load + attempt.loadAt key u)) :
    ((w.releaseAttempt attempt).get key u).Reflects load := by
  rw [get_releaseAttempt w ha hkey]
  unfold AttemptState.loadAt at h
  by_cases hcharged : attempt.reservationReleased = false ∧ attempt.ChargedAt key u
  · rw [if_pos ⟨by rw [ha.outstanding_eq, hcharged.1]; rfl, hcharged.2⟩] at h
    rw [if_pos hcharged]
    exact h.release hn hload ha.tokens ha.cost
  · have hnot : ¬(attempt.outstanding = true ∧ attempt.ChargedAt key u) := by
      rw [ha.outstanding_eq]
      exact fun hand => hcharged ⟨by simpa using hand.1, hand.2⟩
    rw [if_neg hnot, add_zero] at h
    rw [if_neg hcharged]
    exact h

theorem releaseAttempt_nonneg {w : Windows} (hn : ∀ slot window, (w slot window).Nonneg)
    (attempt : AttemptState) (slot : Slot) (window : Int) :
    ((w.releaseAttempt attempt) slot window).Nonneg :=
  (Windows.Rel.releaseAttempt respects_grows.toRespectsRelease w attempt slot window
    (hn slot window)).1

/-- Releasing a reservation's attempts takes its load off. -/
theorem reflects_releaseReservation {principal key : String} {u : Int} {load : Load}
    (hkey : Canonical key) (hload : 0 ≤ load) {l : List AttemptState}
    (hl : ∀ attempt ∈ l, attempt.WellFormed principal) {w : Windows}
    (hn : ∀ slot window, (w slot window).Nonneg)
    (h : (w.get key u).Reflects (load + (l.map (AttemptState.loadAt key u)).sum)) :
    ((l.foldl Windows.releaseAttempt w).get key u).Reflects load := by
  induction l generalizing w with
  | nil =>
      rw [List.map_nil, List.sum_nil, add_zero] at h
      exact h
  | cons attempt l ih =>
      have hrest := AttemptState.sum_loadAt_nonneg (fun a ha => hl a (List.mem_cons_of_mem _ ha)) key u
      rw [List.map_cons, List.sum_cons, add_left_comm, add_comm] at h
      have hattempt := hl attempt (by simp)
      have hoff := reflects_releaseAttempt hattempt hkey (hn _ _) (add_nonneg hload hrest) h
      exact ih (fun a ha => hl a (List.mem_cons_of_mem _ ha))
        (releaseAttempt_nonneg hn attempt) hoff

/-- Every change keeps the accounts sound. -/
theorem sound_apply {m : Manager} {op : Op} {e : Effect} (h : m.accounts.Sound)
    (he : e.Allowed m op) : (e.apply m.accounts).Sound := by
  refine ⟨wellFormed_apply h.wellFormed he, fun slot window =>
    (windowsAfter_rel respects_grows he slot window (h.nonneg slot window)).1, ?_⟩
  intro key hkey u
  have hbefore := h.reflects hkey u
  have hothers := Accounts.others_nonneg h.wellFormed e.id key u
  -- before and after the change: what the others hold, and this reservation
  have hfrom : ∀ {r : ReservationState}, m.reservations.get? r.id = some r →
      m.accounts.loadAt key u =
        (m.reservations.erase r.id).total (ReservationState.loadAt key u) + r.loadAt key u :=
    fun hget => (Table.total_erase_of_some hget).symm
  have hto : ∀ r : ReservationState,
      (m.reservations.set r).total (ReservationState.loadAt key u) =
        (m.reservations.erase r.id).total (ReservationState.loadAt key u) + r.loadAt key u :=
    fun r => Table.total_set _ _
  cases he with
  | @admitted id admission keys amounts htarget hnamed hp hfresh hcharged hreserved hlimits =>
      subst hcharged hreserved
      have hr := m.openReservation_charged op.clk id hp
      have hattempt := hr.attempts _ (by exact List.mem_singleton.2 rfl)
      have hon := reflects_applyAttemptReservation hattempt rfl hkey hbefore
      rw [← loadAt_openReservation id admission] at hon
      have hload := hto (Manager.openReservation op.clk id admission
        (m.reservationAmountsForKeys admission.model
          (m.config.budgetKeys admission admission.principal admission.model))
        (m.config.budgetKeys admission admission.principal admission.model))
      rw [show (Manager.openReservation op.clk id admission _ _).id = id from rfl,
        Table.erase_of_none hfresh] at hload
      exact Eq.mp (congrArg _ hload.symm) hon
  | @bound reservation raw upstream newKeys amounts hcall htrim hfound hnamed helse hcharged
      hreserved hlimits =>
      have hr := h.wellFormed _ (Table.mem_of_get? hfound)
      have hkeys : ReservationKeys reservation.principal newKeys :=
        hcharged ▸ budgetKeys_reservationKeys _ _ hr.principal _
      subst hreserved
      obtain ⟨ht, hc⟩ := m.amounts_nonneg reservation.model newKeys
      rw [hfrom hfound, loadAt_eq hr] at hbefore
      have hown : (m.windows.get key u).Reflects
          ((m.reservations.erase reservation.id).total (ReservationState.loadAt key u) +
            ((Manager.attemptsIn reservation (truncateMinute u)).map fun attempt =>
              if decide (key ∈ reservation.budgetKeys) then attempt.load else 0).sum) := by
        simpa using hbefore
      have hmoved := hown.foldl_move (decide (key ∈ newKeys)) ht hc
        (fun attempt hin => hr.attempts attempt
          (List.mem_of_mem_filter (List.mem_of_mem_filter hin))) (h.nonneg _ _) hothers
      have hload : (Effect.apply m.accounts (.bound reservation upstream newKeys
          (m.attemptReservations reservation newKeys))).loadAt key u = _ :=
        hto (Effect.reservationAfter m.windows (.bound reservation upstream newKeys
          (m.attemptReservations reservation newKeys)))
      rw [hload, loadAt_bound m.windows upstream key u hr hkeys, reservationAfter_id]
      simp only [decide_eq_true_eq] at hmoved
      exact (get_windowsAfter_bound m m.windows upstream u hr hkeys hkey) ▸ hmoved
  | @began reservation attemptID amounts htarget hfound hnamed hfresh hreserved hlimits =>
      subst hreserved
      have hr := h.wellFormed _ (Table.mem_of_get? hfound)
      obtain ⟨ht, hc⟩ := m.amounts_nonneg reservation.model reservation.budgetKeys
      have hon := reflects_applyAttemptReservation
        (allowedAttempt_wellFormed op.clk hnamed hr ht hc) rfl hkey hbefore
      rw [hfrom hfound, add_assoc, ← loadAt_addAttempt hfresh] at hon
      exact Eq.mp (congrArg _ (hto (reservation.addAttempt _)).symm) hon
  | @settled reservation attempt usage htarget hfound hnamed hbegun hfresh =>
      have hr := h.wellFormed _ (Table.mem_of_get? hfound)
      have hattempt := hr.attempts attempt (Table.mem_of_get? hbegun)
      have hr' := settled_wellFormed m.windows
        (m.usageEvent op.clk reservation attempt attempt.id usage) hr hbegun rfl
      rw [hfrom hfound, ← loadAt_settled m.windows
        (m.usageEvent op.clk reservation attempt attempt.id usage) hbegun, ← add_assoc] at hbefore
      have hoff := reflects_releaseAttempt hattempt hkey (h.nonneg _ _)
        (add_nonneg hothers (hr'.loadAt_nonneg key u)) hbefore
      have hload : (Effect.apply m.accounts (.settled reservation attempt
          (m.usageEvent op.clk reservation attempt attempt.id usage))).loadAt key u = _ :=
        hto (Effect.reservationAfter m.windows (.settled reservation attempt
          (m.usageEvent op.clk reservation attempt attempt.id usage)))
      rw [hload, reservationAfter_id]
      refine Eq.mpr (congrArg (UsageState.Reflects · _)
        (get_recordUsage _ hattempt hkey rfl)) ?_
      split
      · exact hoff.applyUsage _
      · exact hoff
  | @released reservation hcall hfound =>
      have hr := h.wellFormed _ (Table.mem_of_get? hfound)
      rw [hfrom hfound] at hbefore
      exact reflects_releaseReservation hkey hothers hr.attempts h.nonneg hbefore

/-- A manager nobody has called has sound accounts, and every call keeps them
so. -/
theorem Manager.run_sound {m : Manager} (hfresh : m.Fresh) (ops : List Op) :
    (m.run ops).accounts.Sound := by
  refine run_invariant (P := fun m => m.accounts.Sound)
    (fun hq h => hq.accounts.symm ▸ h)
    (fun hm h => hm.accounts.symm ▸ sound_apply h hm.allowed) ?_ ops
  refine ⟨run_wellFormed hfresh [], run_nonneg hfresh [], fun {key} _ u => ?_⟩
  have hload : m.accounts.loadAt key u = 0 := by
    unfold Accounts.loadAt
    rw [accounts_reservations, hfresh.reservations, Table.total_empty]
  rw [hload, accounts_windows, hfresh.windows]
  exact ⟨Nat.le_refl _, Int.le_refl _, Int.le_refl _⟩

end RelayLifeline.Governance
