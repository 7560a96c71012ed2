import RelayLifeline.Proofs.Usage

/-!
# The limits of the current window

Three paths let a charge in, and each tests a different sum. What they have in
common is that the sum they test is never below what they then install: an
admission and an attempt add exactly what they tested, and a binding takes its
attempts off their old keys first, so it adds no more. A change is therefore
summed up by how many attempts it places under a key, and that number is the
one the check counted.

The clock matters in two ways. A window after the latest reading has seen no
request yet, which is why moving into it starts from nothing; and no attempt
began after the latest reading, which is why a binding cannot add to such a
window either. An earlier window is not protected: a binding moves the
attempts of past minutes without looking at the limits of those minutes.
-/

namespace RelayLifeline.Governance

open Lib Lib.Word

/-! ## How much a change adds -/

/-- Nothing recorded, at most `n` more requests, and at most `n` times the
amounts more reserved. -/
structure UsageState.Adds (s s' : UsageState) (n : Nat) (t c : Int) : Prop where
  requests : s'.requests ≤ s.requests + n
  tokens : s'.tokens = s.tokens
  costMicros : s'.costMicros = s.costMicros
  reservedTokens : s'.reservedTokens.toInt ≤ s.reservedTokens.toInt + n * t
  reservedCostMicros : s'.reservedCostMicros.toInt ≤ s.reservedCostMicros.toInt + n * c

namespace UsageState

variable {s s' s'' : UsageState} {t c : Int}

theorem Adds.refl (s : UsageState) (t c : Int) : s.Adds s 0 t c :=
  ⟨Nat.le_refl _, rfl, rfl, by simp, by simp⟩

theorem Adds.trans {n n' : Nat} (h : s.Adds s' n t c) (h' : s'.Adds s'' n' t c) :
    s.Adds s'' (n + n') t c := by
  have ht : ((n + n' : Nat) : Int) * t = n * t + n' * t := by rw [Nat.cast_add, Int.add_mul]
  have hc : ((n + n' : Nat) : Int) * c = n * c + n' * c := by rw [Nat.cast_add, Int.add_mul]
  have := h.requests
  have := h'.requests
  have := h.reservedTokens
  have := h'.reservedTokens
  have := h.reservedCostMicros
  have := h'.reservedCostMicros
  refine ⟨by omega, h'.tokens.trans h.tokens, h'.costMicros.trans h.costMicros, ?_, ?_⟩
  · rw [ht]
    omega
  · rw [hc]
    omega

theorem adds_reserve (s : UsageState) {tokens cost : Int64} (ht : 0 ≤ tokens.toInt)
    (hc : 0 ≤ cost.toInt) : s.Adds (s.reserve tokens cost) 1 tokens.toInt cost.toInt := by
  refine ⟨Nat.le_refl _, rfl, rfl, ?_, ?_⟩
  · simp only [reserve, toInt_safeAdd64 ht]
    omega
  · simp only [reserve, toInt_safeAdd64 hc]
    omega

theorem adds_unreserve (s : UsageState) {tokens cost : Int64} (hs : s.Nonneg)
    (ht : 0 ≤ tokens.toInt) (hc : 0 ≤ cost.toInt) : s.Adds (s.unreserve tokens cost) 0 t c := by
  have := hs.reservedTokens
  have := hs.reservedCostMicros
  refine ⟨Nat.sub_le _ _, rfl, rfl, ?_, ?_⟩
  · simp only [unreserve, release, toInt_max64_sub hs.reservedTokens ht]
    omega
  · simp only [unreserve, release, toInt_max64_sub hs.reservedCostMicros hc]
    omega

end UsageState

/-- How many attempts a change places under a key in the window of a time. -/
def Effect.places (key : String) (window : Int) : Effect → Nat
  | .admitted _ attempt => if attempt.ChargedAt key window then 1 else 0
  | .bound reservation _ newKeys _ =>
      if key ∈ newKeys then (Manager.attemptsIn reservation (truncateMinute window)).length else 0
  | .began _ attempt => if attempt.ChargedAt key window then 1 else 0
  | .settled _ _ _ => 0
  | .released _ => 0

namespace UsageState

theorem adds_move {s : UsageState} {amounts : Int64 × Int64} (was is : Bool)
    {attempt : AttemptState} {principal : String} (hs : s.Nonneg)
    (ha : attempt.WellFormed principal) (ht : 0 ≤ amounts.1.toInt) (hc : 0 ≤ amounts.2.toInt) :
    s.Adds (s.move was is amounts attempt) (if is then 1 else 0) amounts.1.toInt
      amounts.2.toInt := by
  have hoff := adds_unreserve (t := amounts.1.toInt) (c := amounts.2.toInt) s hs ha.tokens ha.cost
  cases was <;> cases is
  · exact .refl _ _ _
  · exact adds_reserve s ht hc
  · exact hoff
  · exact hoff.trans (adds_reserve _ ht hc)

/-- Moving attempts one after the other adds one for each at the most. -/
theorem adds_foldl_move {amounts : Int64 × Int64} (was is : Bool) {principal : String}
    (ht : 0 ≤ amounts.1.toInt) (hc : 0 ≤ amounts.2.toInt) {l : List AttemptState}
    (hl : ∀ attempt ∈ l, attempt.WellFormed principal) {s : UsageState} (hs : s.Nonneg) :
    s.Adds (l.foldl (move was is amounts) s) (if is then l.length else 0) amounts.1.toInt
      amounts.2.toInt := by
  induction l generalizing s with
  | nil =>
      rw [List.length_nil, ite_self]
      exact .refl _ _ _
  | cons attempt l ih =>
      have hhead := adds_move was is hs (hl attempt (by simp)) ht hc
      have htail := ih (fun a ha => hl a (List.mem_cons_of_mem _ ha))
        (move_nonneg was is attempt hs ht hc)
      have hsum : (if is then (attempt :: l).length else 0) =
          (if is then 1 else 0) + if is then l.length else 0 := by
        cases is <;> simp [Nat.add_comm]
      rw [hsum]
      exact hhead.trans htail

end UsageState

/-- A demanding change adds what it places, with the amounts it was granted. -/
theorem adds_of_allowed {m : Manager} {op : Op} {e : Effect} {d : Demand} {key : String}
    {u : Int} (hwf : m.accounts.WellFormed) (he : e.Allowed m op)
    (hdemand : e.demand m op.clk = some d) (hkey : Canonical key)
    (hn : (m.windows.get key u).Nonneg) :
    (m.windows.get key u).Adds ((e.windowsAfter m.windows).get key u) (e.places key u)
      d.tokens.toInt d.costMicros.toInt := by
  have hone : ∀ {attempt : AttemptState} {principal : String}, attempt.WellFormed principal →
      attempt.reservationReleased = false →
      (m.windows.get key u).Adds ((m.windows.applyAttemptReservation attempt).get key u)
        (if attempt.ChargedAt key u then 1 else 0) attempt.reservedTokens.toInt
        attempt.reservedCostMicros.toInt := by
    intro attempt principal hattempt hrel
    rw [get_applyAttemptReservation _ hattempt hrel hkey]
    split
    · exact UsageState.adds_reserve _ hattempt.tokens hattempt.cost
    · exact .refl _ _ _
  cases he with
  | @admitted id admission keys amounts htarget hnamed hp hfresh hcharged hreserved hlimits =>
      subst hcharged hreserved
      have hr := m.openReservation_charged op.clk id hp
      cases hdemand
      exact hone (hr.attempts _ (by exact List.mem_singleton.2 rfl)) rfl
  | @bound reservation raw upstream newKeys amounts hcall htrim hfound hnamed helse hcharged
      hreserved hlimits =>
      have hr := hwf _ (Table.mem_of_get? hfound)
      have hkeys : ReservationKeys reservation.principal newKeys :=
        hcharged ▸ budgetKeys_reservationKeys _ _ hr.principal _
      subst hreserved
      cases hdemand
      obtain ⟨ht, hc⟩ := m.amounts_nonneg reservation.model newKeys
      rw [get_windowsAfter_bound m m.windows upstream u hr hkeys hkey]
      have hadds := UsageState.adds_foldl_move (decide (key ∈ reservation.budgetKeys))
        (decide (key ∈ newKeys)) ht hc (l := Manager.attemptsIn reservation (truncateMinute u))
        (fun attempt hin => hr.attempts attempt
          (List.mem_of_mem_filter (List.mem_of_mem_filter hin))) hn
      simpa [Effect.places] using hadds
  | @began reservation attemptID amounts htarget hfound hnamed hfresh hreserved hlimits =>
      subst hreserved
      have hr := hwf _ (Table.mem_of_get? hfound)
      obtain ⟨ht, hc⟩ := m.amounts_nonneg reservation.model reservation.budgetKeys
      cases hdemand
      exact hone (allowedAttempt_wellFormed op.clk hnamed hr ht hc) rfl
  | settled htarget hfound hnamed hbegun hfresh => cases hdemand
  | released hcall hfound => cases hdemand

/-- A change adds no more requests than it places. -/
theorem requests_of_allowed {m : Manager} {op : Op} {e : Effect} {key : String} {u : Int}
    (hwf : m.accounts.WellFormed) (he : e.Allowed m op) (hkey : Canonical key)
    (hn : (m.windows.get key u).Nonneg) :
    ((e.windowsAfter m.windows).get key u).requests ≤
      (m.windows.get key u).requests + e.places key u := by
  have hsame : RespectsSettling fun s s' => s'.requests ≤ s.requests :=
    ⟨⟨fun _ => Nat.le_refl _, fun h h' => h'.trans h, fun _ _ _ => Nat.le_refl _⟩, fun s event => by
      unfold UsageState.applyUsage
      split <;> exact Nat.le_refl _⟩
  cases e with
  | admitted reservation attempt => exact (adds_of_allowed hwf he rfl hkey hn).requests
  | bound reservation upstream newKeys amounts =>
      exact (adds_of_allowed hwf he rfl hkey hn).requests
  | began reservation attempt => exact (adds_of_allowed hwf he rfl hkey hn).requests
  | settled reservation attempt event => exact windowsAfter_settled_rel hsame _ _ _ _ _ _
  | released reservation => exact windowsAfter_released_rel hsame.toRespectsRelease _ _ _ _

/-- In the current window a demanding change places what was counted, and only
under the keys it charges. -/
theorem places_le {m : Manager} {op : Op} {e : Effect} {d : Demand} (key : String)
    (hdemand : e.demand m op.clk = some d) :
    e.places key op.clk.window ≤ if key ∈ d.keys then d.count else 0 := by
  have hone : ∀ attempt : AttemptState,
      (if attempt.ChargedAt key op.clk.window then 1 else 0) ≤
        if key ∈ attempt.budgetKeys then 1 else 0 := by
    intro attempt
    split
    · next hcharged => rw [if_pos hcharged.1]
    · exact Nat.zero_le _
  cases e with
  | admitted reservation attempt =>
      cases hdemand
      exact hone attempt
  | bound reservation upstream newKeys amounts =>
      cases hdemand
      simp only [Effect.places, Clock.truncateMinute_window]
      exact Nat.le_refl _
  | began reservation attempt =>
      cases hdemand
      exact hone attempt
  | settled reservation attempt event => cases hdemand
  | released reservation => cases hdemand

/-! ## Requests of the current window -/

/-- No attempt began after a time. -/
def ReservationState.BegunBy (reservation : ReservationState) (now : Int) : Prop :=
  ∀ attempt ∈ reservation.attempts.items, attempt.windowStarted ≤ now

/-- What holds of a manager whose calls were all made by a time: no attempt
began later, no later window has a request, and the window of that time has no
more than its limit. -/
structure Manager.Paced (m : Manager) (now : Int) : Prop where
  enforcing : m.enforcing = true
  wellFormed : m.accounts.WellFormed
  nonneg : ∀ slot window, (m.windows slot window).Nonneg
  begun : ∀ reservation ∈ m.reservations.items, reservation.BegunBy now
  later : ∀ {key}, Canonical key → ∀ {u}, now < truncateMinute u →
    (m.windows.get key u).requests = 0
  rate : ∀ {key}, Canonical key → 0 < (m.config.budgetForKey key).requestsPerMinute →
    (m.windows.get key now).requests ≤ (m.config.budgetForKey key).requestsPerMinute

theorem reservationAfter_begunBy {m : Manager} {op : Op} {e : Effect} {now : Int}
    (he : e.Allowed m op) (hnow : op.clk.now ≤ now)
    (h : ∀ reservation ∈ m.reservations.items, reservation.BegunBy now) :
    (e.reservationAfter m.windows).BegunBy now := by
  have hopened : op.clk.window ≤ now := op.clk.window_le_now.trans hnow
  intro attempt hin
  cases he with
  | admitted htarget hnamed hp hfresh hcharged hreserved hlimits =>
      rw [List.mem_singleton.1 hin]
      exact hopened
  | bound hcall htrim hfound hnamed helse hcharged hreserved hlimits =>
      obtain ⟨old, hold, rfl⟩ := (mem_bound_attempts m.windows _ _ _ attempt).1 hin
      have := h _ (Table.mem_of_get? hfound) old hold
      split <;> exact this
  | began htarget hfound hnamed hfresh hreserved hlimits =>
      rcases Table.mem_set.1 hin with rfl | ⟨hin, -⟩
      · exact hopened
      · exact h _ (Table.mem_of_get? hfound) attempt hin
  | settled htarget hfound hnamed hbegun hfresh =>
      have hr := h _ (Table.mem_of_get? hfound)
      rcases (mem_settled_attempts _ _ _).1 hin with rfl | ⟨hin, -⟩
      · have := hr _ (Table.mem_of_get? hbegun)
        exact this
      · exact hr attempt hin
  | released hcall hfound => exact h _ (Table.mem_of_get? hfound) attempt hin

/-- A change places nothing in a window that has not begun. -/
theorem places_later {m : Manager} {op : Op} {e : Effect} {now u : Int} (key : String)
    (he : e.Allowed m op) (hnow : op.clk.now ≤ now)
    (h : ∀ reservation ∈ m.reservations.items, reservation.BegunBy now)
    (hu : now < truncateMinute u) : e.places key u = 0 := by
  have hopened : op.clk.window ≤ now := op.clk.window_le_now.trans hnow
  cases he with
  | admitted htarget hnamed hp hfresh hcharged hreserved hlimits =>
      refine if_neg fun hcharged => ?_
      have := hcharged.2
      simp only [Manager.initialAttempt] at this
      omega
  | bound hcall htrim hfound hnamed helse hcharged hreserved hlimits =>
      simp only [Effect.places]
      split
      · rw [List.length_eq_zero_iff]
        refine List.filter_eq_nil_iff.2 fun attempt hin => ?_
        have := h _ (Table.mem_of_get? hfound) attempt (List.mem_of_mem_filter hin)
        simp only [decide_eq_true_eq]
        omega
      · rfl
  | began htarget hfound hnamed hfresh hreserved hlimits =>
      refine if_neg fun hcharged => ?_
      have := hcharged.2
      simp only [Manager.allowedAttempt] at this
      omega
  | settled htarget hfound hnamed hbegun hfresh => rfl
  | released hcall hfound => rfl

namespace Manager.Paced

variable {m m' : Manager} {now : Int}

/-- Time may pass. -/
theorem wait {now' : Int} (h : m.Paced now) (hle : now ≤ now') : m.Paced now' := by
  refine ⟨h.enforcing, h.wellFormed, h.nonneg,
    fun r hr a ha => (h.begun r hr a ha).trans hle,
    fun hkey u hu => h.later hkey (hle.trans_lt hu), fun hkey hpos => ?_⟩
  rcases truncateMinute_of_le hle with hsame | hlater
  · have := h.rate hkey hpos
    unfold Windows.get at this ⊢
    rwa [hsame]
  · rw [h.later hkey hlater]
    exact Nat.zero_le _

theorem quiet (h : m.Paced now) (hq : Manager.Quiet m m') : m'.Paced now := by
  refine ⟨hq.enforcing.trans h.enforcing, hq.accounts.symm ▸ h.wellFormed, ?_, ?_, ?_, ?_⟩
  · rw [hq.windows]
    exact h.nonneg
  · rw [hq.reservations]
    exact h.begun
  · rw [hq.windows]
    exact h.later
  · rw [hq.config, hq.windows]
    exact h.rate

/-- A change made now keeps the current window within its limit, because what
it places there is what its check counted. -/
theorem makes {op : Op} {e : Effect} (h : m.Paced op.clk.now)
    (hmakes : Manager.Makes op m e m') : m'.Paced op.clk.now := by
  have hallowed := hmakes.allowed
  refine ⟨hmakes.enforcing.trans h.enforcing,
    hmakes.accounts.symm ▸ wellFormed_apply h.wellFormed hallowed, ?_, ?_, ?_, ?_⟩
  · intro slot window
    rw [hmakes.windows]
    exact (windowsAfter_rel respects_grows hallowed slot window (h.nonneg slot window)).1
  · intro reservation hin
    have hafter := reservationAfter_begunBy hallowed (Int.le_refl _) h.begun
    rw [hmakes.reservations] at hin
    cases e with
    | released reservation => exact h.begun _ (Table.mem_erase.1 hin).1
    | _ =>
        rcases Table.mem_set.1 hin with rfl | ⟨hin, -⟩
        · exact hafter
        · exact h.begun _ hin
  · intro key hkey u hu
    have hle := requests_of_allowed h.wellFormed hallowed hkey (h.nonneg _ (truncateMinute u))
    rw [h.later hkey hu, places_later key hallowed (Int.le_refl _) h.begun hu] at hle
    rw [hmakes.windows]
    exact Nat.le_zero.1 hle
  · intro key hkey hpos
    rw [hmakes.config] at hpos ⊢
    have hbefore := h.rate hkey hpos
    have hle := requests_of_allowed h.wellFormed hallowed hkey
      (h.nonneg _ (truncateMinute op.clk.window))
    have hsame : ∀ w : Windows, w.get key op.clk.now = w.get key op.clk.window := by
      intro w
      unfold Windows.get
      rw [op.clk.truncateMinute_window]
      rfl
    rw [hsame] at hbefore ⊢
    rw [hmakes.windows]
    cases hdemand : e.demand m op.clk with
    | none =>
        have hnone : e.places key op.clk.window = 0 := by
          cases e with
          | settled reservation attempt event => rfl
          | released reservation => rfl
          | _ => cases hdemand
        omega
    | some d =>
        have hplaces := places_le key hdemand
        split at hplaces
        · next hcharged =>
            obtain ⟨t, c, hchecked⟩ := checked_of_allowed hallowed hdemand h.enforcing hcharged
            obtain ⟨active, hallows⟩ := hchecked.allows
            have := hallows.rate hpos
            omega
        · omega

/-- Any call made now. -/
theorem perform {op : Op} (h : m.Paced op.clk.now) : (m.perform op).Paced op.clk.now :=
  (m.perform_transition op).invariant (P := fun m => m.Paced op.clk.now)
    (fun hq h => h.quiet hq) (fun hm h => h.makes hm) h

end Manager.Paced

namespace Manager

/-- The calls of a run, made by a clock that does not run backwards. -/
def Chronological (ops : List Op) : Prop := ops.Pairwise fun a b => a.clk.now ≤ b.clk.now

theorem run_paced {m : Manager} {since now : Int} (h : m.Paced since) {ops : List Op}
    (hclock : Chronological ops) (hsince : ∀ op ∈ ops, since ≤ op.clk.now)
    (hle : since ≤ now) (hnow : ∀ op ∈ ops, op.clk.now ≤ now) : (m.run ops).Paced now := by
  induction ops generalizing m since with
  | nil => exact h.wait hle
  | cons op ops ih =>
      obtain ⟨hfirst, hclock⟩ := List.pairwise_cons.1 hclock
      have hop := (h.wait (hsince op (by simp))).perform
      exact ih hop hclock hfirst (hnow op (by simp))
        (fun later hin => hnow later (List.mem_cons_of_mem _ hin))

/-- Nothing has happened yet, at whatever time. -/
theorem Fresh.paced {m : Manager} (hfresh : m.Fresh) (henf : m.enforcing) (now : Int) :
    m.Paced now := by
  refine ⟨henf, run_wellFormed hfresh [], run_nonneg hfresh [], ?_, ?_, ?_⟩
  · rw [hfresh.reservations]
    exact fun _ hin => absurd hin List.not_mem_nil
  · intro key _ u _
    rw [hfresh.windows]
    rfl
  · intro key _ _
    rw [hfresh.windows]
    exact Nat.zero_le _

/-! ## Amounts after a granted call -/

/-- The reservation a granted call leaves is charged under the keys it asked
for. -/
theorem budgetKeys_of_demand {m m' : Manager} {op : Op} {e : Effect} {d : Demand}
    {reservation : ReservationState} (hmakes : Makes op m e m')
    (hdemand : e.demand m op.clk = some d)
    (hget : m'.reservations.get? op.call.id = some reservation) : reservation.budgetKeys = d.keys := by
  have hset := hmakes.reservations
  have hid : op.call.id = e.id := by
    cases hmakes.allowed with
    | admitted htarget => exact htarget
    | bound hcall => exact congrArg Call.id hcall
    | began htarget => exact htarget
    | settled htarget => exact htarget
    | released hcall => exact congrArg Call.id hcall
  have hafter : ∀ r : ReservationState, r.id = e.id →
      m'.reservations = m.reservations.set r → reservation = r := by
    intro r hr heq
    rw [heq, hid, ← hr] at hget
    exact (Option.some.inj ((Table.get?_set_self (a := r)).symm.trans hget)).symm
  cases hallowed : hmakes.allowed with
  | admitted htarget hnamed hp hfresh hcharged hreserved hlimits =>
      cases hdemand
      rw [hafter _ rfl hset]
      rfl
  | bound hcall htrim hfound hnamed helse hcharged hreserved hlimits =>
      cases hdemand
      rw [hafter _ (reservationAfter_id _ _) hset]
      rfl
  | @began reservation attemptID amounts htarget hfound hnamed hfresh hreserved hlimits =>
      cases hdemand
      rw [hafter (reservation.addAttempt _) rfl hset]
      rfl
  | settled htarget hfound hnamed hbegun hfresh => cases hdemand
  | released hcall hfound => cases hdemand

/-- A demand is for canonical keys. -/
theorem canonical_of_demand {m : Manager} {op : Op} {e : Effect} {d : Demand}
    (hwf : m.accounts.WellFormed) (he : e.Allowed m op) (hdemand : e.demand m op.clk = some d) :
    ∀ key ∈ d.keys, Canonical key := by
  cases he with
  | admitted htarget hnamed hp hfresh hcharged hreserved hlimits =>
      cases hdemand
      subst hcharged
      exact (budgetKeys_reservationKeys _ _ hp _).canonical
  | bound hcall htrim hfound hnamed helse hcharged hreserved hlimits =>
      cases hdemand
      subst hcharged
      exact (budgetKeys_reservationKeys _ _ (hwf _ (Table.mem_of_get? hfound)).principal _).canonical
  | began htarget hfound hnamed hfresh hreserved hlimits =>
      cases hdemand
      exact (hwf _ (Table.mem_of_get? hfound)).keys.canonical
  | settled htarget hfound hnamed hbegun hfresh => cases hdemand
  | released hcall hfound => cases hdemand

/-- A granted call leaves every key it charges within its token and cost
limits, if the sums it was checked with fit. -/
theorem amounts_within {m m' : Manager} {op : Op} {e : Effect} {d : Demand} {key : String}
    (henf : m.enforcing) (hwf : m.accounts.WellFormed)
    (hn : (m.windows.get key op.clk.window).Nonneg) (hmakes : Makes op m e m')
    (hasked : m.demand op = some d) (hdemand : e.demand m op.clk = some d) (hkey : key ∈ d.keys) :
    let limits := m.config.budgetForKey key
    let before := m.windows.get key op.clk.window
    let after := m'.windows.get key op.clk.window
    (0 < limits.tokenLimit.toInt → d.tokensAt before < 2 ^ 63 →
      after.tokens.toInt + after.reservedTokens.toInt ≤ limits.tokenLimit.toInt) ∧
    (0 < limits.costLimitMicros.toInt → d.costAt before < 2 ^ 63 →
      after.costMicros.toInt + after.reservedCostMicros.toInt ≤ limits.costLimitMicros.toInt) := by
  dsimp only
  have hallowed := hmakes.allowed
  have hcanonical := canonical_of_demand hwf hallowed hdemand key hkey
  have hadds := adds_of_allowed hwf hallowed hdemand hcanonical hn
  obtain ⟨t, c, ⟨active, hallows⟩, htokens, hcost⟩ := checked_of_allowed hallowed hdemand henf hkey
  have hplaces := places_le key hdemand
  rw [if_pos hkey] at hplaces
  have hcount : ((e.places key op.clk.window : Nat) : Int) ≤ d.count := by exact_mod_cast hplaces
  obtain ⟨ht, hc⟩ := amount_of_demand hasked
  have hmt := Int.mul_le_mul_of_nonneg_right hcount ht
  have hmc := Int.mul_le_mul_of_nonneg_right hcount hc
  rw [hmakes.windows, hadds.tokens, hadds.costMicros]
  constructor
  · intro hpos hfits
    have hle := Int64.le_iff_toInt_le.1 (hallows.token (pos_iff.2 hpos))
    have := hadds.reservedTokens
    rw [htokens hn hfits, Demand.tokensAt] at hle
    omega
  · intro hpos hfits
    have hle := Int64.le_iff_toInt_le.1 (hallows.cost (pos_iff.2 hpos))
    have := hadds.reservedCostMicros
    rw [hcost hn hfits, Demand.costAt] at hle
    omega

/-- In every run by a clock that does not run backwards, no key has more
requests in the current window than its limit; and a call that was granted
what it asked for leaves each key of its reservation within the token and the
cost limit of that window. -/
theorem limits_of_current_window (m : Manager) (hfresh : m.Fresh) (henf : m.enforcing)
    (ops : List Op) (hclock : Chronological ops) :
    (∀ (scope : Scope) (value : String) (now : Int), (∀ op ∈ ops, op.clk.now ≤ now) →
      0 < (m.config.budgetForKey (scope.key value)).requestsPerMinute →
      ((m.run ops).windows.get (scope.key value) now).requests ≤
        (m.config.budgetForKey (scope.key value)).requestsPerMinute) ∧
    ∀ (op : Op) (d : Demand) (reservation : ReservationState),
      (m.run ops).demand op = some d → (m.run ops).answer op = none →
      ((m.run ops).perform op).reservations.get? op.call.id = some reservation →
      ∀ key ∈ reservation.budgetKeys,
        let limits := m.config.budgetForKey key
        let before := (m.run ops).windows.get key op.clk.window
        let after := ((m.run ops).perform op).windows.get key op.clk.window
        (0 < limits.tokenLimit.toInt → d.tokensAt before < 2 ^ 63 →
          after.tokens.toInt + after.reservedTokens.toInt ≤ limits.tokenLimit.toInt) ∧
        (0 < limits.costLimitMicros.toInt → d.costAt before < 2 ^ 63 →
          after.costMicros.toInt + after.reservedCostMicros.toInt ≤
            limits.costLimitMicros.toInt) := by
  constructor
  · intro scope value now hnow hpos
    obtain ⟨since, hsince, hle⟩ : ∃ since, (∀ op ∈ ops, since ≤ op.clk.now) ∧ since ≤ now := by
      cases ops with
      | nil => exact ⟨now, fun _ hin => absurd hin List.not_mem_nil, Int.le_refl _⟩
      | cons first ops =>
          refine ⟨first.clk.now, fun op hin => ?_, hnow first (by simp)⟩
          rcases List.mem_cons.1 hin with rfl | hin
          · exact Int.le_refl _
          · exact (List.pairwise_cons.1 hclock).1 op hin
    have hpaced := run_paced (hfresh.paced henf since) hclock hsince hle hnow
    have hrate := hpaced.rate ⟨scope, value, rfl⟩
    rw [run_config] at hrate
    exact hrate hpos
  · intro op d reservation hasked hanswer hget key hkey
    have h := asked_of_demand hasked
    rw [hanswer] at h
    rcases h with _ | ⟨hnothing, _⟩ | ⟨hasked', hdemand, hmakes⟩
    · rw [hasked] at hnothing
      cases hnothing
    · rw [hasked] at hasked'
      cases hasked'
      rw [budgetKeys_of_demand hmakes hdemand hget] at hkey
      have henf' : (m.run ops).enforcing = true := by
        unfold enforcing
        rw [run_config]
        exact henf
      rw [← run_config m ops]
      exact amounts_within henf' (run_wellFormed hfresh ops) (run_nonneg hfresh _ _ _) hmakes hasked
        hdemand hkey

/-- One request a minute, and five tokens. -/
def onePerMinute : Manager where
  config := { mode := .enforce, requestsPerMinute := 1, tokenLimit := 5, token_nonneg := five_nonneg }

def twoMinutes : List Op :=
  [⟨{ now := minute, stamp := 0 }, .admitWithContext false "a" { principal := "alice" }⟩,
   ⟨{ now := minute, stamp := 0 }, .beginAttempt "a" "attempt-2"⟩,
   ⟨{ now := 2 * minute, stamp := 0 }, .beginAttempt "a" "attempt-2"⟩]

/-- The second attempt waits for the next minute, and the second client for
the one after that. -/
theorem limits_of_twoMinutes :
    ((onePerMinute.run twoMinutes).windows.get (Scope.principal.key "alice")
        (2 * minute)).requests ≤ 1 ∧
      let after := ((onePerMinute.run twoMinutes).perform
        ⟨{ now := 3 * minute, stamp := 0 }, .admitWithContext false "b" { principal := "alice" }⟩).windows.get
          (Scope.principal.key "alice") (3 * minute)
      after.tokens.toInt + after.reservedTokens.toInt ≤ 5 := by
  have h := limits_of_current_window onePerMinute ⟨rfl, rfl, rfl, rfl⟩ rfl twoMinutes
    (by unfold Chronological; decide +kernel)
  refine ⟨h.1 .principal "alice" (2 * minute) (by decide +kernel) (by decide +kernel), ?_⟩
  exact (h.2 ⟨{ now := 3 * minute, stamp := 0 }, .admitWithContext false "b" { principal := "alice" }⟩
    ⟨[Scope.principal.key "alice"], 1, 1, 0⟩ _ (by rfl) (by decide +kernel) (by rfl)
    (Scope.principal.key "alice") (by decide +kernel)).1 (by decide +kernel) (by decide +kernel)

end Manager

end RelayLifeline.Governance
