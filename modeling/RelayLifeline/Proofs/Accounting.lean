import RelayLifeline.Governance.Effects

/-!
# Accounting, key by key

A change of the accounts walks a list of keys and, to bind, a list of
attempts. Here each walk is read at one key and one window: a charge acts
there once if the key is charged, and not at all otherwise, because the
manager's keys name different slots. The well-formedness of a reservation is
what makes that so, and it holds of every reservation a manager ever makes.
-/

namespace RelayLifeline.Governance

open Lib

/-! ## Slots -/

theorem slotOf_key (scope : Scope) (value : String) :
    slotOf (scope.key value) =
      if scope = .principal then .principal value else .dimension (scope.key value) := by
  unfold slotOf
  rw [parseBudgetKey_key]
  cases scope <;> rfl

theorem slotOf_inj {k k' : String} (h : Canonical k) (h' : Canonical k') :
    slotOf k = slotOf k' ↔ k = k' := by
  refine ⟨fun heq => ?_, congrArg slotOf⟩
  obtain ⟨scope, value, rfl⟩ := h
  obtain ⟨scope', value', rfl⟩ := h'
  simp only [slotOf_key] at heq
  split at heq
  · next hp =>
      split at heq
      · next hp' =>
          cases heq
          rw [hp, hp']
      · cases heq
  · split at heq
    · cases heq
    · exact Slot.dimension.inj heq

namespace Windows

variable {w : Windows} {f : UsageState → UsageState} {k : String} {t u : Int}

theorem get_modify (w : Windows) (k k' : String) (t u : Int) (f : UsageState → UsageState) :
    (w.modify k t f).get k' u =
      if slotOf k' = slotOf k ∧ truncateMinute u = truncateMinute t then f (w.get k' u)
      else w.get k' u := rfl

/-- A charge acts once on the keys it lists. -/
theorem get_charge {keys : List String} (hkeys : ∀ key ∈ keys, Canonical key)
    (hnd : keys.Nodup) (hk : Canonical k) :
    (w.charge keys t f).get k u =
      if k ∈ keys ∧ truncateMinute u = truncateMinute t then f (w.get k u) else w.get k u := by
  unfold charge
  induction keys generalizing w with
  | nil => simp
  | cons key keys ih =>
      obtain ⟨hnot, hnd⟩ := List.nodup_cons.1 hnd
      obtain ⟨hkey, hkeys⟩ := List.forall_mem_cons.1 hkeys
      simp only [List.foldl_cons, ih hkeys hnd, get_modify, slotOf_inj hk hkey]
      by_cases hkk : k = key
      · subst hkk
        simp [hnot]
      · simp [hkk]

end Windows

/-! ## Keys of a reservation -/

/-- The keys a reservation of this principal is charged under: its own
principal's key, and keys of the other scopes. -/
structure ReservationKeys (principal : String) (keys : List String) : Prop
    extends CanonicalKeys keys where
  own : Scope.principal.key principal ∈ keys
  only : ∀ key ∈ keys, budgetKeyScope key = "principal" → key = Scope.principal.key principal

theorem budgetKeyScope_key (scope : Scope) (value : String) :
    budgetKeyScope (scope.key value) = scope.text := by
  unfold budgetKeyScope
  rw [parseBudgetKey_key]

theorem budgetKeys_reservationKeys (cfg : GovernanceConfig) (admission : AdmissionContext)
    {principal : String} (hp : principal ≠ "") (model : String) :
    ReservationKeys principal (cfg.budgetKeys admission principal model) := by
  unfold GovernanceConfig.budgetKeys
  refine List.foldlRecOn (motive := ReservationKeys principal) cfg.budgets _ ?_ ?_
  · refine ⟨⟨by simp, ?_, ?_, by simp⟩, by simp [Scope.key, Scope.text], ?_⟩
    · intro key hkey
      exact ⟨.principal, principal, List.mem_singleton.1 hkey⟩
    · intro key hkey
      rw [List.mem_singleton.1 hkey, show canonicalBudgetKey "principal" principal =
        Scope.principal.key principal from rfl, parseBudgetKey_key]
      exact hp
    · intro key hkey _
      exact List.mem_singleton.1 hkey
  · intro keys h budget _
    dsimp only
    generalize hval : GovernanceConfig.scopeValue admission principal model budget.scope = value
    split
    · next hv =>
        split
        · exact h
        · next hnot =>
            refine ⟨⟨by simp, ?_, ?_, ?_⟩, List.mem_append_left _ h.own, ?_⟩
            · intro key hkey
              rcases List.mem_append.1 hkey with hkey | hkey
              · exact h.canonical key hkey
              · exact ⟨budget.scope, value, List.mem_singleton.1 hkey⟩
            · intro key hkey
              rcases List.mem_append.1 hkey with hkey | hkey
              · exact h.valued key hkey
              · rw [List.mem_singleton.1 hkey, show canonicalBudgetKey budget.scope.text value =
                  budget.scope.key value from rfl, parseBudgetKey_key]
                exact hv.1
            · exact List.nodup_append.2 ⟨h.nodup, by simp, fun a ha b hb => by
                rw [List.mem_singleton.1 hb]
                exact fun heq => hnot (heq ▸ ha)⟩
            · intro key hkey hscope
              rcases List.mem_append.1 hkey with hkey | hkey
              · exact h.only key hkey hscope
              · rw [List.mem_singleton.1 hkey] at hscope ⊢
                have hb : budget.scope = .principal :=
                  Scope.text_injective ((budgetKeyScope_key budget.scope value).symm.trans hscope)
                rw [hb] at hval ⊢
                rw [← hval]
                rfl
    · exact h

/-! ## Well-formed reservations -/

structure AttemptState.WellFormed (principal : String) (attempt : AttemptState) : Prop where
  named : attempt.id ≠ ""
  keys : ReservationKeys principal attempt.budgetKeys
  window : truncateMinute attempt.windowStarted = attempt.windowStarted
  opened : attempt.windowStarted ≠ 0
  tokens : 0 ≤ attempt.reservedTokens.toInt
  cost : 0 ≤ attempt.reservedCostMicros.toInt
  closed : attempt.settled = attempt.reservationReleased

structure ReservationState.WellFormed (reservation : ReservationState) : Prop where
  principal : reservation.principal ≠ ""
  keys : ReservationKeys reservation.principal reservation.budgetKeys
  attempts : ∀ attempt ∈ reservation.attempts.items, attempt.WellFormed reservation.principal
  charged : ∀ attempt ∈ reservation.attempts.items, attempt.outstanding = true →
    attempt.budgetKeys = reservation.budgetKeys
  settled : ∀ id, (reservation.settlements.lookup id).isSome ↔
    ∃ attempt ∈ reservation.attempts.items, attempt.id = id ∧ attempt.settled = true

/-- Every reservation a manager holds is well formed. -/
def Accounts.WellFormed (a : Accounts) : Prop :=
  ∀ reservation ∈ a.reservations.items, reservation.WellFormed

theorem AttemptState.WellFormed.outstanding_eq {principal : String} {attempt : AttemptState}
    (h : attempt.WellFormed principal) : attempt.outstanding = !attempt.reservationReleased := by
  unfold AttemptState.outstanding
  rw [h.closed, Bool.and_self]

theorem allowedAttempt_wellFormed {reservation : ReservationState} (clk : Clock)
    {attemptID : String} {amounts : Int64 × Int64} (hid : attemptID ≠ "")
    (h : reservation.WellFormed) (ht : 0 ≤ amounts.1.toInt) (hc : 0 ≤ amounts.2.toInt) :
    (Manager.allowedAttempt clk reservation attemptID amounts).WellFormed
      reservation.principal :=
  ⟨hid, h.keys, clk.truncateMinute_window, clk.window_ne_zero, ht, hc, rfl⟩

/-- What an operation reserves is never negative. -/
theorem Manager.amounts_nonneg (m : Manager) (model : String) (keys : List String) :
    0 ≤ (m.reservationAmountsForKeys model keys).1.toInt ∧
      0 ≤ (m.reservationAmountsForKeys model keys).2.toInt :=
  reservationAmountsForKeys_nonneg _ _ _ _

/-! ### A binding's attempts -/

/-- Binding moves the reservation's outstanding attempts and no other. -/
theorem rebindReservation_attempts (w : Windows) (reservation : ReservationState)
    (newKeys : List String) (amounts : List AttemptReservationEvent) :
    (rebindReservation w reservation newKeys amounts).2.attempts.items =
      reservation.attempts.items.map fun attempt =>
        if attempt.outstanding then attempt.rebind newKeys amounts else attempt := by
  have hhom : ∀ (l : List AttemptState) (acc : Windows × ReservationState),
      (l.foldl (rebindAttempt newKeys amounts) acc).2.attempts =
        l.foldl (fun t attempt =>
          if attempt.outstanding then t.set (attempt.rebind newKeys amounts) else t)
          acc.2.attempts := by
    intro l
    induction l with
    | nil => intro acc; rfl
    | cons attempt l ih =>
        intro acc
        rw [List.foldl_cons, List.foldl_cons, ih]
        congr 1
        unfold rebindAttempt
        split <;> rfl
  unfold rebindReservation
  dsimp only
  rw [hhom]
  exact Table.items_foldl_set (p := AttemptState.outstanding)
    (f := fun attempt => attempt.rebind newKeys amounts) (fun _ => rfl) reservation.attempts

/-- Binding walks the outstanding attempts, and moves each from its keys to
the new ones. -/
theorem windowsAfter_bound (w : Windows) (reservation : ReservationState) (upstream : String)
    (newKeys : List String) (amounts : List AttemptReservationEvent) :
    (Effect.bound reservation upstream newKeys amounts).windowsAfter w =
      reservation.outstandingAttempts.foldl (fun w attempt =>
        (w.unapplyAttemptReservation attempt).applyAttemptReservation
          (attempt.rebind newKeys amounts)) w := by
  have hwalk : ∀ (l : List AttemptState) (acc : Windows × ReservationState),
      (l.foldl (rebindAttempt newKeys amounts) acc).1 =
        (l.filter AttemptState.outstanding).foldl (fun w attempt =>
          (w.unapplyAttemptReservation attempt).applyAttemptReservation
            (attempt.rebind newKeys amounts)) acc.1 := by
    intro l
    induction l with
    | nil => intro acc; rfl
    | cons attempt l ih =>
        intro acc
        rw [List.foldl_cons, ih]
        unfold rebindAttempt
        cases ho : attempt.outstanding with
        | true => simp [ho]
        | false => simp [ho]
  exact hwalk reservation.attempts.items (w, reservation)

/-- What a binding changes of the reservation besides its attempts. -/
theorem rebindReservation_rest (w : Windows) (reservation : ReservationState)
    (newKeys : List String) (amounts : List AttemptReservationEvent) :
    let moved := (rebindReservation w reservation newKeys amounts).2
    moved.id = reservation.id ∧ moved.principal = reservation.principal ∧
      moved.model = reservation.model ∧ moved.tenant = reservation.tenant ∧
      moved.settlements = reservation.settlements := by
  unfold rebindReservation
  dsimp only
  refine List.foldlRecOn (motive := fun (acc : Windows × ReservationState) =>
    acc.2.id = reservation.id ∧ acc.2.principal = reservation.principal ∧
      acc.2.model = reservation.model ∧ acc.2.tenant = reservation.tenant ∧
      acc.2.settlements = reservation.settlements)
    reservation.attempts.items _ ⟨rfl, rfl, rfl, rfl, rfl⟩ fun acc h attempt _ => ?_
  unfold rebindAttempt
  split <;> exact h

/-- Looking an attempt up among amounts that are all the same finds that
amount. -/
theorem find?_amount {l : List AttemptReservationEvent} {amounts : Int64 × Int64} {id : String}
    (hall : ∀ amount ∈ l, (amount.reservedTokens, amount.reservedCostMicros) = amounts)
    (hin : ∃ amount ∈ l, amount.attemptID = id) (default : AttemptReservationEvent) :
    let amount := (l.find? fun amount => amount.attemptID = id).getD default
    amount.reservedTokens = amounts.1 ∧ amount.reservedCostMicros = amounts.2 := by
  have hsome : (l.find? fun amount => amount.attemptID = id).isSome := by
    rw [List.find?_isSome]
    simpa using hin
  obtain ⟨amount, hamount⟩ := Option.isSome_iff_exists.1 hsome
  rw [hamount]
  exact Prod.mk.inj (hall amount (List.mem_of_find?_eq_some hamount))

/-- The amounts a manager lists for a binding are one amount for each
outstanding attempt. -/
theorem attemptReservations_spec (m : Manager) (reservation : ReservationState)
    (newKeys : List String) :
    (∀ amount ∈ m.attemptReservations reservation newKeys,
      (amount.reservedTokens, amount.reservedCostMicros) =
        m.reservationAmountsForKeys reservation.model newKeys) ∧
      ∀ attempt ∈ reservation.outstandingAttempts,
        ∃ amount ∈ m.attemptReservations reservation newKeys, amount.attemptID = attempt.id := by
  constructor
  · intro amount h
    obtain ⟨attempt, -, rfl⟩ := List.mem_map.1 h
    rfl
  · intro attempt h
    exact ⟨_, List.mem_map.2 ⟨attempt, h, rfl⟩, rfl⟩

theorem rebind_attemptReservations (m : Manager) {reservation : ReservationState}
    (newKeys : List String) {attempt : AttemptState}
    (h : attempt ∈ reservation.attempts.items) (ho : attempt.outstanding = true) :
    let amounts := m.reservationAmountsForKeys reservation.model newKeys
    attempt.rebind newKeys (m.attemptReservations reservation newKeys) =
      { attempt with
        budgetKeys := newKeys, reservationReleased := false
        reservedTokens := amounts.1, reservedCostMicros := amounts.2 } := by
  obtain ⟨hall, hin⟩ := attemptReservations_spec m reservation newKeys
  obtain ⟨amount, hamount, hid⟩ := hin attempt (List.mem_filter.2 ⟨h, ho⟩)
  obtain ⟨ht, hc⟩ := find?_amount (l := (m.attemptReservations reservation newKeys).reverse)
    (fun a ha => hall a (List.mem_reverse.1 ha))
    ⟨amount, List.mem_reverse.2 hamount, hid⟩
    ⟨attempt.id, attempt.reservedTokens, attempt.reservedCostMicros⟩
  unfold AttemptState.rebind
  dsimp only at ht hc ⊢
  rw [ht, hc]

/-! ### Every change keeps reservations well formed -/

section

variable {m : Manager} {op : Op} {e : Effect}

theorem openReservation_wellFormed (clk : Clock) (id : String) {admission : AdmissionContext}
    {amounts : Int64 × Int64} {keys : List String} (hp : admission.principal ≠ "")
    (hk : ReservationKeys admission.principal keys) (ht : 0 ≤ amounts.1.toInt)
    (hc : 0 ≤ amounts.2.toInt) :
    (Manager.openReservation clk id admission amounts keys).WellFormed := by
  have hitems : (Manager.openReservation clk id admission amounts keys).attempts.items =
      [Manager.initialAttempt clk amounts keys] := rfl
  refine ⟨hp, hk, ?_, ?_, ?_⟩
  · intro attempt ha
    rw [hitems] at ha
    rw [List.mem_singleton.1 ha]
    exact ⟨show "attempt-1" ≠ "" by decide, hk, clk.truncateMinute_window, clk.window_ne_zero, ht, hc, rfl⟩
  · intro attempt ha _
    rw [hitems] at ha
    rw [List.mem_singleton.1 ha]
    rfl
  · intro id'
    rw [hitems]
    constructor
    · intro h
      cases h
    · rintro ⟨attempt, ha, -, hs⟩
      rw [List.mem_singleton.1 ha] at hs
      cases hs

/-- With the keys and amounts an admission charges. -/
theorem Manager.openReservation_charged (m : Manager) (clk : Clock) (id : String)
    {admission : AdmissionContext} (hp : admission.principal ≠ "") :
    let keys := m.config.budgetKeys admission admission.principal admission.model
    (openReservation clk id admission
      (m.reservationAmountsForKeys admission.model keys) keys).WellFormed := by
  intro keys
  obtain ⟨ht, hc⟩ := m.amounts_nonneg admission.model keys
  exact openReservation_wellFormed clk id hp
    (budgetKeys_reservationKeys m.config admission hp admission.model) ht hc

theorem addAttempt_wellFormed {reservation : ReservationState} {attempt : AttemptState}
    (h : reservation.WellFormed) (ha : attempt.WellFormed reservation.principal)
    (hk : attempt.budgetKeys = reservation.budgetKeys)
    (hs : attempt.settled = false) (hfresh : reservation.attempts.get? attempt.id = none) :
    (reservation.addAttempt attempt).WellFormed := by
  have hmem : ∀ a, a ∈ (reservation.addAttempt attempt).attempts.items ↔
      a ∈ reservation.attempts.items ∨ a = attempt := by
    intro a
    unfold ReservationState.addAttempt
    rw [Table.items_set_of_none hfresh]
    simp
  refine ⟨h.principal, h.keys, ?_, ?_, ?_⟩
  · intro a hin
    rcases (hmem a).1 hin with hin | rfl
    · exact h.attempts a hin
    · exact ha
  · intro a hin ho
    rcases (hmem a).1 hin with hin | rfl
    · exact h.charged a hin ho
    · exact hk
  · intro id
    refine (h.settled id).trans ?_
    constructor
    · rintro ⟨a, hin, hid, hset⟩
      exact ⟨a, (hmem a).2 (.inl hin), hid, hset⟩
    · rintro ⟨a, hin, hid, hset⟩
      rcases (hmem a).1 hin with hin | rfl
      · exact ⟨a, hin, hid, hset⟩
      · rw [hs] at hset
        cases hset

theorem bound_wellFormed {reservation : ReservationState} (w : Windows) (upstream : String)
    {newKeys : List String} (h : reservation.WellFormed)
    (hk : ReservationKeys reservation.principal newKeys) :
    (Effect.reservationAfter w (.bound reservation upstream newKeys
      (m.attemptReservations reservation newKeys))).WellFormed := by
  obtain ⟨-, hp, -, -, hs⟩ := rebindReservation_rest w reservation newKeys
    (m.attemptReservations reservation newKeys)
  have hitems := rebindReservation_attempts w reservation newKeys
    (m.attemptReservations reservation newKeys)
  obtain ⟨ht, hc⟩ := m.amounts_nonneg reservation.model newKeys
  unfold Effect.reservationAfter
  refine ⟨by rw [hp]; exact h.principal, by rw [hp]; exact hk, ?_, ?_, ?_⟩
  · intro attempt ha
    rw [hitems] at ha
    obtain ⟨old, hold, rfl⟩ := List.mem_map.1 ha
    have hwf := h.attempts old hold
    rw [hp]
    split
    · next ho =>
        rw [rebind_attemptReservations m newKeys hold ho]
        have hrel : old.reservationReleased = false := by simpa [hwf.outstanding_eq] using ho
        exact ⟨hwf.named, hk, hwf.window, hwf.opened, ht, hc, by rw [← hrel]; exact hwf.closed⟩
    · exact hwf
  · intro attempt ha ho
    rw [hitems] at ha
    obtain ⟨old, hold, rfl⟩ := List.mem_map.1 ha
    by_cases hold' : old.outstanding = true
    · rw [if_pos hold']
      rfl
    · rw [if_neg hold'] at ho
      exact absurd ho hold'
  · intro id
    dsimp only
    rw [hs, h.settled, hitems]
    constructor
    · rintro ⟨a, hin, hid, hset⟩
      refine ⟨a, List.mem_map.2 ⟨a, hin, if_neg ?_⟩, hid, hset⟩
      simp [AttemptState.outstanding, hset]
    · rintro ⟨a, hin, hid, hset⟩
      obtain ⟨old, hold, rfl⟩ := List.mem_map.1 hin
      refine ⟨old, hold, ?_, ?_⟩
      · split at hid <;> exact hid
      · split at hset <;> exact hset

/-- Binding replaces each outstanding attempt by its moved self. -/
theorem mem_bound_attempts {reservation : ReservationState} (w : Windows) (upstream : String)
    (newKeys : List String) (amounts : List AttemptReservationEvent) (a : AttemptState) :
    a ∈ (Effect.reservationAfter w (.bound reservation upstream newKeys amounts)).attempts.items ↔
      ∃ old ∈ reservation.attempts.items,
        (if old.outstanding then old.rebind newKeys amounts else old) = a := by
  rw [← List.mem_map]
  exact iff_of_eq (congrArg (a ∈ ·) (rebindReservation_attempts w reservation newKeys amounts))

/-- Settling replaces the attempt by its settled self. -/
theorem mem_settled_attempts {reservation : ReservationState} {attempt : AttemptState}
    (w : Windows) (event : UsageRecordedEvent) (a : AttemptState) :
    a ∈ (Effect.reservationAfter w (.settled reservation attempt event)).attempts.items ↔
      a = { attempt with reservationReleased := true, settled := true } ∨
        a ∈ reservation.attempts.items ∧ a.id ≠ attempt.id := by
  unfold Effect.reservationAfter ReservationState.releaseAttempt
  simp only [Table.mem_set, key_attempt]
  split
  · rfl
  · simp only [Table.mem_set, key_attempt]
    constructor
    · rintro (h | ⟨h | h, hne⟩)
      · exact .inl h
      · exact absurd (by rw [h]) hne
      · exact .inr h
    · rintro (h | h)
      · exact .inl h
      · exact .inr ⟨.inr h, h.2⟩

theorem releaseAttempt_rest (reservation : ReservationState) (attempt : AttemptState) :
    let released := reservation.releaseAttempt attempt
    released.id = reservation.id ∧ released.principal = reservation.principal ∧
      released.model = reservation.model ∧ released.tenant = reservation.tenant ∧
      released.budgetKeys = reservation.budgetKeys := by
  unfold ReservationState.releaseAttempt
  split <;> exact ⟨rfl, rfl, rfl, rfl, rfl⟩

/-- A change leaves its reservation under the same identifier. -/
theorem reservationAfter_id (w : Windows) (e : Effect) : (e.reservationAfter w).id = e.id := by
  cases e with
  | admitted reservation attempt => rfl
  | bound reservation upstream newKeys amounts =>
      exact (rebindReservation_rest w reservation newKeys amounts).1
  | began reservation attempt => rfl
  | settled reservation attempt event => exact (releaseAttempt_rest reservation attempt).1
  | released reservation => rfl

theorem settled_wellFormed {reservation : ReservationState} {attempt : AttemptState}
    (w : Windows) (event : UsageRecordedEvent) (h : reservation.WellFormed)
    (ha : reservation.attempts.get? attempt.id = some attempt)
    (hid : event.settlementID = attempt.id) :
    (Effect.reservationAfter w (.settled reservation attempt event)).WellFormed := by
  obtain ⟨-, hp, -, -, hk⟩ := releaseAttempt_rest reservation attempt
  have hwf := h.attempts attempt (Table.mem_of_get? ha)
  refine ⟨hp.symm ▸ h.principal, ?_, ?_, ?_, ?_⟩
  · exact hp.symm ▸ hk.symm ▸ h.keys
  · intro a hin
    show a.WellFormed (reservation.releaseAttempt attempt).principal
    rw [hp]
    rcases (mem_settled_attempts w event a).1 hin with rfl | ⟨hin, -⟩
    · exact ⟨hwf.named, hwf.keys, hwf.window, hwf.opened, hwf.tokens, hwf.cost, rfl⟩
    · exact h.attempts a hin
  · intro a hin ho
    show a.budgetKeys = (reservation.releaseAttempt attempt).budgetKeys
    rw [hk]
    rcases (mem_settled_attempts w event a).1 hin with rfl | ⟨hin, -⟩
    · cases ho
    · exact h.charged a hin ho
  · intro id
    have hlookup : ((reservation.settlements ++ [(event.settlementID, event.costMicros)]).lookup
        id).isSome ↔ (reservation.settlements.lookup id).isSome ∨ id = attempt.id := by
      rw [List.lookup_append, Option.isSome_or, Bool.or_eq_true, hid]
      by_cases hi : id = attempt.id
      · simp [hi]
      · have hb : (id == attempt.id) = false := beq_eq_false_iff_ne.2 hi
        simp [hi, List.lookup_cons, hb]
    refine hlookup.trans ?_
    rw [h.settled]
    constructor
    · rintro (⟨a, hin, hai, hset⟩ | rfl)
      · by_cases hne : a.id = attempt.id
        · exact ⟨_, (mem_settled_attempts w event _).2 (.inl rfl), hne ▸ hai, rfl⟩
        · exact ⟨a, (mem_settled_attempts w event a).2 (.inr ⟨hin, hne⟩), hai, hset⟩
      · exact ⟨_, (mem_settled_attempts w event _).2 (.inl rfl), rfl, rfl⟩
    · rintro ⟨a, hin, hai, hset⟩
      rcases (mem_settled_attempts w event a).1 hin with rfl | ⟨hin, -⟩
      · exact .inr hai.symm
      · exact .inl ⟨a, hin, hai, hset⟩

/-- Every change keeps every reservation well formed. -/
theorem wellFormed_apply (h : m.accounts.WellFormed) (he : e.Allowed m op) :
    (e.apply m.accounts).WellFormed := by
  have hset : ∀ r : ReservationState, r.WellFormed →
      ∀ reservation ∈ (m.reservations.set r).items, reservation.WellFormed := by
    intro r hr reservation hin
    rcases Table.mem_set.1 hin with rfl | ⟨hin, -⟩
    · exact hr
    · exact h reservation hin
  cases he with
  | admitted htarget hnamed hp hfresh hcharged hreserved hlimits =>
      subst hcharged hreserved
      exact hset _ (m.openReservation_charged op.clk _ hp)
  | bound hcall htrim hfound hnamed helse hcharged hreserved hlimits =>
      subst hcharged hreserved
      have hr := h _ (Table.mem_of_get? hfound)
      exact hset _ (bound_wellFormed _ _ hr (budgetKeys_reservationKeys _ _ hr.principal _))
  | began htarget hfound hnamed hfresh hreserved hlimits =>
      subst hreserved
      have hr := h _ (Table.mem_of_get? hfound)
      obtain ⟨ht, hc⟩ := m.amounts_nonneg _ _
      exact hset _ (addAttempt_wellFormed hr (allowedAttempt_wellFormed op.clk hnamed hr ht hc) rfl rfl
        hfresh)
  | settled htarget hfound hnamed hbegun hfresh =>
      have hr := h _ (Table.mem_of_get? hfound)
      exact hset _ (settled_wellFormed _ _ hr hbegun rfl)
  | released hcall hfound =>
      intro reservation hin
      exact h reservation (Table.mem_erase.1 hin).1

end

theorem Manager.run_wellFormed {m : Manager} (hfresh : m.Fresh) (ops : List Op) :
    (m.run ops).accounts.WellFormed := by
  refine run_invariant (P := fun m => m.accounts.WellFormed)
    (fun hq h => hq.accounts.symm ▸ h)
    (fun hm h => hm.accounts.symm ▸ wellFormed_apply h hm.allowed) ?_ ops
  intro reservation hin
  rw [accounts_reservations, hfresh.reservations] at hin
  cases hin

/-! ## One attempt, read at one key -/

/-- The attempt is charged to the key in the window of a time. -/
def AttemptState.ChargedAt (attempt : AttemptState) (key : String) (window : Int) : Prop :=
  key ∈ attempt.budgetKeys ∧ truncateMinute window = attempt.windowStarted

instance (attempt : AttemptState) (key : String) (window : Int) :
    Decidable (attempt.ChargedAt key window) :=
  inferInstanceAs (Decidable (_ ∧ _))

section

variable {principal k : String} {attempt : AttemptState} {u : Int}

theorem get_charge_attempt (w : Windows) (h : attempt.WellFormed principal) (hk : Canonical k)
    (f : UsageState → UsageState) :
    (w.charge attempt.budgetKeys attempt.windowStarted f).get k u =
      if attempt.ChargedAt k u then f (w.get k u) else w.get k u := by
  rw [Windows.get_charge h.keys.canonical h.keys.nodup hk, h.window]
  rfl

theorem get_applyAttemptReservation (w : Windows) (h : attempt.WellFormed principal)
    (hr : attempt.reservationReleased = false) (hk : Canonical k) :
    (w.applyAttemptReservation attempt).get k u =
      if attempt.ChargedAt k u then
        (w.get k u).reserve attempt.reservedTokens attempt.reservedCostMicros
      else w.get k u := by
  unfold Windows.applyAttemptReservation
  rw [if_neg (by simp [hr])]
  exact get_charge_attempt w h hk _

theorem get_unapplyAttemptReservation (w : Windows) (h : attempt.WellFormed principal)
    (hk : Canonical k) :
    (w.unapplyAttemptReservation attempt).get k u =
      if attempt.ChargedAt k u then
        (w.get k u).unreserve attempt.reservedTokens attempt.reservedCostMicros
      else w.get k u :=
  get_charge_attempt w h hk _

theorem get_releaseAttempt (w : Windows) (h : attempt.WellFormed principal) (hk : Canonical k) :
    (w.releaseAttempt attempt).get k u =
      if attempt.reservationReleased = false ∧ attempt.ChargedAt k u then
        (w.get k u).release attempt.reservedTokens attempt.reservedCostMicros
      else w.get k u := by
  unfold Windows.releaseAttempt
  split
  · next hr => simp [hr]
  · next hr =>
      have hr' : attempt.reservationReleased = false := by simpa using hr
      rw [if_pos h.window, get_charge_attempt w h hk]
      simp [hr']

/-- A settlement's usage goes to every key of the attempt, the principal's
among them. -/
theorem get_recordUsage (w : Windows) (h : attempt.WellFormed principal) (hk : Canonical k)
    {event : UsageRecordedEvent} (he : event.principal = principal) :
    (w.recordUsage attempt.budgetKeys attempt.windowStarted event).get k u =
      if attempt.ChargedAt k u then (w.get k u).applyUsage event else w.get k u := by
  have hown : Canonical (Scope.principal.key principal) := ⟨_, _, rfl⟩
  have hslot : Slot.principal event.principal = slotOf (Scope.principal.key principal) := by
    rw [slotOf_key, he]
    rfl
  have hmodify : (w.modifySlot (.principal event.principal) attempt.windowStarted
      (UsageState.applyUsage event)).get k u =
      if k = Scope.principal.key principal ∧ truncateMinute u = attempt.windowStarted then
        (w.get k u).applyUsage event
      else w.get k u := by
    rw [hslot]
    have := Windows.get_modify w (Scope.principal.key principal) k attempt.windowStarted u
      (UsageState.applyUsage event)
    simp only [slotOf_inj hk hown, h.window] at this
    exact this
  have hothers : ∀ key ∈ attempt.budgetKeys.filter (fun key => budgetKeyScope key ≠ "principal"),
      Canonical key := fun key hin => h.keys.canonical key (List.mem_of_mem_filter hin)
  unfold Windows.recordUsage
  dsimp only
  rw [Windows.get_charge hothers (h.keys.nodup.filter _) hk, hmodify, h.window]
  by_cases hprincipal : k = Scope.principal.key principal
  · -- its own principal's key was charged first, and is left out of the rest
    subst hprincipal
    have hscope : budgetKeyScope (Scope.principal.key principal) = "principal" :=
      budgetKeyScope_key _ _
    simp [AttemptState.ChargedAt, h.keys.own, hscope]
  · have honly : k ∈ attempt.budgetKeys → budgetKeyScope k ≠ "principal" :=
      fun hin hscope => hprincipal (h.keys.only k hin hscope)
    by_cases hin : k ∈ attempt.budgetKeys
    · simp [AttemptState.ChargedAt, hin, hprincipal, honly hin]
    · simp [AttemptState.ChargedAt, hin, hprincipal]

end

/-! ## A binding, read at one key -/

/-- What moving one attempt does to a key in the attempt's window: the old
amounts come off if the key was charged, the new ones go on if it is now. -/
def UsageState.move (was is : Bool) (amounts : Int64 × Int64) (state : UsageState)
    (attempt : AttemptState) : UsageState :=
  let state :=
    if was then state.unreserve attempt.reservedTokens attempt.reservedCostMicros else state
  if is then state.reserve amounts.1 amounts.2 else state

/-- A binding moves, at one key and window, the attempts that began in that
window, one after the other. -/
theorem get_windowsAfter_bound (m : Manager) (w : Windows) {reservation : ReservationState}
    (upstream : String) {newKeys : List String} {key : String} (u : Int)
    (hr : reservation.WellFormed) (hkeys : ReservationKeys reservation.principal newKeys)
    (hkey : Canonical key) :
    ((Effect.bound reservation upstream newKeys
        (m.attemptReservations reservation newKeys)).windowsAfter w).get key u =
      (Manager.attemptsIn reservation (truncateMinute u)).foldl
        (UsageState.move (decide (key ∈ reservation.budgetKeys)) (decide (key ∈ newKeys))
          (m.reservationAmountsForKeys reservation.model newKeys)) (w.get key u) := by
  rw [windowsAfter_bound]
  have hwalk : ∀ (l : List AttemptState) (w : Windows),
      (∀ attempt ∈ l, attempt ∈ reservation.outstandingAttempts) →
      (l.foldl (fun w attempt => (w.unapplyAttemptReservation attempt).applyAttemptReservation
          (attempt.rebind newKeys (m.attemptReservations reservation newKeys))) w).get key u =
        (l.filter fun attempt => attempt.windowStarted = truncateMinute u).foldl
          (UsageState.move (decide (key ∈ reservation.budgetKeys)) (decide (key ∈ newKeys))
            (m.reservationAmountsForKeys reservation.model newKeys)) (w.get key u) := by
    intro l
    induction l with
    | nil => intro w _; rfl
    | cons attempt l ih =>
        intro w hall
        obtain ⟨hin, ho⟩ := List.mem_filter.1 (hall attempt (by simp))
        have hwf := hr.attempts attempt hin
        obtain ⟨ht, hc⟩ := m.amounts_nonneg reservation.model newKeys
        have hrel : attempt.reservationReleased = false := by
          simpa [hwf.outstanding_eq] using ho
        have hmoved : (attempt.rebind newKeys
            (m.attemptReservations reservation newKeys)).WellFormed reservation.principal := by
          rw [rebind_attemptReservations m newKeys hin ho]
          exact ⟨hwf.named, hkeys, hwf.window, hwf.opened, ht, hc, hrel ▸ hwf.closed⟩
        rw [List.foldl_cons, ih _ fun a ha => hall a (List.mem_cons_of_mem _ ha),
          get_applyAttemptReservation _ hmoved rfl hkey, get_unapplyAttemptReservation w hwf hkey,
          rebind_attemptReservations m newKeys hin ho]
        simp only [AttemptState.ChargedAt, hr.charged attempt hin ho]
        by_cases hw : attempt.windowStarted = truncateMinute u
        · simp [hw, UsageState.move]
        · simp [hw, Ne.symm hw]
  exact hwalk _ w fun _ h => h

/-! ## What a passed limit says -/

namespace Manager

theorem activeForBudgetExcluding_some (m : Manager) (key id : String) :
    m.activeForBudgetExcluding key (some id) =
      (m.reservations.erase id).total fun reservation => reservation.activeFor key := by
  rw [Table.total_erase]
  unfold activeForBudgetExcluding
  simp only [Option.some.injEq, key_reservation, eq_comm]

theorem activeForBudgetExcluding_none (m : Manager) (key : String) :
    m.activeForBudgetExcluding key none =
      m.reservations.total fun reservation => reservation.activeFor key := by
  unfold activeForBudgetExcluding
  simp

theorem limitReason_eq_none {m : Manager} {window : Int} {tokens cost : Int64}
    {extra : Nat} {exclude : Option String} {key : String} :
    m.limitReason window tokens cost extra exclude key = none ↔
      let state := m.windows.get key window
      (m.config.budgetForKey key).Allows state.unknownUsage
        (m.activeForBudgetExcluding key exclude + 1) (state.requests + extra)
        (state.tokens + state.reservedTokens + tokens)
        (state.costMicros + state.reservedCostMicros + cost) :=
  BudgetLimits.refusal_eq_none

/-- A binding adds the one new amount for each attempt of the window. -/
theorem bindingReason_eq_none {m : Manager} {window : Int} {reservation : ReservationState}
    {newKeys : List String} {key : String} :
    m.bindingReason window reservation (m.attemptReservations reservation newKeys) key = none ↔
      let state := m.windows.get key window
      let amounts := m.reservationAmountsForKeys reservation.model newKeys
      let own := (attemptsIn reservation window).length
      (m.config.budgetForKey key).Allows state.unknownUsage
        (m.activeForBudgetExcluding key (some reservation.id) + own) (state.requests + own)
        (state.tokens + addTimes amounts.1 own state.reservedTokens)
        (state.costMicros + addTimes amounts.2 own state.reservedCostMicros) := by
  obtain ⟨hall, hin⟩ := attemptReservations_spec m reservation newKeys
  have hamount : ∀ attempt ∈ attemptsIn reservation window, ∀ default,
      let amount := ((m.attemptReservations reservation newKeys).find? fun amount =>
        amount.attemptID = attempt.id).getD default
      amount.reservedTokens = (m.reservationAmountsForKeys reservation.model newKeys).1 ∧
        amount.reservedCostMicros = (m.reservationAmountsForKeys reservation.model newKeys).2 :=
    fun attempt ha default =>
      find?_amount hall (hin attempt (List.mem_of_mem_filter ha)) default
  have htokens := List.foldl_ext
    (fun sum (attempt : AttemptState) =>
      sum + (((m.attemptReservations reservation newKeys).find? fun amount =>
        amount.attemptID = attempt.id).getD ⟨attempt.id, 0, 0⟩).reservedTokens)
    (fun sum _ => sum + (m.reservationAmountsForKeys reservation.model newKeys).1)
    (m.windows.get key window).reservedTokens
    (fun sum attempt ha => by rw [(hamount attempt ha _).1])
  have hcosts := List.foldl_ext
    (fun sum (attempt : AttemptState) =>
      sum + (((m.attemptReservations reservation newKeys).find? fun amount =>
        amount.attemptID = attempt.id).getD ⟨attempt.id, 0, 0⟩).reservedCostMicros)
    (fun sum _ => sum + (m.reservationAmountsForKeys reservation.model newKeys).2)
    (m.windows.get key window).reservedCostMicros
    (fun sum attempt ha => by rw [(hamount attempt ha _).2])
  rw [foldl_add_const] at htokens hcosts
  unfold bindingReason
  dsimp only
  rw [htokens, hcosts]
  exact BudgetLimits.refusal_eq_none

end Manager

end RelayLifeline.Governance
