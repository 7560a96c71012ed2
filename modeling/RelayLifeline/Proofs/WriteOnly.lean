import RelayLifeline.Governance.Effects

/-!
# Calls write the ledger and never read it

What the ledger holds makes no difference to any call: with other entries in
it a call answers the same and leaves the same manager, over some other
entries. Its health and its oracles do make a difference, and stay.
-/

namespace RelayLifeline.Governance.Manager

open Lib

/-- The manager over other entries. -/
def withEntries (m : Manager) (l : List Entry) : Manager :=
  { m with ledger := m.ledger.map fun ledger => { ledger with entries := l } }

variable (m : Manager) (l : List Entry) (clk : Clock)

theorem withEntries_entries (h : m.Durable) : (m.withEntries l).entries = l := by
  obtain ⟨ledger, hl, -⟩ := h
  unfold entries withEntries
  rw [hl]
  rfl

theorem withEntries_self : m.withEntries m.entries = m := by
  obtain ⟨_, _, _, _, ledger, _⟩ := m
  cases ledger <;> rfl

@[simp] theorem withEntries_withEntries (l' : List Entry) :
    (m.withEntries l).withEntries l' = m.withEntries l' := by
  unfold withEntries
  cases m.ledger <;> rfl

theorem withEntries_durable (h : m.Durable) : (m.withEntries l).Durable := by
  obtain ⟨ledger, hl, hs, hf⟩ := h
  exact ⟨{ ledger with entries := l }, by unfold withEntries; rw [hl]; rfl, hs, hf⟩

/-! ## One call -/

theorem append_withEntries (id : String) (event : LedgerEvent) :
    ∃ l', (m.withEntries l).append clk id event =
      ((m.append clk id event).1.withEntries l', (m.append clk id event).2) := by
  obtain ⟨config, windows, estimates, reservations, ledger, counters⟩ := m
  cases ledger with
  | none => exact ⟨l, rfl⟩
  | some ledger =>
      obtain ⟨entries, state, faults, probes⟩ := ledger
      cases state with
      | closed => exact ⟨l, rfl⟩
      | degraded => exact ⟨l, rfl⟩
      | healthy =>
          cases faults with
          | nil => exact ⟨l ++ [⟨clk.stamp, id, event⟩], rfl⟩
          | cons fault faults =>
              cases fault with
              | true => exact ⟨l, rfl⟩
              | false => exact ⟨l ++ [⟨clk.stamp, id, event⟩], rfl⟩

theorem ledgerUnhealthy_withEntries :
    (m.withEntries l).ledgerUnhealthy =
      (m.ledgerUnhealthy.1.withEntries l, m.ledgerUnhealthy.2) := by
  obtain ⟨config, windows, estimates, reservations, ledger, counters⟩ := m
  cases ledger with
  | none => rfl
  | some ledger =>
      obtain ⟨entries, state, faults, probes⟩ := ledger
      cases state with
      | closed => rfl
      | degraded => rfl
      | healthy => cases probes <;> rfl

theorem decisionFor_withEntries (principal model : String) (window : Int) (keys : List String) :
    (m.withEntries l).decisionFor principal model window keys =
      ((m.decisionFor principal model window keys).1.withEntries l,
        (m.decisionFor principal model window keys).2) := by
  unfold decisionFor
  rw [ledgerUnhealthy_withEntries]
  rw [show (m.withEntries l).enforcing = m.enforcing from rfl]
  cases m.enforcing with
  | false => rfl
  | true => rfl

theorem admit_withEntries (id : String) (admission : AdmissionContext) :
    ∃ l', (m.withEntries l).admitNormalized clk id admission =
      ((m.admitNormalized clk id admission).1.withEntries l', (m.admitNormalized clk id admission).2) := by
  unfold admitNormalized
  dsimp only
  by_cases ht : m.enforcing ∧ m.config.tenantContextRequired ∧ admission.tenant = ""
  · rw [if_pos ht, if_pos (by exact ht)]
    exact ⟨l, rfl⟩
  rw [if_neg ht, if_neg (by exact ht)]
  by_cases hd : (m.reservations.get? id).isSome
  · rw [if_pos hd, if_pos (by exact hd)]
    exact ⟨l, rfl⟩
  rw [if_neg hd, if_neg (by exact hd)]
  rw [show (m.withEntries l).config = m.config from rfl, decisionFor_withEntries]
  rcases m.decisionFor admission.principal admission.model clk.window
    (m.config.budgetKeys admission admission.principal admission.model) with ⟨m₁, decision⟩
  dsimp only
  cases decision.allowed with
  | false => exact ⟨l, rfl⟩
  | true =>
      let event := LedgerEvent.reserved (reservedEvent clk admission
        (decision.reservedTokens, decision.reservedCostMicros)
        (m.config.budgetKeys admission admission.principal admission.model))
      obtain ⟨l', happ⟩ := m₁.append_withEntries l clk id event
      rw [if_pos rfl, if_pos rfl, happ]
      rcases m₁.append clk id event with ⟨m₂, ok⟩
      refine ⟨l', ?_⟩
      dsimp only
      by_cases hfail : (!ok) = true ∧ m₂.enforcing = true
      · rw [if_pos hfail, if_pos (by exact hfail)]
        rfl
      · rw [if_neg hfail, if_neg (by exact hfail)]
        rfl

theorem bindUpstream_withEntries (id upstream : String) :
    ∃ l', (m.withEntries l).bindUpstreamWithDecision clk id upstream =
      ((m.bindUpstreamWithDecision clk id upstream).1.withEntries l',
        (m.bindUpstreamWithDecision clk id upstream).2) := by
  unfold bindUpstreamWithDecision
  dsimp only
  generalize trimSpace upstream = upstream
  by_cases hvalid : upstream = "" ∨ upstream.utf8ByteSize > 128
  · rw [if_pos hvalid, if_pos hvalid]
    exact ⟨l, rfl⟩
  rw [if_neg hvalid, if_neg hvalid, show (m.withEntries l).reservations = m.reservations from rfl]
  cases m.reservations.get? id with
  | none => exact ⟨l, rfl⟩
  | some reservation =>
      dsimp only
      by_cases hhere : reservation.upstream = upstream
      · rw [if_pos hhere, if_pos hhere]
        exact ⟨l, rfl⟩
      rw [if_neg hhere, if_neg hhere, show (m.withEntries l).bindingAmounts clk reservation
        ((m.withEntries l).keysAt reservation upstream) =
          m.bindingAmounts clk reservation (m.keysAt reservation upstream) from rfl]
      cases m.bindingAmounts clk reservation (m.keysAt reservation upstream) with
      | error reason => exact ⟨l, rfl⟩
      | ok amounts =>
          obtain ⟨l', happ⟩ := m.append_withEntries l clk id (.bound
            { principal := reservation.principal, upstream,
              budgetKeys := m.keysAt reservation upstream, attemptReservations := amounts,
              boundAt := clk.now })
          refine ⟨l', ?_⟩
          rw [show (m.withEntries l).keysAt reservation upstream = m.keysAt reservation upstream
            from rfl]
          dsimp only
          rw [happ]
          generalize m.append clk id (.bound
            { principal := reservation.principal, upstream,
              budgetKeys := m.keysAt reservation upstream, attemptReservations := amounts,
              boundAt := clk.now }) = appended
          obtain ⟨m₁, ok⟩ := appended
          dsimp only
          by_cases hfail : (!ok) = true ∧ m₁.enforcing = true
          · rw [if_pos hfail, if_pos (by exact hfail)]
          · rw [if_neg hfail, if_neg (by exact hfail)]
            rfl

theorem reserveAttempt_withEntries (reservation : ReservationState) (attempt : AttemptState) :
    ∃ l', (m.withEntries l).reserveAttempt clk reservation attempt =
      ((m.reserveAttempt clk reservation attempt).1.withEntries l',
        (m.reserveAttempt clk reservation attempt).2) := by
  let event := LedgerEvent.attemptReserved
    { principal := reservation.principal, model := reservation.model, attemptID := attempt.id,
      windowStarted := attempt.windowStarted, reservedTokens := attempt.reservedTokens,
      reservedCostMicros := attempt.reservedCostMicros, budgetKeys := attempt.budgetKeys,
      reservedAt := clk.now }
  obtain ⟨l', happ⟩ := m.append_withEntries l clk reservation.id event
  refine ⟨l', ?_⟩
  unfold reserveAttempt
  rw [happ]
  rcases m.append clk reservation.id event with ⟨m₁, ok⟩
  dsimp only
  by_cases hfail : (!ok) = true ∧ m₁.enforcing = true
  · rw [if_pos hfail, if_pos (by exact hfail)]
  · rw [if_neg hfail, if_neg (by exact hfail)]
    rfl

theorem begin_withEntries (id attemptID : String) :
    ∃ l', (m.withEntries l).begin clk id attemptID =
      ((m.begin clk id attemptID).1.withEntries l', (m.begin clk id attemptID).2) := by
  unfold begin
  rw [show (m.withEntries l).reservations = m.reservations from rfl]
  cases m.reservations.get? id with
  | none => exact ⟨l, rfl⟩
  | some reservation =>
      dsimp only
      cases reservation.attempts.get? attemptID with
      | some existing =>
          dsimp only
          cases existing.outstanding <;> exact ⟨l, rfl⟩
      | none =>
          dsimp only
          rw [show (m.withEntries l).attemptDecision reservation clk.window
            reservation.budgetKeys = m.attemptDecision reservation clk.window
              reservation.budgetKeys from rfl]
          generalize m.attemptDecision reservation clk.window reservation.budgetKeys = decision
          cases decision.allowed with
          | false => exact ⟨l, rfl⟩
          | true =>
              let attempt := allowedAttempt clk reservation attemptID
                (decision.reservedTokens, decision.reservedCostMicros)
              obtain ⟨l', hres⟩ := m.reserveAttempt_withEntries l clk reservation attempt
              refine ⟨l', ?_⟩
              rw [if_pos rfl, if_pos rfl, hres]
              rcases m.reserveAttempt clk reservation attempt with ⟨m₁, _ | error⟩
              · rfl
              · rfl

theorem beginAttemptLocked_withEntries (reservation : ReservationState) (attemptID : String) :
    ∃ l', (m.withEntries l).beginAttemptLocked clk reservation attemptID =
      ((m.beginAttemptLocked clk reservation attemptID).1.withEntries l',
        (m.beginAttemptLocked clk reservation attemptID).2) := by
  unfold beginAttemptLocked
  rw [show (m.withEntries l).attemptDecision reservation clk.window
    reservation.budgetKeys = m.attemptDecision reservation clk.window
      reservation.budgetKeys from rfl]
  generalize m.attemptDecision reservation clk.window reservation.budgetKeys = decision
  dsimp only
  cases decision.allowed with
  | false => exact ⟨l, rfl⟩
  | true =>
      let attempt := allowedAttempt clk reservation attemptID
        (decision.reservedTokens, decision.reservedCostMicros)
      obtain ⟨l', hres⟩ := m.reserveAttempt_withEntries l clk reservation attempt
      refine ⟨l', ?_⟩
      rw [if_pos rfl, if_pos rfl, hres]
      rcases m.reserveAttempt clk reservation attempt with ⟨m₁, _ | error⟩
      · rfl
      · rfl

theorem settle_withEntries (reservation : ReservationState) (attempt : AttemptState)
    (settlementID : String) (usage : Usage) :
    ∃ l', (m.withEntries l).settle clk reservation attempt settlementID usage =
      ((m.settle clk reservation attempt settlementID usage).1.withEntries l',
        (m.settle clk reservation attempt settlementID usage).2) := by
  unfold settle
  rw [show (m.withEntries l).usageEvent clk reservation attempt settlementID usage =
    m.usageEvent clk reservation attempt settlementID usage from rfl]
  dsimp only
  generalize m.usageEvent clk reservation attempt settlementID usage = event
  obtain ⟨l', happ⟩ := m.append_withEntries l clk reservation.id (.usageRecorded event)
  refine ⟨l', ?_⟩
  rw [happ]
  rcases m.append clk reservation.id (.usageRecorded event) with ⟨m₁, ok⟩
  dsimp only
  by_cases hfail : (!ok) = true ∧ m₁.enforcing = true
  · rw [if_pos hfail, if_pos (by exact hfail)]
  · rw [if_neg hfail, if_neg (by exact hfail)]
    rfl

theorem record_withEntries (id settlementID : String) (usage : Usage) :
    ∃ l', (m.withEntries l).record clk id settlementID usage =
      ((m.record clk id settlementID usage).1.withEntries l',
        (m.record clk id settlementID usage).2) := by
  unfold record
  dsimp only
  generalize trimSpace settlementID = settlementID
  by_cases hvalid : settlementID = "" ∨ settlementID.utf8ByteSize > 128
  · rw [if_pos hvalid, if_pos hvalid]
    exact ⟨l, rfl⟩
  rw [if_neg hvalid, if_neg hvalid, show (m.withEntries l).reservations = m.reservations from rfl]
  cases m.reservations.get? id with
  | none => exact ⟨l, rfl⟩
  | some reservation =>
      dsimp only
      cases reservation.settlements.lookup settlementID with
      | some cost => exact ⟨l, rfl⟩
      | none =>
          dsimp only
          cases reservation.attempts.get? settlementID with
          | some attempt => exact m.settle_withEntries l clk reservation attempt settlementID usage
          | none =>
              obtain ⟨l', hbegin⟩ :=
                m.beginAttemptLocked_withEntries l clk reservation settlementID
              dsimp only
              rw [hbegin]
              rcases m.beginAttemptLocked clk reservation settlementID with ⟨m₁, error | attempt⟩
              · exact ⟨l', rfl⟩
              · dsimp only
                rw [show (m₁.withEntries l').reservations = m₁.reservations from rfl]
                cases m₁.reservations.get? id with
                | none => exact ⟨l', rfl⟩
                | some reservation =>
                    exact m₁.settle_withEntries l' clk reservation attempt settlementID usage

theorem release_withEntries (id : String) :
    ∃ l', (m.withEntries l).release clk id =
      ((m.release clk id).1.withEntries l', (m.release clk id).2) := by
  unfold release
  rw [show (m.withEntries l).reservations = m.reservations from rfl]
  cases m.reservations.get? id with
  | none => exact ⟨l, rfl⟩
  | some reservation =>
      let event := LedgerEvent.released
        { principal := reservation.principal, releasedAt := clk.now }
      obtain ⟨l', happ⟩ := m.append_withEntries l clk id event
      refine ⟨l', ?_⟩
      dsimp only
      rw [happ]
      rcases m.append clk id event with ⟨m₁, ok⟩
      dsimp only
      by_cases hfail : (!ok) = true ∧ m₁.enforcing = true
      · rw [if_pos hfail, if_pos (by exact hfail)]
      · rw [if_neg hfail, if_neg (by exact hfail)]
        rfl

/-! ## Any call, and a run -/

theorem perform_withEntries (op : Op) :
    ∃ l', (m.withEntries l).perform op = (m.perform op).withEntries l' := by
  obtain ⟨clk, call⟩ := op
  have first : ∀ {α : Type} {x y : Manager × α} {l' : List Entry},
      x = (y.1.withEntries l', y.2) → x.1 = y.1.withEntries l' := fun h => congrArg Prod.fst h
  cases call with
  | admitWithContext canceled id admission =>
      unfold perform admitWithContext
      dsimp only
      cases canceled with
      | true => exact ⟨l, rfl⟩
      | false =>
          by_cases hvalid : trimSpace id = "" ∨ (trimSpace id).utf8ByteSize > 128
          · refine ⟨l, ?_⟩
            rw [if_neg Bool.false_ne_true, if_neg Bool.false_ne_true, if_pos hvalid, if_pos hvalid]
          · obtain ⟨l', h⟩ := m.admit_withEntries l clk (trimSpace id) admission.normalized
            refine ⟨l', ?_⟩
            rw [if_neg Bool.false_ne_true, if_neg Bool.false_ne_true, if_neg hvalid, if_neg hvalid]
            exact first h
  | bindUpstream id upstream =>
      obtain ⟨l', h⟩ := m.bindUpstream_withEntries l clk id upstream
      exact ⟨l', first h⟩
  | beginAttempt id attemptID =>
      unfold perform beginAttempt
      dsimp only
      generalize trimSpace attemptID = attemptID
      by_cases hvalid : attemptID = "" ∨ attemptID.utf8ByteSize > 128
      · rw [if_pos hvalid, if_pos hvalid]
        exact ⟨l, rfl⟩
      · obtain ⟨l', h⟩ := m.begin_withEntries l clk id attemptID
        refine ⟨l', ?_⟩
        rw [if_neg hvalid, if_neg hvalid]
        exact first h
  | record id settlementID usage =>
      obtain ⟨l', h⟩ := m.record_withEntries l clk id settlementID usage
      exact ⟨l', first h⟩
  | release id =>
      obtain ⟨l', h⟩ := m.release_withEntries l clk id
      exact ⟨l', first h⟩

end RelayLifeline.Governance.Manager
