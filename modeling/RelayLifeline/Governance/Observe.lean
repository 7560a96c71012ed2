import RelayLifeline.Governance.Actions

/-!
# A manager that observes

In observe mode no limit refuses and no failed write stops a call. So what a
call does to the accounts, and nearly every error it gives, does not depend on
the ledger. The two exceptions are `Record` and `Release`, which carry the
change through and still report that it was not written.
-/

namespace RelayLifeline.Governance

open Lib

/-- An action that leaves the manager in observe mode. -/
def Action.KeepsObserving : Action → Prop
  | .apply cfg => cfg.mode = .observe
  | .step _ => True

/-- The same action, but for how the ledger's file is rewritten. -/
inductive Action.SameButLedger : Action → Action → Prop
  | same (action : Action) : SameButLedger action action
  | compact (clk : Clock) (stamp : String → Int) (cutoff : Int) (rewrite rewrite' : Rewrite) :
      SameButLedger (.step (.compact clk stamp cutoff rewrite))
        (.step (.compact clk stamp cutoff rewrite'))

namespace Manager

/-- The same manager over another ledger. -/
def Alike (m m' : Manager) : Prop :=
  ∃ ledger counters, m' = { m with ledger := ledger, counters := counters }

variable {m m' m₁ m₂ : Manager}

theorem Alike.refl (m : Manager) : m.Alike m := ⟨_, _, rfl⟩

theorem Alike.trans (h : m.Alike m₁) (h' : m₁.Alike m₂) : m.Alike m₂ := by
  obtain ⟨_, _, rfl⟩ := h
  obtain ⟨_, _, rfl⟩ := h'
  exact ⟨_, _, rfl⟩

theorem Alike.symm (h : m.Alike m') : m'.Alike m := by
  obtain ⟨_, _, rfl⟩ := h
  exact ⟨_, _, rfl⟩

theorem Alike.config (h : m.Alike m') : m'.config = m.config := by
  obtain ⟨_, _, rfl⟩ := h
  rfl

theorem Alike.reservations (h : m.Alike m') : m'.reservations = m.reservations := by
  obtain ⟨_, _, rfl⟩ := h
  rfl

theorem Alike.enforcing (h : m.Alike m') : m'.enforcing = m.enforcing := by
  simp only [Manager.enforcing, h.config]

theorem append_alike (m : Manager) (clk : Clock) (id : String) (event : LedgerEvent) :
    m.Alike (m.append clk id event).1 := by
  simp only [append]
  split
  · exact .refl m
  · exact ⟨_, _, rfl⟩

/-! ## Nothing is refused -/

theorem evaluateDecisionLimits_observe (hobserve : m.enforcing = false) (decision : Decision)
    (window : Int) (keys : List String) (tokens cost : Int64) (extra : Nat)
    (exclude : Option String) :
    m.evaluateDecisionLimits decision window keys tokens cost extra exclude = decision := by
  simp only [evaluateDecisionLimits]
  induction keys with
  | nil => rfl
  | cons key keys ih => simpa [evaluateKey, hobserve] using ih

theorem decisionFor_observe (hobserve : m.enforcing = false) (principal model : String)
    (window : Int) (keys : List String) :
    m.decisionFor principal model window keys =
      (m, m.openDecision principal model window (m.activeForBudget (keys.headD ""))
        (m.reservationAmountsForKeys model keys)) := by
  simp only [decisionFor, hobserve, Bool.false_eq_true, if_false,
    evaluateDecisionLimits_observe hobserve]

/-! ## What a call answers -/

/-- An append changes the ledger and the counters. -/
theorem append_over (m : Manager) (clk : Clock) :
    ∃ (ledger : String → LedgerEvent → Option Ledger) (counters : String → LedgerEvent → Counters)
      (ok : String → LedgerEvent → Bool), ∀ id event,
        m.append clk id event =
          ({ m with ledger := ledger id event, counters := counters id event }, ok id event) := by
  refine ⟨fun id event => (m.append clk id event).1.ledger,
    fun id event => (m.append clk id event).1.counters,
    fun id event => (m.append clk id event).2, fun id event => ?_⟩
  simp only [append]
  split <;> rfl

variable (clk : Clock) (hobserve : m.enforcing = false)

include hobserve

theorem Alike.admitWithContext (h : m.Alike m') (canceled : Bool) (id : String)
    (admission : AdmissionContext) :
    (m.admitWithContext clk canceled id admission).1.Alike
        (m'.admitWithContext clk canceled id admission).1 ∧
      (m'.admitWithContext clk canceled id admission).2.2 =
        (m.admitWithContext clk canceled id admission).2.2 := by
  obtain ⟨ledger, counters, rfl⟩ := h
  have hover (ledger : Option Ledger) (counters : Counters) :
      ({ m with ledger, counters } : Manager).enforcing = false := hobserve
  obtain ⟨_, _, _, happend⟩ := m.append_over clk
  obtain ⟨_, _, _, happend'⟩ := ({ m with ledger, counters } : Manager).append_over clk
  simp only [Manager.admitWithContext]
  split
  · exact ⟨⟨_, _, rfl⟩, rfl⟩
  · split
    · exact ⟨⟨_, _, rfl⟩, rfl⟩
    · simp only [admitNormalized, decisionFor_observe hobserve, decisionFor_observe (hover _ _),
        hobserve, hover, Bool.false_eq_true, false_and, and_false, if_false, openDecision, if_true,
        happend, happend']
      split
      · exact ⟨⟨_, _, rfl⟩, rfl⟩
      · exact ⟨⟨_, _, rfl⟩, rfl⟩

theorem Alike.bindUpstreamWithDecision (h : m.Alike m') (id upstream : String) :
    (m.bindUpstreamWithDecision clk id upstream).1.Alike
        (m'.bindUpstreamWithDecision clk id upstream).1 ∧
      (m'.bindUpstreamWithDecision clk id upstream).2.2 =
        (m.bindUpstreamWithDecision clk id upstream).2.2 := by
  obtain ⟨ledger, counters, rfl⟩ := h
  have hover (ledger : Option Ledger) (counters : Counters) :
      ({ m with ledger, counters } : Manager).enforcing = false := hobserve
  obtain ⟨_, _, _, happend⟩ := m.append_over clk
  obtain ⟨_, _, _, happend'⟩ := ({ m with ledger, counters } : Manager).append_over clk
  simp only [Manager.bindUpstreamWithDecision]
  split
  · exact ⟨⟨_, _, rfl⟩, rfl⟩
  · split
    · exact ⟨⟨_, _, rfl⟩, rfl⟩
    · split
      · exact ⟨⟨_, _, rfl⟩, rfl⟩
      · simp only [bindingAmounts, hobserve, hover, Bool.false_eq_true, if_false, and_false,
          happend, happend']
        exact ⟨⟨_, _, rfl⟩, trivial⟩

/-- An attempt is added whether or not it can be written down. -/
theorem Alike.reserveAttempt (h : m.Alike m') (reservation : ReservationState)
    (attempt : AttemptState) :
    ∃ begun begun', m.reserveAttempt clk reservation attempt = (begun, none) ∧
      m'.reserveAttempt clk reservation attempt = (begun', none) ∧
        begun.Alike begun' ∧ begun.enforcing = false := by
  obtain ⟨ledger, counters, rfl⟩ := h
  have hover (ledger : Option Ledger) (counters : Counters) :
      ({ m with ledger, counters } : Manager).enforcing = false := hobserve
  obtain ⟨_, _, _, happend⟩ := m.append_over clk
  obtain ⟨_, _, _, happend'⟩ := ({ m with ledger, counters } : Manager).append_over clk
  simp only [Manager.reserveAttempt, hover, Bool.false_eq_true, if_false, and_false, happend,
    happend']
  exact ⟨_, _, rfl, rfl, ⟨_, _, rfl⟩, hobserve⟩

theorem attemptDecision_observe (reservation : ReservationState) (window : Int)
    (keys : List String) : (m.attemptDecision reservation window keys).allowed = true := by
  simp only [attemptDecision, evaluateDecisionLimits_observe hobserve, openDecision]

theorem Alike.attemptDecision (h : m.Alike m') (reservation : ReservationState) (window : Int)
    (keys : List String) :
    m'.attemptDecision reservation window keys = m.attemptDecision reservation window keys := by
  have hobserve' : m'.enforcing = false := h.enforcing.trans hobserve
  obtain ⟨_, _, rfl⟩ := h
  simp only [Manager.attemptDecision, evaluateDecisionLimits_observe hobserve,
    evaluateDecisionLimits_observe hobserve']
  rfl

theorem Alike.begin (h : m.Alike m') (id attemptID : String) :
    (m.begin clk id attemptID).1.Alike (m'.begin clk id attemptID).1 ∧
      (m'.begin clk id attemptID).2.2 = (m.begin clk id attemptID).2.2 := by
  simp only [Manager.begin, h.reservations]
  split
  · exact ⟨h, rfl⟩
  · rename_i reservation _
    split
    · split
      · exact ⟨h, rfl⟩
      · exact ⟨h, rfl⟩
    · simp only [h.attemptDecision hobserve, attemptDecision_observe hobserve, if_true]
      obtain ⟨begun, begun', hbegun, hbegun', halike, -⟩ :=
        h.reserveAttempt clk hobserve reservation (allowedAttempt clk reservation attemptID
          ((m.attemptDecision reservation clk.window reservation.budgetKeys).reservedTokens,
            (m.attemptDecision reservation clk.window reservation.budgetKeys).reservedCostMicros))
      simp only [hbegun, hbegun']
      exact ⟨halike, trivial⟩

theorem Alike.beginAttemptLocked (h : m.Alike m') (reservation : ReservationState)
    (attemptID : String) :
    (m.beginAttemptLocked clk reservation attemptID).1.Alike
        (m'.beginAttemptLocked clk reservation attemptID).1 ∧
      (m.beginAttemptLocked clk reservation attemptID).1.enforcing = false ∧
      ∃ attempt, (m.beginAttemptLocked clk reservation attemptID).2 = .ok attempt ∧
        (m'.beginAttemptLocked clk reservation attemptID).2 = .ok attempt := by
  simp only [Manager.beginAttemptLocked, h.attemptDecision hobserve,
    attemptDecision_observe hobserve, if_true]
  obtain ⟨begun, begun', hbegun, hbegun', halike, hkept⟩ :=
    h.reserveAttempt clk hobserve reservation (allowedAttempt clk reservation attemptID
      ((m.attemptDecision reservation clk.window reservation.budgetKeys).reservedTokens,
        (m.attemptDecision reservation clk.window reservation.budgetKeys).reservedCostMicros))
  simp only [hbegun, hbegun']
  exact ⟨halike, hkept, _, rfl, rfl⟩

theorem Alike.settle (h : m.Alike m') (reservation : ReservationState) (attempt : AttemptState)
    (settlementID : String) (usage : Usage) :
    (m.settle clk reservation attempt settlementID usage).1.Alike
      (m'.settle clk reservation attempt settlementID usage).1 := by
  obtain ⟨ledger, counters, rfl⟩ := h
  have hover (ledger : Option Ledger) (counters : Counters) :
      ({ m with ledger, counters } : Manager).enforcing = false := hobserve
  obtain ⟨_, _, _, happend⟩ := m.append_over clk
  obtain ⟨_, _, _, happend'⟩ := ({ m with ledger, counters } : Manager).append_over clk
  simp only [Manager.settle, hover, Bool.false_eq_true, if_false, and_false, happend, happend']
  exact ⟨_, _, rfl⟩

theorem Alike.record (h : m.Alike m') (id settlementID : String) (usage : Usage) :
    (m.record clk id settlementID usage).1.Alike (m'.record clk id settlementID usage).1 := by
  simp only [Manager.record, h.reservations]
  split
  · exact h
  · split
    · exact h
    · split
      · exact h
      · split
        · exact h.settle clk hobserve _ _ _ _
        · rename_i reservation _ _ _ _ _
          obtain ⟨halike, hkept, attempt, hok, hok'⟩ :=
            h.beginAttemptLocked clk hobserve reservation (trimSpace settlementID)
          generalize m.beginAttemptLocked clk reservation (trimSpace settlementID) = begun at *
          generalize m'.beginAttemptLocked clk reservation (trimSpace settlementID) = begun' at *
          obtain ⟨begun, answer⟩ := begun
          obtain ⟨begun', answer'⟩ := begun'
          obtain rfl : answer = .ok attempt := hok
          obtain rfl : answer' = .ok attempt := hok'
          have halike : begun.Alike begun' := halike
          simp only [halike.reservations]
          split
          · exact halike
          · exact halike.settle clk hkept _ _ _ _

theorem Alike.release (h : m.Alike m') (id : String) :
    (m.release clk id).1.Alike (m'.release clk id).1 := by
  obtain ⟨ledger, counters, rfl⟩ := h
  have hover (ledger : Option Ledger) (counters : Counters) :
      ({ m with ledger, counters } : Manager).enforcing = false := hobserve
  obtain ⟨_, _, _, happend⟩ := m.append_over clk
  obtain ⟨_, _, _, happend'⟩ := ({ m with ledger, counters } : Manager).append_over clk
  simp only [Manager.release]
  split
  · exact ⟨_, _, rfl⟩
  · simp only [hover, Bool.false_eq_true, if_false, and_false, happend, happend']
    exact ⟨_, _, rfl⟩

theorem Alike.perform (h : m.Alike m') (op : Op) : (m.perform op).Alike (m'.perform op) := by
  simp only [Manager.perform]
  split
  · exact (h.admitWithContext _ hobserve _ _ _).1
  · exact (h.bindUpstreamWithDecision _ hobserve _ _).1
  · simp only [Manager.beginAttempt]
    split
    · exact h
    · exact (h.begin _ hobserve _ _).1
  · exact h.record _ hobserve _ _ _
  · exact h.release _ hobserve _

omit hobserve

/-- Compaction touches the ledger and the counters alone, however the rewrite of
the file goes. -/
theorem compact_alike (m : Manager) (stamp : String → Int) (cutoff : Int) (rewrite : Rewrite) :
    m.Alike (m.compact clk stamp cutoff rewrite).1 := by
  have hbeats : m.Alike (m.reservations.items.foldl (heartbeat clk stamp) (m, false)).1 :=
    List.foldlRecOn (motive := fun (acc : Manager × Bool) => m.Alike acc.1) _ _ (.refl m) fun acc h reservation _ => by
      simp only [heartbeat]
      split
      · exact h
      · exact h.trans (append_alike _ _ _ _)
  simp only [compact]
  split
  · exact .refl m
  · split
    · exact hbeats
    · split
      · exact hbeats
      · exact hbeats.trans ⟨_, _, rfl⟩

/-! ## Failed writes are counted -/

/-- `persistenceFailures`. -/
def failures (m : Manager) : Nat := m.counters.persistenceFailures

theorem append_failures (m : Manager) (id : String) (event : LedgerEvent) :
    m.failures ≤ (m.append clk id event).1.failures ∧
      ((m.append clk id event).2 = false → m.failures < (m.append clk id event).1.failures) := by
  simp only [append, failures]
  split
  · exact ⟨le_rfl, by simp⟩
  · dsimp only
    split
    · rename_i hok
      exact ⟨le_rfl, by simp [hok]⟩
    · exact ⟨Nat.le_succ _, fun _ => Nat.lt_succ_self _⟩

theorem decisionFor_failures (m : Manager) (principal model : String) (window : Int)
    (keys : List String) : (m.decisionFor principal model window keys).1.failures = m.failures := by
  simp only [decisionFor]
  split
  · simp only [ledgerUnhealthy]
    split <;> rfl
  · rfl

theorem admitWithContext_failures (m : Manager) (canceled : Bool) (id : String)
    (admission : AdmissionContext) :
    m.failures ≤ (m.admitWithContext clk canceled id admission).1.failures := by
  simp only [admitWithContext]
  split
  · exact le_rfl
  · split
    · exact le_rfl
    · simp only [admitNormalized]
      split
      · exact le_rfl
      · split
        · exact le_rfl
        · generalize hdecided : m.decisionFor admission.normalized.principal
            admission.normalized.model clk.window (m.config.budgetKeys admission.normalized
              admission.normalized.principal admission.normalized.model) = decided
          have hkept : decided.1.failures = m.failures := hdecided ▸ decisionFor_failures ..
          split
          · split
            · exact hkept ▸ (append_failures clk decided.1 _ _).1
            · exact hkept ▸ (append_failures clk decided.1 _ _).1
          · exact hkept.ge

theorem bindUpstreamWithDecision_failures (m : Manager) (id upstream : String) :
    m.failures ≤ (m.bindUpstreamWithDecision clk id upstream).1.failures := by
  simp only [bindUpstreamWithDecision]
  split
  · exact le_rfl
  · split
    · exact le_rfl
    · split
      · exact le_rfl
      · split
        · exact le_rfl
        · split
          · exact (append_failures clk m _ _).1
          · exact (append_failures clk m _ _).1

theorem reserveAttempt_failures (m : Manager) (reservation : ReservationState)
    (attempt : AttemptState) :
    m.failures ≤ (m.reserveAttempt clk reservation attempt).1.failures := by
  simp only [reserveAttempt]
  split
  · exact (append_failures clk m _ _).1
  · exact (append_failures clk m _ _).1

theorem begin_failures (m : Manager) (id attemptID : String) :
    m.failures ≤ (m.begin clk id attemptID).1.failures := by
  simp only [begin]
  split
  · exact le_rfl
  · rename_i reservation _
    split
    · split
      · exact le_rfl
      · exact le_rfl
    · split
      · have hle := reserveAttempt_failures clk m reservation
          (allowedAttempt clk reservation attemptID
            ((m.attemptDecision reservation clk.window reservation.budgetKeys).reservedTokens,
              (m.attemptDecision reservation clk.window reservation.budgetKeys).reservedCostMicros))
        split
        · rename_i heq
          rwa [heq] at hle
        · rename_i heq
          rwa [heq] at hle
      · exact le_rfl

theorem settle_failures (m : Manager) (reservation : ReservationState) (attempt : AttemptState)
    (settlementID : String) (usage : Usage) :
    m.failures ≤ (m.settle clk reservation attempt settlementID usage).1.failures := by
  simp only [settle]
  split
  · exact (append_failures clk m _ _).1
  · exact (append_failures clk m _ _).1

theorem beginAttemptLocked_failures (m : Manager) (reservation : ReservationState)
    (attemptID : String) :
    m.failures ≤ (m.beginAttemptLocked clk reservation attemptID).1.failures := by
  simp only [beginAttemptLocked]
  split
  · have hle := reserveAttempt_failures clk m reservation
      (allowedAttempt clk reservation attemptID
        ((m.attemptDecision reservation clk.window reservation.budgetKeys).reservedTokens,
          (m.attemptDecision reservation clk.window reservation.budgetKeys).reservedCostMicros))
    split
    · rename_i heq
      rwa [heq] at hle
    · rename_i heq
      rwa [heq] at hle
  · exact le_rfl

theorem record_failures (m : Manager) (id settlementID : String) (usage : Usage) :
    m.failures ≤ (m.record clk id settlementID usage).1.failures := by
  simp only [record]
  split
  · exact le_rfl
  · split
    · exact le_rfl
    · rename_i reservation _
      split
      · exact le_rfl
      · split
        · exact settle_failures clk m _ _ _ _
        · have hle := beginAttemptLocked_failures clk m reservation (trimSpace settlementID)
          split
          · rename_i heq
            rwa [heq] at hle
          · rename_i heq
            rw [heq] at hle
            split
            · exact hle
            · exact hle.trans (settle_failures clk _ _ _ _ _)

theorem release_failures (m : Manager) (id : String) :
    m.failures ≤ (m.release clk id).1.failures ∧
      ((m.release clk id).2.isSome → m.failures < (m.release clk id).1.failures) := by
  simp only [release]
  split
  · exact ⟨le_rfl, by simp⟩
  · rename_i reservation _
    obtain ⟨hle, hlt⟩ := append_failures clk m id (.released ⟨reservation.principal, clk.now⟩)
    split
    · rename_i hfails
      exact ⟨hle, fun _ => hlt (by simpa using hfails.1)⟩
    · refine ⟨hle, fun hfails => hlt ?_⟩
      by_contra hok
      rw [Bool.not_eq_false] at hok
      simp [hok] at hfails

theorem act_failures (m : Manager) (action : Action) : m.failures ≤ (m.act action).failures := by
  match action with
  | .step (.call op) =>
      simp only [act, step, perform]
      split
      · exact admitWithContext_failures _ m _ _ _
      · exact bindUpstreamWithDecision_failures _ m _ _
      · simp only [beginAttempt]
        split
        · exact le_rfl
        · exact begin_failures _ m _ _
      · exact record_failures _ m _ _ _
      · exact (release_failures _ m _).1
  | .step (.compact clk stamp cutoff rewrite) =>
      have hbeats : m.failures ≤
          (m.reservations.items.foldl (heartbeat clk stamp) (m, false)).1.failures :=
        List.foldlRecOn (motive := fun (acc : Manager × Bool) => m.failures ≤ acc.1.failures)
          _ _ le_rfl fun acc h reservation _ => by
            simp only [heartbeat]
            split
            · exact h
            · exact h.trans (append_failures _ _ _ _).1
      simp only [act, step, compact]
      split
      · exact le_rfl
      · split
        · exact hbeats
        · split
          · exact hbeats
          · exact hbeats
  | .apply cfg => exact le_rfl

theorem acts_failures (m : Manager) (actions : List Action) :
    m.failures ≤ (m.acts actions).failures :=
  foldl_invariant (P := fun (m' : Manager) => m.failures ≤ m'.failures)
    (fun m' action h => h.trans (act_failures m' action)) le_rfl actions

/-! ## Runs of actions -/

omit clk in
theorem Transition.config {op : Op} (h : Transition op m m') : m'.config = m.config :=
  h.invariant (P := fun m' => m'.config = m.config) (fun hq h => hq.config.trans h)
    (fun hm h => hm.config.trans h) rfl

omit clk in
theorem perform_config (m : Manager) (op : Op) : (m.perform op).config = m.config :=
  run_config m [op]

include hobserve in
theorem perform_observe (op : Op) : (m.perform op).enforcing = false := by
  simpa only [enforcing, perform_config] using hobserve

omit clk in
include hobserve in
theorem Alike.act (h : m.Alike m') {action action' : Action}
    (hsame : action.SameButLedger action') (hkeeps : action.KeepsObserving) :
    (m.act action).Alike (m'.act action') ∧ (m.act action).enforcing = false := by
  cases hsame with
  | same =>
      match action with
      | .step (.call op) => exact ⟨h.perform hobserve op, perform_observe hobserve op⟩
      | .step (.compact clk stamp cutoff rewrite) =>
          have hsides := compact_alike clk m stamp cutoff rewrite
          exact ⟨(hsides.symm.trans h).trans (compact_alike clk m' stamp cutoff rewrite),
            hsides.enforcing.trans hobserve⟩
      | .apply cfg =>
          obtain ⟨_, _, rfl⟩ := h
          have hmode : cfg.mode = .observe := hkeeps
          exact ⟨⟨_, _, rfl⟩, by simp [Manager.act, Manager.apply, Manager.enforcing, hmode]⟩
  | compact clk stamp cutoff rewrite rewrite' =>
      have hsides := compact_alike clk m stamp cutoff rewrite
      exact ⟨(hsides.symm.trans h).trans (compact_alike clk m' stamp cutoff rewrite'),
        hsides.enforcing.trans hobserve⟩

omit clk in
include hobserve in
theorem Alike.acts (h : m.Alike m') {actions actions' : List Action}
    (hsame : List.Forall₂ Action.SameButLedger actions actions')
    (hkeeps : ∀ action ∈ actions, action.KeepsObserving) :
    (m.acts actions).Alike (m'.acts actions') ∧ (m.acts actions).enforcing = false := by
  induction hsame generalizing m m' with
  | nil => exact ⟨h, hobserve⟩
  | cons hhead _ ih =>
      obtain ⟨hnext, hobserve'⟩ := h.act hobserve hhead (hkeeps _ List.mem_cons_self)
      exact ih hobserve' hnext fun action hin => hkeeps action (List.mem_cons_of_mem _ hin)

end Manager

end RelayLifeline.Governance
