import RelayLifeline.Governance.Manager
import RelayLifeline.Lib.Trace

/-!
# What an operation does

Every operation of the manager is a check followed by at most one change of
its accounts, and `Record` on an attempt nobody began is two. This module
names the five changes, gives each the condition it is made under, and
inverts the operations into them once. `perform_transition` is the only place
that takes the operations apart; what every change keeps, every run keeps.

The accounts are what a change touches: the windows, the estimates and the
reservations. The counters and the disk's oracles are the rest of the manager
and no check reads them, health apart.
-/

namespace RelayLifeline.Governance

open Lib

structure Accounts where
  windows : Windows
  estimates : String → ReservationEstimate
  reservations : Table ReservationState

def Manager.accounts (m : Manager) : Accounts := ⟨m.windows, m.estimates, m.reservations⟩

@[simp] theorem Manager.accounts_windows (m : Manager) : m.accounts.windows = m.windows := rfl

@[simp] theorem Manager.accounts_reservations (m : Manager) :
    m.accounts.reservations = m.reservations := rfl

/-! ## Operations as data -/

/-- A call a client makes on the manager. -/
inductive Call where
  | admitWithContext (canceled : Bool) (id : String) (admission : AdmissionContext)
  | bindUpstream (id upstream : String)
  | beginAttempt (id attemptID : String)
  | record (id settlementID : String) (usage : Usage)
  | release (id : String)

/-- The reservation a call is about. -/
def Call.id : Call → String
  | .admitWithContext _ id _ => trimSpace id
  | .bindUpstream id _ => id
  | .beginAttempt id _ => id
  | .record id _ _ => id
  | .release id => id

structure Op where
  clk : Clock
  call : Call

theorem ReservationState.get?_addAttempt (reservation : ReservationState)
    (attempt : AttemptState) :
    (reservation.addAttempt attempt).attempts.get? attempt.id = some attempt :=
  Table.get?_set_self (a := attempt)

namespace Manager

/-- Take a call. `BeginAttempt` here is the form without an upstream; with one
it is a binding and then this. -/
def perform (m : Manager) (op : Op) : Manager :=
  match op.call with
  | .admitWithContext canceled id admission => (m.admitWithContext op.clk canceled id admission).1
  | .bindUpstream id upstream => (m.bindUpstreamWithDecision op.clk id upstream).1
  | .beginAttempt id attemptID => (m.beginAttempt op.clk op.clk id attemptID none).1
  | .record id settlementID usage => (m.record op.clk id settlementID usage).1
  | .release id => (m.release op.clk id).1

end Manager

/-! ## Changes -/

/-- A change of the accounts, with the reservation as it was found. -/
inductive Effect where
  | admitted (reservation : ReservationState) (attempt : AttemptState)
  | bound (reservation : ReservationState) (upstream : String) (newKeys : List String)
      (amounts : List AttemptReservationEvent)
  | began (reservation : ReservationState) (attempt : AttemptState)
  | settled (reservation : ReservationState) (attempt : AttemptState)
      (event : UsageRecordedEvent)
  | released (reservation : ReservationState)

namespace Effect

/-- The reservation a change is about. -/
def id : Effect → String
  | .admitted reservation _ => reservation.id
  | .bound reservation _ _ _ => reservation.id
  | .began reservation _ => reservation.id
  | .settled reservation _ _ => reservation.id
  | .released reservation => reservation.id

/-- The reservation an admission, a binding, an attempt or a settlement
leaves. -/
def reservationAfter (windows : Windows) : Effect → ReservationState
  | .admitted reservation _ => reservation
  | .bound reservation upstream newKeys amounts =>
      { (rebindReservation windows reservation newKeys amounts).2 with
        upstream, budgetKeys := newKeys }
  | .began reservation attempt => reservation.addAttempt attempt
  | .settled reservation attempt event =>
      let released := reservation.releaseAttempt attempt
      { released with
        settlements := reservation.settlements ++ [(event.settlementID, event.costMicros)]
        attempts := released.attempts.set
          { attempt with reservationReleased := true, settled := true } }
  | .released reservation => reservation

def windowsAfter (windows : Windows) : Effect → Windows
  | .admitted _ attempt => windows.applyAttemptReservation attempt
  | .bound reservation _ newKeys amounts =>
      (rebindReservation windows reservation newKeys amounts).1
  | .began _ attempt => windows.applyAttemptReservation attempt
  | .settled _ attempt event =>
      (windows.releaseAttempt attempt).recordUsage attempt.budgetKeys attempt.windowStarted event
  | .released reservation => windows.releaseReservation reservation

def estimatesAfter (estimates : String → ReservationEstimate) :
    Effect → String → ReservationEstimate
  | .settled _ _ event =>
      if event.known then
        Function.update estimates event.model
          ((estimates event.model).update event.totalTokens event.costMicros)
      else estimates
  | _ => estimates

def apply (a : Accounts) (e : Effect) : Accounts where
  windows := e.windowsAfter a.windows
  estimates := e.estimatesAfter a.estimates
  reservations :=
    match e with
    | .released reservation => a.reservations.erase reservation.id
    | e => a.reservations.set (e.reservationAfter a.windows)

/-- What the change writes to the ledger. -/
def event (clk : Clock) : Effect → LedgerEvent
  | .admitted reservation attempt => .reserved
      { principal := reservation.principal, tenant := reservation.tenant,
        upstream := reservation.upstream, model := reservation.model,
        requestID := reservation.requestID, attemptID := attempt.id,
        windowStarted := reservation.windowStarted, startedAt := reservation.startedAt,
        reservedTokens := reservation.reservedTokens,
        reservedCostMicros := reservation.reservedCostMicros,
        budgetKeys := reservation.budgetKeys }
  | .bound reservation upstream newKeys amounts => .bound
      { principal := reservation.principal, upstream, budgetKeys := newKeys,
        attemptReservations := amounts, boundAt := clk.now }
  | .began reservation attempt => .attemptReserved
      { principal := reservation.principal, model := reservation.model, attemptID := attempt.id,
        windowStarted := attempt.windowStarted, reservedTokens := attempt.reservedTokens,
        reservedCostMicros := attempt.reservedCostMicros, budgetKeys := attempt.budgetKeys,
        reservedAt := clk.now }
  | .settled _ _ event => .usageRecorded event
  | .released reservation => .released
      { principal := reservation.principal, releasedAt := clk.now }

def entry (clk : Clock) (e : Effect) : Entry := ⟨clk.stamp, e.id, e.event clk⟩

/-- When a manager makes a change on a call: what was found, and what the
limits said of it. -/
inductive Allowed (m : Manager) (op : Op) : Effect → Prop
  | admitted {id : String} {admission : AdmissionContext} {keys : List String}
      {amounts : Int64 × Int64}
      (target : op.call.id = id)
      (named : id ≠ "")
      (principal : admission.principal ≠ "")
      (fresh : m.reservations.get? id = none)
      (charged : keys = m.config.budgetKeys admission admission.principal admission.model)
      (reserved : amounts = m.reservationAmountsForKeys admission.model keys)
      (limits : m.enforcing → ∀ key ∈ keys,
        m.limitReason op.clk.window amounts.1 amounts.2 1 none key = none) :
      Allowed m op (.admitted (Manager.openReservation op.clk id admission amounts keys)
        (Manager.initialAttempt op.clk amounts keys))
  | bound {reservation : ReservationState} {raw upstream : String} {newKeys : List String}
      {amounts : List AttemptReservationEvent}
      (call : op.call = .bindUpstream reservation.id raw)
      (trimmed : upstream = trimSpace raw)
      (found : m.reservations.get? reservation.id = some reservation)
      (named : upstream ≠ "")
      (elsewhere : reservation.upstream ≠ upstream)
      (charged : newKeys = m.keysAt reservation upstream)
      (reserved : amounts = m.attemptReservations reservation newKeys)
      (limits : m.enforcing → ∀ key ∈ newKeys,
        m.bindingReason op.clk.window reservation amounts key = none) :
      Allowed m op (.bound reservation upstream newKeys amounts)
  | began {reservation : ReservationState} {attemptID : String} {amounts : Int64 × Int64}
      (target : op.call.id = reservation.id)
      (found : m.reservations.get? reservation.id = some reservation)
      (named : attemptID ≠ "")
      (fresh : reservation.attempts.get? attemptID = none)
      (reserved : amounts = m.reservationAmountsForKeys reservation.model reservation.budgetKeys)
      (limits : m.enforcing → ∀ key ∈ reservation.budgetKeys,
        m.limitReason op.clk.window amounts.1 amounts.2 1 (some reservation.id) key = none) :
      Allowed m op (.began reservation
        (Manager.allowedAttempt op.clk reservation attemptID amounts))
  | settled {reservation : ReservationState} {attempt : AttemptState} {usage : Usage}
      (target : op.call.id = reservation.id)
      (found : m.reservations.get? reservation.id = some reservation)
      (named : attempt.id ≠ "")
      (begun : reservation.attempts.get? attempt.id = some attempt)
      (fresh : reservation.settlements.lookup attempt.id = none) :
      Allowed m op (.settled reservation attempt
        (m.usageEvent op.clk reservation attempt attempt.id usage))
  | released {reservation : ReservationState}
      (call : op.call = .release reservation.id)
      (found : m.reservations.get? reservation.id = some reservation) :
      Allowed m op (.released reservation)

end Effect

/-- A change is made on a call about the same reservation. -/
theorem Effect.Allowed.id_eq {m : Manager} {op : Op} {e : Effect} (h : e.Allowed m op) :
    e.id = op.call.id := by
  cases h with
  | admitted target => exact target.symm
  | bound call => rw [call]; rfl
  | began target => exact target.symm
  | settled target => exact target.symm
  | released call => rw [call]; rfl

/-! ## What a call asks for -/

/-- The keys to be charged, and how many attempts with which amounts each. -/
structure Demand where
  keys : List String
  count : Nat
  tokens : Int64
  costMicros : Int64

/-- What a change charges. A binding is checked for the attempts of its own
minute. -/
def Effect.demand (m : Manager) (clk : Clock) : Effect → Option Demand
  | .admitted _ attempt =>
      some ⟨attempt.budgetKeys, 1, attempt.reservedTokens, attempt.reservedCostMicros⟩
  | .bound reservation _ newKeys _ =>
      let amounts := m.reservationAmountsForKeys reservation.model newKeys
      some ⟨newKeys, (Manager.attemptsIn reservation clk.window).length, amounts.1, amounts.2⟩
  | .began _ attempt =>
      some ⟨attempt.budgetKeys, 1, attempt.reservedTokens, attempt.reservedCostMicros⟩
  | .settled _ _ _ => none
  | .released _ => none

namespace Manager

/-- What a call asks of the budgets: an admission, a binding to an upstream
the reservation is not at, or an attempt it does not have outstanding. -/
def demand (m : Manager) (op : Op) : Option Demand :=
  match op.call with
  | .admitWithContext _ _ admission =>
      let admission := admission.normalized
      let keys := m.config.budgetKeys admission admission.principal admission.model
      let amounts := m.reservationAmountsForKeys admission.model keys
      some ⟨keys, 1, amounts.1, amounts.2⟩
  | .bindUpstream id upstream =>
      match m.reservations.get? id with
      | none => none
      | some reservation =>
          if reservation.upstream = trimSpace upstream then none
          else
            let keys := m.keysAt reservation (trimSpace upstream)
            let amounts := m.reservationAmountsForKeys reservation.model keys
            some ⟨keys, (attemptsIn reservation op.clk.window).length, amounts.1, amounts.2⟩
  | .beginAttempt id attemptID =>
      match m.reservations.get? id with
      | none => none
      | some reservation =>
          if (reservation.attempts.get? (trimSpace attemptID)).any AttemptState.outstanding then none
          else
            let amounts := m.reservationAmountsForKeys reservation.model reservation.budgetKeys
            some ⟨reservation.budgetKeys, 1, amounts.1, amounts.2⟩
  | _ => none

/-- The error a call answers with. -/
def answer (m : Manager) (op : Op) : Option Error :=
  match op.call with
  | .admitWithContext canceled id admission => (m.admitWithContext op.clk canceled id admission).2.2
  | .bindUpstream id upstream => (m.bindUpstreamWithDecision op.clk id upstream).2.2
  | .beginAttempt id attemptID => (m.beginAttempt op.clk op.clk id attemptID none).2.2
  | .record id settlementID usage => (m.record op.clk id settlementID usage).2.2
  | .release id => (m.release op.clk id).2

/-- The entries the ledger holds. -/
def entries (m : Manager) : List Entry :=
  match m.ledger with
  | some ledger => ledger.entries
  | none => []

/-- There is a ledger and every write to it from here on succeeds. -/
def Durable (m : Manager) : Prop :=
  ∃ ledger, m.ledger = some ledger ∧ ledger.state = .healthy ∧ ledger.faults = []

/-- Nothing changed but counters and oracles. -/
structure Quiet (m m' : Manager) : Prop where
  config : m'.config = m.config
  accounts : m'.accounts = m.accounts
  entries : m'.entries = m.entries
  durable : m.Durable → m'.Durable

/-- One change was made and, where writes succeed, written down. -/
structure Makes (op : Op) (m : Manager) (e : Effect) (m' : Manager) : Prop where
  allowed : e.Allowed m op
  config : m'.config = m.config
  accounts : m'.accounts = e.apply m.accounts
  durable : m.Durable → m'.Durable ∧ m'.entries = m.entries ++ [e.entry op.clk]

/-- What a call can do to a manager: nothing, one change, or begin an attempt
and settle it. -/
inductive Transition (op : Op) (m m' : Manager) : Prop
  | quiet (h : Quiet m m')
  | change {e : Effect} (h : Makes op m e m')
  | beginAndSettle {m₁ : Manager} {reservation reservation' : ReservationState}
      {attempt : AttemptState} {event : UsageRecordedEvent}
      (began : Makes op m (.began reservation attempt) m₁)
      (settled : Makes op m₁ (.settled reservation' attempt event) m')

/-- What becomes of a call that asks for places: it is refused, it has nothing
to ask for, or it is granted. -/
inductive Asked (op : Op) (m m' : Manager) : Option Error → Prop
  | refused {error : Error} (h : Quiet m m') : Asked op m m' (some error)
  | idle (nothing : m.demand op = none) (h : m' = m) : Asked op m m' none
  | granted {e : Effect} {d : Demand} (asked : m.demand op = some d)
      (charged : e.demand m op.clk = some d) (h : Makes op m e m') : Asked op m m' none

theorem Quiet.refl (m : Manager) : Quiet m m := ⟨rfl, rfl, rfl, id⟩

theorem Quiet.windows {m m' : Manager} (h : Quiet m m') : m'.windows = m.windows :=
  congrArg Accounts.windows h.accounts

theorem Quiet.reservations {m m' : Manager} (h : Quiet m m') : m'.reservations = m.reservations :=
  congrArg Accounts.reservations h.accounts

theorem Makes.windows {op : Op} {m m' : Manager} {e : Effect} (h : Makes op m e m') :
    m'.windows = e.windowsAfter m.windows :=
  congrArg Accounts.windows h.accounts

theorem Makes.reservations {op : Op} {m m' : Manager} {e : Effect} (h : Makes op m e m') :
    m'.reservations = (e.apply m.accounts).reservations :=
  congrArg Accounts.reservations h.accounts

/-! ## The pieces operations are made of -/

theorem quiet_reject (m : Manager) (reason : Reason) : Quiet m (m.reject reason) :=
  ⟨rfl, rfl, rfl, id⟩

/-- An append touches nothing but the ledger and one counter. -/
theorem append_rest (m : Manager) (clk : Clock) (id : String) (event : LedgerEvent) :
    (m.append clk id event).1.config = m.config ∧
      (m.append clk id event).1.accounts = m.accounts := by
  unfold append
  split <;> exact ⟨rfl, rfl⟩

theorem append_durable {m : Manager} (h : m.Durable) (clk : Clock) (id : String)
    (event : LedgerEvent) :
    (m.append clk id event).2 = true ∧ (m.append clk id event).1.Durable ∧
      (m.append clk id event).1.entries = m.entries ++ [⟨clk.stamp, id, event⟩] := by
  obtain ⟨ledger, hl, hs, hf⟩ := h
  simp only [append, hl, Ledger.append, hs, hf, entries]
  exact ⟨trivial, ⟨_, rfl, rfl, rfl⟩, trivial⟩

/-- A write that fails leaves the entries alone. -/
theorem quiet_append {m m' : Manager} {clk : Clock} {id : String} {event : LedgerEvent}
    (h : m.append clk id event = (m', false)) : Quiet m m' := by
  obtain ⟨hc, ha⟩ := append_rest m clk id event
  rw [h] at hc ha
  refine ⟨hc, ha, ?_, fun hd => ?_⟩
  · unfold append at h
    split at h
    · cases h
    · next ledger hl =>
        have hkeep : ∀ l, ledger.append ⟨clk.stamp, id, event⟩ = (l, false) →
            l.entries = ledger.entries := by
          intro l hfail
          unfold Ledger.append at hfail
          split at hfail
          · cases hfail; rfl
          · cases hfail; rfl
          · split at hfail <;> cases hfail
            rfl
        rcases hres : ledger.append ⟨clk.stamp, id, event⟩ with ⟨l, ok⟩
        rw [hres] at h
        cases h
        simp only [entries, hl]
        exact hkeep l hres
  · have := (append_durable hd clk id event).1
    rw [h] at this
    cases this

theorem Quiet.trans {m m₁ m' : Manager} (h : Quiet m m₁) (h' : Quiet m₁ m') : Quiet m m' :=
  ⟨h'.config.trans h.config, h'.accounts.trans h.accounts, h'.entries.trans h.entries,
    fun hd => h'.durable (h.durable hd)⟩

theorem Makes.trans_quiet {op : Op} {m m₁ m' : Manager} {e : Effect} (h : Makes op m e m₁)
    (hq : Quiet m₁ m') : Makes op m e m' :=
  ⟨h.allowed, hq.config.trans h.config, hq.accounts.trans h.accounts, fun hd =>
    ⟨hq.durable (h.durable hd).1, hq.entries.trans (h.durable hd).2⟩⟩

/-- A change made after an append: written down where writes succeed. -/
theorem makes_of_append {op : Op} {m m₀ m₁ m' : Manager} {e : Effect} {ok : Bool}
    (hq : Quiet m m₀) (hallowed : e.Allowed m op)
    (happ : m₀.append op.clk e.id (e.event op.clk) = (m₁, ok)) (hconfig : m'.config = m₁.config)
    (haccounts : m'.accounts = e.apply m₁.accounts) (hledger : m'.ledger = m₁.ledger) :
    Makes op m e m' := by
  obtain ⟨hc, ha⟩ := append_rest m₀ op.clk e.id (e.event op.clk)
  rw [happ] at hc ha
  refine ⟨hallowed, hconfig.trans (hc.trans hq.config),
    by rw [haccounts, ha, hq.accounts], fun hd => ?_⟩
  obtain ⟨-, hd', he⟩ := append_durable (hq.durable hd) op.clk e.id (e.event op.clk)
  rw [happ] at hd' he
  rw [hq.entries] at he
  simp only [Durable, entries, hledger] at hd' he ⊢
  exact ⟨hd', he⟩

theorem granted_of_append {op : Op} {m m₀ m₁ m' : Manager} {e : Effect} {d : Demand}
    {ok : Bool} (hasked : m.demand op = some d) (hcharged : e.demand m op.clk = some d)
    (hq : Quiet m m₀) (hallowed : e.Allowed m op)
    (happ : m₀.append op.clk e.id (e.event op.clk) = (m₁, ok)) (hconfig : m'.config = m₁.config)
    (haccounts : m'.accounts = e.apply m₁.accounts) (hledger : m'.ledger = m₁.ledger) :
    Asked op m m' none :=
  .granted hasked hcharged (makes_of_append hq hallowed happ hconfig haccounts hledger)

theorem evaluateKey_spec (m : Manager) (window : Int) (tokens cost : Int64) (extra : Nat)
    (exclude : Option String) (decision : Decision) (key : String) :
    let result := m.evaluateKey window tokens cost extra exclude decision key
    (result.allowed = true ↔ decision.allowed = true ∧
      (m.enforcing → m.limitReason window tokens cost extra exclude key = none)) ∧
      result.reservedTokens = decision.reservedTokens ∧
      result.reservedCostMicros = decision.reservedCostMicros := by
  unfold evaluateKey
  split
  · next henf =>
      split
      · next reason hlim => simp [henf.1, hlim]
      · next hlim => simp [hlim]
  · next henf =>
      refine ⟨⟨fun hd => ⟨hd, fun he => absurd ⟨he, hd⟩ henf⟩, And.left⟩, rfl, rfl⟩

/-- What a chain of limit checks decides, and what it leaves alone. -/
theorem evaluateDecisionLimits_spec (m : Manager) (decision : Decision) (window : Int)
    (keys : List String) (tokens cost : Int64) (extra : Nat) (exclude : Option String) :
    let result := m.evaluateDecisionLimits decision window keys tokens cost extra exclude
    (result.allowed = true ↔ decision.allowed = true ∧ (m.enforcing → ∀ key ∈ keys,
      m.limitReason window tokens cost extra exclude key = none)) ∧
      result.reservedTokens = decision.reservedTokens ∧
      result.reservedCostMicros = decision.reservedCostMicros := by
  unfold evaluateDecisionLimits
  induction keys generalizing decision with
  | nil => simp
  | cons key keys ih =>
      obtain ⟨hkey, hkt, hkc⟩ := m.evaluateKey_spec window tokens cost extra exclude decision key
      obtain ⟨h, ht, hc⟩ := ih (m.evaluateKey window tokens cost extra exclude decision key)
      simp only [List.foldl_cons, List.forall_mem_cons]
      refine ⟨?_, ht.trans hkt, hc.trans hkc⟩
      rw [h, hkey]
      tauto

/-- The limits read the configuration and the accounts only. -/
theorem limitReason_congr {m m' : Manager} (h : Quiet m m') (window : Int) (tokens cost : Int64)
    (extra : Nat) (exclude : Option String) (key : String) :
    m'.limitReason window tokens cost extra exclude key =
      m.limitReason window tokens cost extra exclude key := by
  unfold limitReason activeForBudgetExcluding
  rw [h.config, h.windows, h.reservations]

theorem Quiet.enforcing {m m' : Manager} (h : Quiet m m') : m'.enforcing = m.enforcing := by
  unfold Manager.enforcing
  rw [h.config]

theorem Makes.enforcing {op : Op} {m m' : Manager} {e : Effect} (h : Makes op m e m') :
    m'.enforcing = m.enforcing := by
  unfold Manager.enforcing
  rw [h.config]

theorem quiet_ledgerUnhealthy (m : Manager) : Quiet m m.ledgerUnhealthy.1 := by
  unfold ledgerUnhealthy
  split
  · exact .refl m
  · next ledger hl =>
      have hkeep : ledger.health.1.entries = ledger.entries ∧
          ledger.health.1.state = ledger.state ∧ ledger.health.1.faults = ledger.faults := by
        unfold Ledger.health
        split
        · exact ⟨rfl, rfl, rfl⟩
        · exact ⟨rfl, rfl, rfl⟩
        · split <;> exact ⟨rfl, rfl, rfl⟩
      refine ⟨rfl, rfl, ?_, ?_⟩
      · simp only [entries, hl]
        exact hkeep.1
      · rintro ⟨l, hl', hs, hf⟩
        obtain rfl : ledger = l := Option.some.inj (hl.symm.trans hl')
        exact ⟨_, rfl, hkeep.2.1.trans hs, hkeep.2.2.trans hf⟩

/-- What `decisionLocked` allows. -/
theorem decisionFor_spec {m m' : Manager} {principal model : String} {window : Int}
    {keys : List String} {decision : Decision}
    (h : m.decisionFor principal model window keys = (m', decision)) :
    Quiet m m' ∧
      (decision.reservedTokens, decision.reservedCostMicros) =
        m.reservationAmountsForKeys model keys ∧
      (decision.allowed = true → m.enforcing → ∀ key ∈ keys,
        m.limitReason window decision.reservedTokens decision.reservedCostMicros 1 none key =
          none) := by
  unfold decisionFor at h
  dsimp only at h
  generalize hprobe : (if m.enforcing then m.ledgerUnhealthy else (m, false)) = probe at h
  have hq : Quiet m probe.1 := by
    rw [← hprobe]
    split
    · exact m.quiet_ledgerUnhealthy
    · exact .refl m
  obtain ⟨m₁, unhealthy⟩ := probe
  simp only [Prod.mk.injEq] at h
  obtain ⟨rfl, rfl⟩ := h
  have hspec := m₁.evaluateDecisionLimits_spec
    (if unhealthy then
      { m.openDecision principal model window (m.activeForBudget (keys.headD ""))
          (m.reservationAmountsForKeys model keys) with
        allowed := false, reason := some .ledgerUnavailable }
    else m.openDecision principal model window (m.activeForBudget (keys.headD ""))
      (m.reservationAmountsForKeys model keys))
    window keys (m.reservationAmountsForKeys model keys).1
    (m.reservationAmountsForKeys model keys).2 1 none
  obtain ⟨hallowed, ht, hc⟩ := hspec
  have ht' := ht.trans (b := _) (c := (m.reservationAmountsForKeys model keys).1)
    (by split <;> rfl)
  have hc' := hc.trans (b := _) (c := (m.reservationAmountsForKeys model keys).2)
    (by split <;> rfl)
  refine ⟨hq, Prod.ext ht' hc', fun hd he key hk => ?_⟩
  rw [ht', hc', ← limitReason_congr hq]
  exact (hallowed.1 hd).2 (by rw [hq.enforcing]; exact he) key hk

/-- What `attemptDecisionLocked` allows. -/
theorem attemptDecision_spec (m : Manager) (reservation : ReservationState) (window : Int)
    (keys : List String) :
    let decision := m.attemptDecision reservation window keys
    (decision.reservedTokens, decision.reservedCostMicros) =
        m.reservationAmountsForKeys reservation.model keys ∧
      (decision.allowed = true → m.enforcing → ∀ key ∈ keys,
        m.limitReason window decision.reservedTokens decision.reservedCostMicros 1
          (some reservation.id) key = none) := by
  obtain ⟨hallowed, ht, hc⟩ := m.evaluateDecisionLimits_spec
    (m.openDecision reservation.principal reservation.model window
      (m.activeForBudget (keys.headD "")) (m.reservationAmountsForKeys reservation.model keys))
    window keys (m.reservationAmountsForKeys reservation.model keys).1
    (m.reservationAmountsForKeys reservation.model keys).2 1 (some reservation.id)
  refine ⟨Prod.ext ht hc, fun hd he key hk => ?_⟩
  unfold attemptDecision at hd ⊢
  simp only [ht, hc]
  exact (hallowed.1 hd).2 he key hk

/-! ## Each operation, inverted -/

theorem admit_asked (m : Manager) (op : Op) (id : String) (admission : AdmissionContext)
    (htarget : op.call.id = id) (hid : id ≠ "") (hp : admission.principal ≠ "")
    (hasked : let keys := m.config.budgetKeys admission admission.principal admission.model
      let amounts := m.reservationAmountsForKeys admission.model keys
      m.demand op = some ⟨keys, 1, amounts.1, amounts.2⟩) :
    Asked op m (m.admitNormalized op.clk id admission).1 (m.admitNormalized op.clk id admission).2.2 := by
  unfold admitNormalized
  split
  · exact .refused (m.quiet_reject _)
  · split
    · exact .refused (.refl m)
    · next hfresh =>
        dsimp only at hasked ⊢
        generalize hkeys : m.config.budgetKeys admission admission.principal admission.model =
          keys at hasked ⊢
        rcases hdec : m.decisionFor admission.principal admission.model op.clk.window keys with
          ⟨m₁, decision⟩
        obtain ⟨hq, hamounts, hlimits⟩ := decisionFor_spec hdec
        dsimp only
        split
        · next hallowed =>
            have hmakes : Effect.Allowed m op (.admitted
                (openReservation op.clk id admission
                  (decision.reservedTokens, decision.reservedCostMicros) keys)
                (initialAttempt op.clk
                  (decision.reservedTokens, decision.reservedCostMicros) keys)) :=
              .admitted htarget hid hp (by simpa using hfresh) hkeys.symm hamounts
                (hlimits hallowed)
            rw [← hamounts] at hasked
            generalize (decision.reservedTokens, decision.reservedCostMicros) = amounts at hmakes hasked ⊢
            rcases happ : m₁.append op.clk id
              (.reserved (reservedEvent op.clk admission amounts keys)) with ⟨m₂, ok⟩
            dsimp only
            split
            · next hfail =>
                obtain rfl : ok = false := by simpa using hfail.1
                exact .refused ((hq.trans (quiet_append happ)).trans (m₂.quiet_reject _))
            · exact granted_of_append hasked rfl hq hmakes happ rfl rfl rfl
        · exact .refused (hq.trans (m₁.quiet_reject _))

theorem admitWithContext_asked (m : Manager) (clk : Clock) (canceled : Bool) (id : String)
    (admission : AdmissionContext) :
    let result := m.admitWithContext clk canceled id admission
    Asked ⟨clk, .admitWithContext canceled id admission⟩ m result.1 result.2.2 := by
  unfold admitWithContext
  split
  · exact .refused (.refl m)
  · dsimp only
    split
    · exact .refused (.refl m)
    · next hid =>
        exact m.admit_asked ⟨clk, .admitWithContext canceled id admission⟩ _ _ rfl (fun h => hid (.inl h))
          admission.principal_normalized rfl

theorem bindingAmounts_ok {m : Manager} {clk : Clock} {reservation : ReservationState}
    {newKeys : List String} {amounts : List AttemptReservationEvent} :
    m.bindingAmounts clk reservation newKeys = .ok amounts ↔
      amounts = m.attemptReservations reservation newKeys ∧
        (m.enforcing → ∀ key ∈ newKeys, m.bindingReason clk.window reservation amounts key = none) := by
  unfold bindingAmounts
  dsimp only
  split
  · next henf =>
      split
      · next reason hsome =>
          constructor
          · intro h
            cases h
          · rintro ⟨rfl, hlim⟩
            have hnone := List.findSome?_eq_none_iff.2 (hlim henf)
            rw [hnone] at hsome
            cases hsome
      · next hnone =>
          constructor
          · rintro h
            cases h
            exact ⟨rfl, fun _ => List.findSome?_eq_none_iff.1 hnone⟩
          · rintro ⟨rfl, -⟩
            rfl
  · next henf =>
      constructor
      · intro h
        cases h
        exact ⟨rfl, fun he => absurd he henf⟩
      · rintro ⟨rfl, -⟩
        rfl

theorem bindUpstream_asked (m : Manager) (clk : Clock) (id upstream : String) :
    let result := m.bindUpstreamWithDecision clk id upstream
    Asked ⟨clk, .bindUpstream id upstream⟩ m result.1 result.2.2 := by
  unfold bindUpstreamWithDecision
  dsimp only
  split
  · exact .refused (.refl m)
  · next hnamed =>
      split
      · exact .refused (.refl m)
      · next reservation hget =>
          obtain rfl : reservation.id = id := Table.key_of_get? hget
          split
          · next hsame => exact .idle (by simp [demand, hget, hsame]) rfl
          · next helse =>
              split
              · exact .refused (.refl m)
              · next amounts hamounts =>
                  obtain ⟨hreserved, hlimits⟩ := bindingAmounts_ok.1 hamounts
                  have hallowed : Effect.Allowed m ⟨clk, .bindUpstream reservation.id upstream⟩
                      (.bound reservation (trimSpace upstream)
                        (m.keysAt reservation (trimSpace upstream)) amounts) :=
                    .bound rfl rfl hget (fun h => hnamed (.inl h)) helse rfl hreserved hlimits
                  rcases happ : m.append clk reservation.id (.bound
                    { principal := reservation.principal, upstream := trimSpace upstream,
                      budgetKeys := m.keysAt reservation (trimSpace upstream),
                      attemptReservations := amounts, boundAt := clk.now }) with ⟨m₁, ok⟩
                  dsimp only
                  split
                  · next hfail =>
                      obtain rfl : ok = false := by simpa using hfail.1
                      exact .refused (quiet_append happ)
                  · refine granted_of_append ?_ rfl (.refl m) hallowed happ rfl rfl rfl
                    simp [demand, hget, helse]

theorem Makes.get?_began {op : Op} {m m' : Manager} {reservation : ReservationState}
    {attempt : AttemptState} (h : Makes op m (.began reservation attempt) m') :
    m'.reservations.get? reservation.id = some (reservation.addAttempt attempt) := by
  rw [← m'.accounts_reservations, h.accounts]
  exact Table.get?_set_self (a := reservation.addAttempt attempt)

/-- The attempt of an allowed decision is written down and added, or nothing
happens. -/
theorem reserveAttempt_cases {m m' : Manager} {op : Op} {reservation : ReservationState}
    {attempt : AttemptState} {error : Option Error}
    (hallowed : Effect.Allowed m op (.began reservation attempt))
    (h : m.reserveAttempt op.clk reservation attempt = (m', error)) :
    (error = none ∧ Makes op m (.began reservation attempt) m') ∨
      error ≠ none ∧ Quiet m m' := by
  unfold reserveAttempt at h
  rcases happ : m.append op.clk reservation.id (.attemptReserved
    { principal := reservation.principal, model := reservation.model, attemptID := attempt.id,
      windowStarted := attempt.windowStarted, reservedTokens := attempt.reservedTokens,
      reservedCostMicros := attempt.reservedCostMicros, budgetKeys := attempt.budgetKeys,
      reservedAt := op.clk.now }) with ⟨m₁, ok⟩
  rw [happ] at h
  dsimp only at h
  split at h
  · next hfail =>
      obtain rfl : ok = false := by simpa using hfail.1
      obtain ⟨rfl, rfl⟩ := Prod.mk.inj h
      exact .inr ⟨by simp, quiet_append happ⟩
  · obtain ⟨rfl, rfl⟩ := Prod.mk.inj h
    exact .inl ⟨rfl, makes_of_append (.refl m) hallowed happ rfl rfl rfl⟩

/-- The decision on one more attempt, when it allows it. -/
theorem began_allowed {m : Manager} (op : Op) {reservation : ReservationState}
    {attemptID : String} (htarget : op.call.id = reservation.id)
    (hfound : m.reservations.get? reservation.id = some reservation) (hid : attemptID ≠ "")
    (hfresh : reservation.attempts.get? attemptID = none)
    (hd : (m.attemptDecision reservation op.clk.window reservation.budgetKeys).allowed = true) :
    let decision := m.attemptDecision reservation op.clk.window reservation.budgetKeys
    Effect.Allowed m op (.began reservation (allowedAttempt op.clk reservation attemptID
      (decision.reservedTokens, decision.reservedCostMicros))) := by
  obtain ⟨hamounts, hlimits⟩ :=
    m.attemptDecision_spec reservation op.clk.window reservation.budgetKeys
  exact .began htarget hfound hid hfresh hamounts (hlimits hd)

theorem begin_asked (m : Manager) (clk : Clock) (id raw : String) (hid : trimSpace raw ≠ "") :
    let result := m.begin clk id (trimSpace raw)
    Asked ⟨clk, .beginAttempt id raw⟩ m result.1 result.2.2 := by
  unfold begin
  dsimp only
  split
  · exact .refused (.refl m)
  · next reservation hget =>
      obtain rfl : reservation.id = id := Table.key_of_get? hget
      split
      · next existing hexisting =>
          split
          · next hout => exact .idle (by simp [demand, hget, hexisting, hout]) rfl
          · exact .refused (.refl m)
      · next hfresh =>
          split
          · next hd =>
              have hallowed := began_allowed ⟨clk, .beginAttempt reservation.id raw⟩
                rfl hget hid hfresh hd
              split
              · next m' h =>
                  rcases reserveAttempt_cases hallowed h with ⟨-, hmakes⟩ | ⟨hne, -⟩
                  · refine .granted ?_ rfl hmakes
                    obtain ⟨hamounts, -⟩ :=
                      m.attemptDecision_spec reservation clk.window reservation.budgetKeys
                    simp [demand, hget, hfresh, allowedAttempt, ← hamounts]
                  · exact absurd rfl hne
              · next m' error h =>
                  rcases reserveAttempt_cases hallowed h with ⟨hnone, -⟩ | ⟨-, hq⟩
                  · cases hnone
                  · exact .refused hq
          · exact .refused (m.quiet_reject _)

theorem beginAttempt_asked (m : Manager) (clk : Clock) (id attemptID : String) :
    let result := m.beginAttempt clk clk id attemptID none
    Asked ⟨clk, .beginAttempt id attemptID⟩ m result.1 result.2.2 := by
  unfold beginAttempt
  dsimp only
  split
  · exact .refused (.refl m)
  · next hid => exact m.begin_asked clk id attemptID fun h => hid (.inl h)

theorem settle_cases {m : Manager} (op : Op) {reservation : ReservationState}
    {attempt : AttemptState} {usage : Usage} (htarget : op.call.id = reservation.id)
    (hfound : m.reservations.get? reservation.id = some reservation) (hid : attempt.id ≠ "")
    (hbegun : reservation.attempts.get? attempt.id = some attempt)
    (hfresh : reservation.settlements.lookup attempt.id = none) :
    let m' := (m.settle op.clk reservation attempt attempt.id usage).1
    Quiet m m' ∨ Makes op m (.settled reservation attempt
      (m.usageEvent op.clk reservation attempt attempt.id usage)) m' := by
  have hallowed : Effect.Allowed m op (.settled reservation attempt
      (m.usageEvent op.clk reservation attempt attempt.id usage)) :=
    .settled htarget hfound hid hbegun hfresh
  unfold settle
  dsimp only
  rcases happ : m.append op.clk reservation.id (.usageRecorded
    (m.usageEvent op.clk reservation attempt attempt.id usage)) with ⟨m₁, ok⟩
  dsimp only
  split
  · next hfail =>
      obtain rfl : ok = false := by simpa using hfail.1
      exact .inl (quiet_append happ)
  · exact .inr (makes_of_append (.refl m) hallowed happ rfl rfl rfl)

theorem quiet_beginAttemptLocked {m m' : Manager} (op : Op) {reservation : ReservationState}
    {attemptID : String} {error : Error} (htarget : op.call.id = reservation.id)
    (hfound : m.reservations.get? reservation.id = some reservation) (hid : attemptID ≠ "")
    (hfresh : reservation.attempts.get? attemptID = none)
    (h : m.beginAttemptLocked op.clk reservation attemptID = (m', .error error)) : Quiet m m' := by
  unfold beginAttemptLocked at h
  dsimp only at h
  split at h
  · next hd =>
      split at h
      · cases h
      · next hres =>
          cases h
          rcases reserveAttempt_cases (began_allowed op htarget hfound hid hfresh hd) hres with
            ⟨hnone, -⟩ | ⟨-, hq⟩
          · cases hnone
          · exact hq
  · cases h
    exact .refl m

theorem makes_beginAttemptLocked {m m' : Manager} (op : Op) {reservation : ReservationState}
    {attemptID : String} {attempt : AttemptState} (htarget : op.call.id = reservation.id)
    (hfound : m.reservations.get? reservation.id = some reservation) (hid : attemptID ≠ "")
    (hfresh : reservation.attempts.get? attemptID = none)
    (h : m.beginAttemptLocked op.clk reservation attemptID = (m', .ok attempt)) :
    Makes op m (.began reservation attempt) m' ∧ attempt.id = attemptID := by
  unfold beginAttemptLocked at h
  dsimp only at h
  split at h
  · next hd =>
      split at h
      · next hres =>
          cases h
          rcases reserveAttempt_cases (began_allowed op htarget hfound hid hfresh hd) hres with
            ⟨-, hmakes⟩ | ⟨hne, -⟩
          · exact ⟨hmakes, rfl⟩
          · exact absurd rfl hne
      · cases h
  · cases h

theorem record_transition (m : Manager) (clk : Clock) (id settlementID : String) (usage : Usage) :
    Transition ⟨clk, .record id settlementID usage⟩ m
      (m.record clk id settlementID usage).1 := by
  unfold record
  dsimp only
  generalize trimSpace settlementID = attemptID
  split
  · exact .quiet (.refl m)
  · next hid =>
      have hne : attemptID ≠ "" := fun h => hid (.inl h)
      split
      · exact .quiet (.refl m)
      · next reservation hget =>
          obtain rfl : reservation.id = id := Table.key_of_get? hget
          split
          · exact .quiet (.refl m)
          · next hlookup =>
              split
              · next attempt hattempt =>
                  obtain rfl : attempt.id = attemptID := Table.key_of_get? hattempt
                  rcases settle_cases ⟨clk, .record reservation.id settlementID usage⟩
                    rfl hget hne hattempt hlookup with hq | hmakes
                  · exact .quiet hq
                  · exact .change hmakes
              · next hfresh =>
                  split
                  · next m₁ error hbegin =>
                      exact .quiet (quiet_beginAttemptLocked
                        ⟨clk, .record reservation.id settlementID usage⟩
                        rfl hget hne hfresh hbegin)
                  · next m₁ attempt hbegin =>
                      obtain ⟨hbegan, rfl⟩ := makes_beginAttemptLocked
                        ⟨clk, .record reservation.id settlementID usage⟩
                        rfl hget hne hfresh hbegin
                      have hget₁ := hbegan.get?_began
                      rw [hget₁]
                      rcases settle_cases ⟨clk, .record reservation.id settlementID usage⟩
                        (by exact rfl) hget₁ hne (reservation.get?_addAttempt attempt)
                        hlookup with hq | hsettled
                      · exact .change (hbegan.trans_quiet hq)
                      · exact .beginAndSettle hbegan hsettled

theorem release_cases (m : Manager) (clk : Clock) (id : String) :
    Quiet m (m.release clk id).1 ∨ ∃ reservation,
      Makes ⟨clk, .release id⟩ m (.released reservation) (m.release clk id).1 := by
  unfold release
  split
  · exact .inl (.refl m)
  · next reservation hget =>
      obtain rfl : reservation.id = id := Table.key_of_get? hget
      have hallowed : Effect.Allowed m ⟨clk, .release reservation.id⟩ (.released reservation) :=
        .released rfl hget
      rcases happ : m.append clk reservation.id (.released
        { principal := reservation.principal, releasedAt := clk.now }) with ⟨m₁, ok⟩
      dsimp only
      split
      · next hfail =>
          obtain rfl : ok = false := by simpa using hfail.1
          exact .inl (quiet_append happ)
      · exact .inr ⟨reservation, makes_of_append (.refl m) hallowed happ rfl rfl rfl⟩

theorem release_transition (m : Manager) (clk : Clock) (id : String) :
    Transition ⟨clk, .release id⟩ m (m.release clk id).1 := by
  rcases m.release_cases clk id with hq | ⟨reservation, hmakes⟩
  · exact .quiet hq
  · exact .change hmakes

theorem Asked.transition {op : Op} {m m' : Manager} {error : Option Error}
    (h : Asked op m m' error) : Transition op m m' := by
  cases h with
  | refused hq => exact .quiet hq
  | idle hnothing hsame => exact .quiet (hsame ▸ .refl m)
  | granted hasked hcharged hmakes => exact .change hmakes

/-- What any call does. -/
theorem perform_transition (m : Manager) (op : Op) : Transition op m (m.perform op) := by
  obtain ⟨clk, call⟩ := op
  cases call with
  | admitWithContext canceled id admission => exact (m.admitWithContext_asked clk canceled id admission).transition
  | bindUpstream id upstream => exact (m.bindUpstream_asked clk id upstream).transition
  | beginAttempt id attemptID => exact (m.beginAttempt_asked clk id attemptID).transition
  | record id settlementID usage => exact m.record_transition clk id settlementID usage
  | release id => exact m.release_transition clk id

/-- A call that asks for places is refused or granted them. -/
theorem asked_of_demand {m : Manager} {op : Op} {d : Demand} (h : m.demand op = some d) :
    Asked op m (m.perform op) (m.answer op) := by
  obtain ⟨clk, call⟩ := op
  cases call with
  | admitWithContext canceled id admission => exact m.admitWithContext_asked clk canceled id admission
  | bindUpstream id upstream => exact m.bindUpstream_asked clk id upstream
  | beginAttempt id attemptID => exact m.beginAttempt_asked clk id attemptID
  | record id settlementID usage => cases h
  | release id => cases h

/-! ## Runs -/

/-- A manager nobody has called yet: what `newManager` makes of an empty
ledger, or of none. -/
structure Fresh (m : Manager) : Prop where
  windows : m.windows = Windows.empty
  estimates : m.estimates = fun _ => {}
  reservations : m.reservations = ∅
  entries : m.entries = []

def run (m : Manager) (ops : List Op) : Manager := ops.foldl perform m

/-- What quiet steps and single changes keep, a transition keeps. -/
theorem Transition.invariant {P : Manager → Prop} {op : Op} {m m' : Manager}
    (ht : Transition op m m') (hquiet : ∀ {m m'}, Quiet m m' → P m → P m')
    (hmakes : ∀ {m m' e}, Makes op m e m' → P m → P m') (h : P m) : P m' := by
  cases ht with
  | quiet hq => exact hquiet hq h
  | change hm => exact hmakes hm h
  | beginAndSettle hb hs => exact hmakes hs (hmakes hb h)

/-- What they all keep holds at the end of every run. -/
theorem run_invariant {P : Manager → Prop} (hquiet : ∀ {m m'}, Quiet m m' → P m → P m')
    (hmakes : ∀ {op m m' e}, Makes op m e m' → P m → P m') {m : Manager} (h : P m)
    (ops : List Op) : P (m.run ops) :=
  foldl_invariant
    (fun m op hm => (m.perform_transition op).invariant hquiet hmakes hm) h ops

theorem run_config (m : Manager) (ops : List Op) : (m.run ops).config = m.config :=
  run_invariant (P := fun m' => m'.config = m.config) (fun hq h => hq.config.trans h)
    (fun hm h => hm.config.trans h) rfl ops

end Manager

end RelayLifeline.Governance
