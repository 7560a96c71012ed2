import Mathlib.Data.List.Induction
import RelayLifeline.Proofs.HalfOpen

/-!
# When a circuit opens and how long it stays open

A circuit is opened by what is observed of its target: by a failure that counts,
where failures weigh enough against successes, or by one that a probe meets.
The failures go back to the last time the circuit was closed by a success, the
successes to the beginning. An open circuit hands out no lease until its time is
up; a success that is observed before, of a lease that is still out, closes it
at once.
-/

namespace RelayLifeline.Upstream

open Lib

/-- The reading of the clock that a call goes by. -/
def Op.time : Op → Option Int
  | .select now _ _ _ => some now
  | .release _ => none
  | .complete _ now _ => some now
  | .observe now _ _ => some now

namespace Pool

/-- What the call observes, and of which state. -/
def observed (p : Pool) : Op → Option (Nat × Int × Observation)
  | .complete lease now observation =>
      (p.leases[lease]?).bind fun issued =>
        if issued.lease.done then none else some (issued.lease.state, now, observation)
  | .observe now targetID observation =>
      (p.manager.targets.get? targetID).map fun slot => (slot.state, now, observation)
  | .select .. => none
  | .release _ => none

/-- The state that the call hands out a lease on. -/
def leased (p : Pool) : Op → Option Nat
  | .select now selection ctx waited =>
      match (p.manager.select now selection ctx waited).2 with
      | .ok lease => some lease.state
      | .error _ => none
  | _ => none

end Pool

/-- What the circuit goes by. -/
structure Meter where
  circuit : CircuitState
  openedAt : Int
  failures : Nat
  successes : Nat
  deriving DecidableEq

def TargetState.meter (state : TargetState) : Meter :=
  ⟨state.circuit, state.openedAt, state.failures, state.successes⟩

/-! ## What an observation does -/

/-- Failures weigh enough against successes, in the machine's numbers. -/
def UpstreamCircuitConfig.weighs (circuit : UpstreamCircuitConfig) (failures successes : Nat) :
    Prop :=
  circuit.minimumRequests ≤ failures + successes ∧
    (((failures : Int) + successes) * circuit.failurePercent).bmod (2 ^ 64) ≤
      (failures * 100 : Int).bmod (2 ^ 64)

/-- The failure that is observed opens the circuit, or has it stay open. -/
def Meter.trips (meter : Meter) (circuit : UpstreamCircuitConfig) (observation : Observation) :
    Prop :=
  countsForCircuit observation = true ∧ circuit.enabled = true ∧
    (meter.circuit = .circuitHalfOpen ∨ circuit.weighs (meter.failures + 1) meter.successes)

instance (circuit : UpstreamCircuitConfig) (failures successes : Nat) :
    Decidable (circuit.weighs failures successes) :=
  inferInstanceAs (Decidable (_ ∧ _))

instance (meter : Meter) (circuit : UpstreamCircuitConfig) (observation : Observation) :
    Decidable (meter.trips circuit observation) :=
  inferInstanceAs (Decidable (_ ∧ _))

/-- What an observation makes of it. A success closes the circuit; a failure is
counted or not, and opens the circuit or leaves it. -/
def Meter.observe (meter : Meter) (circuit : UpstreamCircuitConfig) (now : Int)
    (observation : Observation) : Meter :=
  if observation.success then
    { meter with
      circuit := .circuitClosed
      failures := if meter.circuit = .circuitClosed then meter.failures else 0
      successes := meter.successes + 1 }
  else
    { meter with
      circuit := if meter.trips circuit observation then .circuitOpen else meter.circuit
      openedAt := if meter.trips circuit observation then now else meter.openedAt
      failures := meter.failures + if countsForCircuit observation then 1 else 0 }

theorem meter_eq (circuit : UpstreamCircuitConfig) (now : Int) (state : TargetState)
    (observation : Observation) :
    (state.observe circuit now observation).meter = state.meter.observe circuit now observation := by
  rw [TargetState.observe]
  -- the latency is not of the meter
  generalize hlatency : (if 0 < observation.latency then
    { state with lastLatency := observation.latency } else state) = s
  have hs : state.meter = s.meter := by
    rw [← hlatency]
    split
    · rfl
    · rfl
  rw [hs, Meter.observe]
  clear hs hlatency
  dsimp only
  split
  next =>
    cases hphase : s.circuit with
    | circuitClosed => simp [TargetState.meter, hphase]
    | circuitOpen => simp [TargetState.meter, hphase]
    | circuitHalfOpen => simp [TargetState.meter, hphase]
  next =>
    by_cases hcounts : countsForCircuit observation = true
    · rw [if_neg (by simp [hcounts])]
      -- nor is the count of the failures by the limit of rates
      generalize hrate : (if observation.category = "rate_limit" then
        { s with failures := s.failures + 1, rateLimitFailures := s.rateLimitFailures + 1 }
          else { s with failures := s.failures + 1 }) = r
      have hr : r.circuit = s.meter.circuit ∧ r.openedAt = s.meter.openedAt ∧
          r.failures = s.meter.failures + 1 ∧ r.successes = s.meter.successes := by
        rw [← hrate]
        split
        · exact ⟨rfl, rfl, rfl, rfl⟩
        · exact ⟨rfl, rfl, rfl, rfl⟩
      obtain ⟨hcircuit, hopened, hfailures, hsuccesses⟩ := hr
      have htrips : s.meter.trips circuit observation ↔ circuit.enabled = true ∧
          (r.circuit = .circuitHalfOpen ∨ circuit.weighs r.failures r.successes) := by
        rw [Meter.trips, hcircuit, hfailures, hsuccesses]
        exact and_iff_right hcounts
      rw [if_pos hcounts, ← hcircuit, ← hopened, ← hfailures, ← hsuccesses]
      split
      next hdisabled =>
        have hnot : ¬s.meter.trips circuit observation := by simp_all
        rw [if_neg hnot, if_neg hnot]
        rfl
      next henabled =>
        have henabled : circuit.enabled = true := by simpa using henabled
        split
        next hhalf =>
          have hopens := htrips.2 ⟨henabled, .inl hhalf⟩
          rw [if_pos hopens, if_pos hopens]
          rfl
        next hhalf =>
          split
          next hweighs =>
            have hopens := htrips.2 ⟨henabled, .inr hweighs⟩
            rw [if_pos hopens, if_pos hopens]
            rfl
          next hweighs =>
            have hnot : ¬s.meter.trips circuit observation := fun htrip =>
              (htrips.1 htrip).2.elim hhalf hweighs
            rw [if_neg hnot, if_neg hnot]
            rfl
    · rw [if_pos (by simp [hcounts])]
      simp [TargetState.meter, Meter.trips, hcounts]

/-! ## What a selection does -/

namespace Manager

variable {m : Manager} {now : Int} {selection : SelectionContext} {ref : Nat}

/-- `m'` is `m` with circuits half-open whose time is up. -/
structure Thawed (m m' : Manager) (now : Int) : Prop where
  circuit : m'.circuit = m.circuit
  heap : ∀ ref, m'.heap ref = m.heap ref ∨
    (m.heap ref).circuit = .circuitOpen ∧
      (m.heap ref).openedAt + m.circuit.openDuration ≤ now ∧
        m'.heap ref = { m.heap ref with circuit := .circuitHalfOpen }

namespace Thawed

variable {m' m'' : Manager}

theorem refl (m : Manager) (now : Int) : Thawed m m now := ⟨rfl, fun _ => .inl rfl⟩

theorem trans (h : Thawed m m' now) (h' : Thawed m' m'' now) : Thawed m m'' now where
  circuit := h'.circuit.trans h.circuit
  heap ref := by
    rcases h.heap ref with heq | ⟨hopen, hpast, heq⟩
    · rcases h'.heap ref with heq' | ⟨hopen, hpast, heq'⟩
      · exact .inl (heq'.trans heq)
      · rw [heq] at hopen hpast heq'
        rw [h.circuit] at hpast
        exact .inr ⟨hopen, hpast, heq'⟩
    · rcases h'.heap ref with heq' | ⟨hopen', -⟩
      · exact .inr ⟨hopen, hpast, heq'.trans heq⟩
      · rw [heq] at hopen'
        cases hopen'

/-- Choosing moves the cursor only. -/
theorem choose (h : Thawed m m' now) (candidates : List Nat) :
    Thawed m (m'.choose candidates).1 now := by
  refine h.trans ?_
  rw [Manager.choose]
  split
  · exact refl m' now
  · dsimp only
    split
    · exact refl m' now
    · exact ⟨rfl, fun _ => .inl rfl⟩

end Thawed

theorem thawed_put (hpast : (m.heap ref).circuit = .circuitOpen →
    (m.heap ref).openedAt + m.circuit.openDuration ≤ now) :
    Thawed m (m.put ref (m.heap ref).warm) now := by
  rw [TargetState.warm]
  split
  next hopen =>
    refine ⟨rfl, fun r => ?_⟩
    by_cases hr : r = ref
    · subst hr
      exact .inr ⟨hopen, hpast hopen, put_heap_self _ _ _⟩
    · exact .inl (put_heap_of_ne m _ hr)
  next =>
    rw [put_self]
    exact .refl m now

theorem consider_thawed (acc : Manager × List Nat) (id : String) :
    Thawed acc.1 (consider now selection acc id).1 now := by
  rw [consider]
  dsimp only
  split
  · exact .refl _ now
  split
  · exact .refl _ now
  next slot hslot =>
    split
    · exact .refl _ now
    next htime =>
      have hpast : (acc.1.heap slot.state).circuit = .circuitOpen →
          (acc.1.heap slot.state).openedAt + acc.1.circuit.openDuration ≤ now := by
        intro hopen
        refine Int.not_lt.1 fun hearly => htime ⟨hopen, ?_⟩
        omega
      have hthawed := thawed_put hpast
      split
      · exact .refl _ now
      split
      · exact hthawed
      split
      · exact hthawed
      split
      · exact hthawed
      · exact hthawed

theorem candidates_thawed (m : Manager) (now : Int) (selection : SelectionContext) :
    Thawed m (m.candidates now selection).1 now := by
  have hloop : ∀ (order : List String) (acc : Manager × List Nat),
      Thawed acc.1 (order.foldl (consider now selection) acc).1 now := by
    intro order
    induction order with
    | nil => exact fun acc => .refl _ now
    | cons id order ih => exact fun acc => (consider_thawed acc id).trans (ih _)
  exact hloop m.order (m, [])

/-- **What a selection does to the circuits.** Those whose time is up are
half-open, and a lease is on one that is not open. -/
theorem select_thawed (m : Manager) (now : Int) (selection : SelectionContext)
    (ctx waited : Option ContextError) :
    ∃ w, Thawed m w now ∧
      ((∃ err, m.select now selection ctx waited = (w, .error err)) ∨
        ∃ ref, (w.heap ref).circuit ≠ .circuitOpen ∧
          m.select now selection ctx waited =
            (w.put ref (w.heap ref).takeLease, .ok ⟨ref, (w.heap ref).cfg, false⟩)) := by
  simp only [select]
  split
  · exact ⟨m, .refl m now, .inl ⟨_, rfl⟩⟩
  next =>
    have hthawed := candidates_thawed m now selection
    obtain ⟨-, helig⟩ := candidates_spec m now selection
    split
    · exact ⟨_, hthawed, .inl ⟨_, rfl⟩⟩
    next =>
      obtain ⟨hcursor, hroom⟩ := choose_spec (m.candidates now selection).1
        (m.candidates now selection).2
      split
      next ref hchosen =>
        split
        · refine ⟨_, hthawed.choose _, .inr ⟨ref, ?_, rfl⟩⟩
          exact ((helig ref (hroom ref hchosen).1).warm hcursor).circuit
        · exact ⟨_, hthawed.choose _, .inl ⟨_, rfl⟩⟩
      next => exact ⟨_, hthawed.choose _, .inl ⟨_, rfl⟩⟩

end Manager

namespace Pool

variable {p : Pool} {ref : Nat}

/-- A lease that is finished is out, or nothing happens. -/
theorem manager_finish (p : Pool) (lease : Nat) (now : Int) (observation : Option Observation) :
    (p.finish lease now observation).manager = p.manager ∧
        (∀ issued ∈ p.leases[lease]?, issued.lease.done = true) ∨
      ∃ issued, p.leases[lease]? = some issued ∧ issued.lease.done = false ∧
        (p.finish lease now observation).manager = p.manager.put issued.lease.state
          (observation.elim (p.manager.heap issued.lease.state).giveBack
            ((p.manager.heap issued.lease.state).giveBack.observe p.manager.circuit now)) := by
  rw [finish]
  cases hissued : p.leases[lease]? with
  | none => exact .inl ⟨rfl, fun _ h => absurd h (Option.not_mem_none _)⟩
  | some issued =>
      cases hdone : issued.lease.done with
      | true =>
          refine .inl ⟨?_, ?_⟩
          · show p.manager.finish issued.lease now observation = p.manager
            rw [Manager.finish, if_pos hdone]
          · rintro _ ⟨⟩
            exact hdone
      | false =>
          refine .inr ⟨issued, rfl, hdone, ?_⟩
          show p.manager.finish issued.lease now observation = _
          rw [Manager.finish, if_neg (by simp [hdone])]
          cases observation with
          | none => rfl
          | some observation => rfl

/-- **What a call does to a circuit.** It observes something of the target, or
finds that the time of an open circuit is up, or leaves the circuit alone. -/
theorem step_meter (p : Pool) (op : Op) (ref : Nat) :
    (p.step op).manager.circuit = p.manager.circuit ∧
      ((∃ now observation, p.observed op = some (ref, now, observation) ∧
          op.time = some now ∧
          ((p.step op).manager.heap ref).meter =
            (p.manager.heap ref).meter.observe p.manager.circuit now observation) ∨
        (∀ now observation, p.observed op ≠ some (ref, now, observation)) ∧
          (((p.step op).manager.heap ref).meter = (p.manager.heap ref).meter ∨
            ∃ now, op.time = some now ∧ (p.manager.heap ref).circuit = .circuitOpen ∧
              (p.manager.heap ref).openedAt + p.manager.circuit.openDuration ≤ now ∧
              ((p.step op).manager.heap ref).meter =
                { (p.manager.heap ref).meter with circuit := .circuitHalfOpen })) := by
  cases op with
  | select now selection ctx waited =>
      obtain ⟨w, hthawed, hselect⟩ := p.manager.select_thawed now selection ctx waited
      have hmanager : (p.step (.select now selection ctx waited)).manager.circuit = w.circuit ∧
          ((p.step (.select now selection ctx waited)).manager.heap ref).meter =
            (w.heap ref).meter := by
        rcases hselect with ⟨err, hselect⟩ | ⟨r, -, hselect⟩
        · rw [step, hselect]
          exact ⟨rfl, rfl⟩
        · rw [step, hselect]
          refine ⟨rfl, ?_⟩
          show TargetState.meter ((w.put r (w.heap r).takeLease).heap ref) = _
          by_cases hr : ref = r
          · subst hr
            rw [Manager.put_heap_self]
            rfl
          · rw [Manager.put_heap_of_ne _ _ hr]
      refine ⟨hmanager.1.trans hthawed.circuit, .inr ⟨fun _ _ hsome => (by cases hsome), ?_⟩⟩
      rcases hthawed.heap ref with heq | ⟨hopen, hpast, heq⟩
      · exact .inl (hmanager.2.trans (congrArg _ heq))
      · exact .inr ⟨now, rfl, hopen, hpast, hmanager.2.trans (congrArg _ heq)⟩
  | release lease =>
      rcases p.manager_finish lease 0 none with ⟨heq, -⟩ | ⟨issued, -, -, heq⟩
      · rw [step, heq]
        exact ⟨rfl, .inr ⟨fun _ _ hsome => (by cases hsome), .inl rfl⟩⟩
      · rw [step, heq]
        refine ⟨rfl, .inr ⟨fun _ _ hsome => (by cases hsome), .inl ?_⟩⟩
        by_cases hr : ref = issued.lease.state
        · rw [hr, Manager.put_heap_self]
          rfl
        · rw [Manager.put_heap_of_ne _ _ hr]
  | complete lease now observation =>
      rcases p.manager_finish lease now (some observation) with
        ⟨heq, hdone⟩ | ⟨issued, hissued, hdone, heq⟩
      · rw [step, heq]
        refine ⟨rfl, .inr ⟨fun now' observation' hobserved => ?_, .inl rfl⟩⟩
        obtain ⟨issued, hissued, hsome⟩ := Option.bind_eq_some_iff.1 hobserved
        rw [if_pos (hdone issued hissued)] at hsome
        cases hsome
      · have hobserved : p.observed (.complete lease now observation) =
            some (issued.lease.state, now, observation) := by
          rw [observed, hissued, Option.bind_some, hdone]
          rfl
        rw [step, heq]
        refine ⟨rfl, ?_⟩
        by_cases hr : ref = issued.lease.state
        · refine .inl ⟨now, observation, hr ▸ hobserved, rfl, ?_⟩
          rw [hr, Manager.put_heap_self]
          exact meter_eq _ now _ observation
        · refine .inr ⟨fun now' observation' hsome => ?_, .inl ?_⟩
          · rw [hobserved, Option.some.injEq, Prod.mk.injEq] at hsome
            exact hr hsome.1.symm
          · rw [Manager.put_heap_of_ne _ _ hr]
  | observe now targetID observation =>
      rw [step, Manager.observe]
      cases hslot : p.manager.targets.get? targetID with
      | none =>
          refine ⟨rfl, .inr ⟨fun now' observation' hsome => ?_, .inl rfl⟩⟩
          rw [observed, hslot] at hsome
          cases hsome
      | some slot =>
          have hobserved : p.observed (.observe now targetID observation) =
              some (slot.state, now, observation) := by
            rw [observed, hslot]
            rfl
          refine ⟨rfl, ?_⟩
          dsimp only
          by_cases hr : ref = slot.state
          · refine .inl ⟨now, observation, hr ▸ hobserved, rfl, ?_⟩
            rw [hr, Manager.put_heap_self, meter_eq]
          · refine .inr ⟨fun now' observation' hsome => ?_, .inl ?_⟩
            · rw [hobserved, Option.some.injEq, Prod.mk.injEq] at hsome
              exact hr hsome.1.symm
            · rw [Manager.put_heap_of_ne _ _ hr]

/-! ## An open circuit -/

/-- The clock does not go back from one call to the next. -/
def Ticks : Int → List Op → Prop
  | _, [] => True
  | clock, op :: ops => clock ≤ op.time.getD clock ∧ Ticks (op.time.getD clock) ops

/-- The call observes no success of the target. -/
def Quiet (ref : Nat) (p : Pool) (op : Op) : Prop :=
  ∀ now observation, p.observed op = some (ref, now, observation) → observation.success = false

/-- The circuit has been opened at `since` or later, and if it is half-open, its
time has been up. -/
def Cools (meter : Meter) (circuit : UpstreamCircuitConfig) (since clock : Int) : Prop :=
  since ≤ meter.openedAt ∧
    (meter.circuit = .circuitOpen ∨
      meter.circuit = .circuitHalfOpen ∧ meter.openedAt + circuit.openDuration ≤ clock)

theorem Cools.mono {meter : Meter} {circuit : UpstreamCircuitConfig} {since clock clock' : Int}
    (h : Cools meter circuit since clock) (hclock : clock ≤ clock') :
    Cools meter circuit since clock' := by
  obtain ⟨hsince, hopen | ⟨hhalf, hpast⟩⟩ := h
  · exact ⟨hsince, .inl hopen⟩
  · exact ⟨hsince, .inr ⟨hhalf, by omega⟩⟩

/-- A failure has it open, or leaves it. -/
theorem Cools.observe {meter : Meter} {circuit : UpstreamCircuitConfig} {since now : Int}
    (h : Cools meter circuit since now) (hsince : since ≤ now) {observation : Observation}
    (hfails : observation.success = false) :
    Cools (meter.observe circuit now observation) circuit since now := by
  rw [Meter.observe, if_neg (by simp [hfails])]
  by_cases htrips : meter.trips circuit observation
  · exact ⟨by simpa [htrips] using hsince, .inl (by simp [htrips])⟩
  · refine ⟨?_, ?_⟩
    · simpa [htrips] using h.1
    · simpa [htrips] using h.2

theorem Cools.step {since clock : Int}
    (h : Cools (p.manager.heap ref).meter p.manager.circuit since clock) {op : Op}
    (hsince : since ≤ clock) (hclock : clock ≤ op.time.getD clock) (hquiet : Quiet ref p op) :
    Cools ((p.step op).manager.heap ref).meter (p.step op).manager.circuit since
      (op.time.getD clock) := by
  obtain ⟨hcircuit, ⟨now, observation, hobserved, htime, hmeter⟩ |
    ⟨-, hmeter | ⟨now, htime, hopen, hpast, hmeter⟩⟩⟩ := p.step_meter op ref
  · rw [hcircuit, hmeter]
    rw [htime] at hclock ⊢
    exact (h.mono hclock).observe (hsince.trans hclock) (hquiet now observation hobserved)
  · rw [hcircuit, hmeter]
    exact h.mono hclock
  · rw [hcircuit, hmeter, htime]
    exact ⟨h.1, .inr ⟨rfl, hpast⟩⟩

theorem Cools.run {since clock : Int} {ops : List Op}
    (h : Cools (p.manager.heap ref).meter p.manager.circuit since clock) (hsince : since ≤ clock)
    {rest : List Op} (hclock : Ticks clock (ops ++ rest))
    (hquiet : Along Pool.step (Quiet ref) p ops) :
    ∃ clock', Ticks clock' rest ∧ (p.run ops).manager.circuit = p.manager.circuit ∧
      Cools ((p.run ops).manager.heap ref).meter p.manager.circuit since clock' := by
  induction ops generalizing p clock with
  | nil => exact ⟨clock, hclock, rfl, h⟩
  | cons op ops ih =>
      have hcircuit := (p.step_meter op ref).1
      have hnext := h.step hsince hclock.1 hquiet.1
      obtain ⟨clock', hticks, hsame, hcools⟩ := ih hnext (hsince.trans hclock.1) hclock.2 hquiet.2
      rw [hcircuit] at hsame hcools
      exact ⟨clock', hticks, hsame, hcools⟩

/-- **An open circuit hands out no lease before its time is up**, unless a
success of its target is observed. -/
theorem open_duration_le {ops : List Op} {op : Op}
    (hopen : (p.manager.heap ref).circuit = .circuitOpen)
    (hclock : Ticks (p.manager.heap ref).openedAt (ops ++ [op]))
    (hquiet : Along step (Quiet ref) p ops) (hleased : (p.run ops).leased op = some ref) :
    ∃ now, op.time = some now ∧
      (p.manager.heap ref).openedAt + p.manager.circuit.openDuration ≤ now := by
  have hcools : Cools (p.manager.heap ref).meter p.manager.circuit
      (p.manager.heap ref).openedAt (p.manager.heap ref).openedAt := ⟨le_rfl, .inl hopen⟩
  obtain ⟨clock, hticks, hcircuit, hsince, hphase⟩ := hcools.run le_rfl hclock hquiet
  cases op with
  | release lease => cases hleased
  | complete lease now observation => cases hleased
  | observe now targetID observation => cases hleased
  | select now selection ctx waited =>
      refine ⟨now, rfl, ?_⟩
      have htick : clock ≤ now := hticks.1
      obtain ⟨w, hthawed, ⟨err, hselect⟩ | ⟨r, hclosed, hselect⟩⟩ :=
        (p.run ops).manager.select_thawed now selection ctx waited
      · rw [leased, hselect] at hleased
        cases hleased
      · rw [leased, hselect] at hleased
        obtain rfl : r = ref := Option.some.inj hleased
        rcases hthawed.heap r with heq | ⟨-, hpast, -⟩
        · rw [heq] at hclosed
          rcases hphase with hstill | ⟨-, hpast⟩
          · exact absurd hstill hclosed
          · exact (Int.add_le_add_right hsince _).trans (hpast.trans htick)
        · rw [hcircuit] at hpast
          exact (Int.add_le_add_right hsince _).trans hpast

/-- One failure opens the circuit at one. A selection at once comes back without a
lease, and a second later there is one. -/
theorem open_duration_le_probe :
    ∃ now, Op.time (.select 2 {} none none) = some now ∧
      ((((start probeManager).run [.observe 1 "a" { category := "transport" }]).manager.heap
          0).openedAt + probeManager.circuit.openDuration ≤ now) :=
  @open_duration_le ((start probeManager).run [.observe 1 "a" { category := "transport" }]) 0
    [.select 1 {} none none] (.select 2 {} none none) (by decide +kernel)
    ⟨by decide +kernel, by decide, trivial⟩ ⟨fun _ _ h => (nomatch h), trivial⟩ (by decide +kernel)

/-! ## What opens it -/

/-- What was observed of a target, and what its circuit was then. -/
abbrev Sighting := CircuitState × Observation

def seenAt (ref : Nat) (p : Pool) (op : Op) : List Sighting :=
  match p.observed op with
  | some (r, _, observation) =>
      if r = ref then [((p.manager.heap ref).circuit, observation)] else []
  | none => []

/-- The sightings of a run, in their order. -/
def seen (ref : Nat) : Pool → List Op → List Sighting
  | _, [] => []
  | p, op :: ops => p.seenAt ref op ++ seen ref (p.step op) ops

theorem seen_append (p : Pool) (ops ops' : List Op) :
    seen ref p (ops ++ ops') = seen ref p ops ++ seen ref (p.run ops) ops' := by
  induction ops generalizing p with
  | nil => rfl
  | cons op ops ih =>
      rw [List.cons_append, seen, seen, ih, List.append_assoc]
      rfl

/-- A success that has closed the circuit. -/
def closes (sighting : Sighting) : Bool :=
  sighting.2.success ∧ sighting.1 ≠ .circuitClosed

/-- The failures that count, back to the last success that closed the circuit. -/
def failuresOf (sightings : List Sighting) : Nat :=
  (sightings.reverse.takeWhile fun sighting => !closes sighting).countP fun sighting =>
    countsForCircuit sighting.2

def successesOf (sightings : List Sighting) : Nat :=
  sightings.countP fun sighting => sighting.2.success

theorem failuresOf_concat (sightings : List Sighting) (sighting : Sighting) :
    failuresOf (sightings ++ [sighting]) =
      if closes sighting then 0
      else failuresOf sightings + if countsForCircuit sighting.2 then 1 else 0 := by
  rw [failuresOf, List.reverse_append, List.reverse_singleton, List.singleton_append,
    List.takeWhile_cons]
  cases hcloses : closes sighting with
  | true => rfl
  | false =>
      rw [if_pos (by rfl), List.countP_cons]
      rfl

/-- The meter has counted what was seen. -/
structure Tallied (meter : Meter) (sightings : List Sighting) : Prop where
  failures : meter.failures = failuresOf sightings
  successes : meter.successes = successesOf sightings

theorem Tallied.observe {meter : Meter} {sightings : List Sighting} (h : Tallied meter sightings)
    (circuit : UpstreamCircuitConfig) (now : Int) (observation : Observation) :
    Tallied (meter.observe circuit now observation)
      (sightings ++ [(meter.circuit, observation)]) := by
  rw [Meter.observe]
  split
  next hsuccess =>
    have hcounts : countsForCircuit observation = false := by rw [countsForCircuit, if_pos hsuccess]
    refine ⟨?_, ?_⟩
    · rw [failuresOf_concat, ← h.failures, hcounts, closes]
      by_cases hclosed : meter.circuit = .circuitClosed
      · simp [hclosed]
      · simp [hclosed, hsuccess]
    · rw [successesOf, List.countP_append, List.countP_singleton, if_pos hsuccess]
      exact congrArg (· + 1) h.successes
  next hsuccess =>
    refine ⟨?_, ?_⟩
    · rw [failuresOf_concat, ← h.failures, closes]
      simp [hsuccess]
    · rw [successesOf, List.countP_append, List.countP_singleton, if_neg hsuccess]
      exact h.successes

theorem Tallied.step {sightings : List Sighting}
    (h : Tallied (p.manager.heap ref).meter sightings) (op : Op) :
    Tallied ((p.step op).manager.heap ref).meter (sightings ++ p.seenAt ref op) := by
  obtain ⟨-, ⟨now, observation, hobserved, -, hmeter⟩ | ⟨hnone, hmeter⟩⟩ := p.step_meter op ref
  · rw [hmeter, seenAt, hobserved]
    dsimp only
    rw [if_pos rfl]
    exact h.observe _ now observation
  · have hseen : p.seenAt ref op = [] := by
      rw [seenAt]
      split
      next r now observation hobserved =>
        rw [if_neg]
        rintro rfl
        exact hnone now observation hobserved
      next => rfl
    rw [hseen, List.append_nil]
    rcases hmeter with hmeter | ⟨-, -, -, -, hmeter⟩
    · rw [hmeter]
      exact h
    · rw [hmeter]
      exact ⟨h.failures, h.successes⟩

/-- A new manager has seen nothing. -/
theorem new_meter {pool : UpstreamPoolConfig} {legacy : UpstreamConfig} {m : Manager}
    (h : Manager.new pool legacy = .ok m) :
    m.circuit = Manager.normalize pool.circuit ∧ ∀ ref, Tallied (m.heap ref).meter [] := by
  have hfresh : ∀ {previous : Option TargetState} (target : UpstreamTargetConfig),
      (∀ state ∈ previous, Tallied state.meter []) →
        Tallied (Manager.freshState previous target legacy).meter [] := by
    intro previous target hprevious
    cases previous with
    | none => exact ⟨rfl, rfl⟩
    | some state =>
        have hstate := hprevious state rfl
        rw [Manager.freshState]
        dsimp only
        split
        · exact ⟨hstate.failures, hstate.successes⟩
        · exact ⟨rfl, rfl⟩
  obtain ⟨made, htallied, -⟩ := Manager.stage_invariant
    (fun m _ => ∀ ref, Tallied (m.heap ref).meter [])
    legacy (Manager.targetsOf pool legacy)
    (fun m next target slot _ _ _ hm ref => by
      by_cases hr : ref = slot.state
      · rw [hr, Manager.put_heap_self]
        exact ⟨(hm slot.state).failures, (hm slot.state).successes⟩
      · rw [Manager.put_heap_of_ne _ _ hr]
        exact hm ref)
    (fun m next target _ _ _ hm ref => by
      by_cases hr : ref = m.size
      · rw [hr]
        simp only [Manager.put, Function.update_self]
        refine hfresh target fun state hstate => ?_
        obtain ⟨slot, -, rfl⟩ := Option.map_eq_some_iff.1 hstate
        exact hm slot.state
      · simp only [Manager.put, ne_eq, hr, not_false_eq_true, Function.update_of_ne]
        exact hm ref)
    (Manager.blank legacy) ∅ (fun _ => ⟨rfl, rfl⟩)
  simp only [Manager.new, Manager.apply] at h
  split at h
  · cases h
  · cases h
    exact ⟨rfl, htallied⟩

theorem run_concat (p : Pool) (ops : List Op) (op : Op) :
    p.run (ops ++ [op]) = (p.run ops).step op := List.foldl_concat step p op ops

/-- Over a run the meters count what the run has seen. -/
theorem tallied_run {pool : UpstreamPoolConfig} {legacy : UpstreamConfig} {m : Manager}
    (h : Manager.new pool legacy = .ok m) (ops : List Op) (ref : Nat) :
    ((start m).run ops).manager.circuit = Manager.normalize pool.circuit ∧
      Tallied (((start m).run ops).manager.heap ref).meter (seen ref (start m) ops) := by
  induction ops using List.reverseRecOn with
  | nil => exact ⟨(new_meter h).1, (new_meter h).2 ref⟩
  | append_singleton ops op ih =>
      rw [run_concat, seen_append]
      refine ⟨((step_meter _ op ref).1).trans ih.1, ?_⟩
      have hstep := ih.2.step op
      rwa [← List.append_nil (seenAt ref _ op)] at hstep

/-- **What opens a circuit.** A circuit that is not open is opened by a call just
if the call observes a failure that counts, and the circuit was half-open or the
failures since it was last closed, with this one, weigh enough against all the
successes of the target. -/
theorem opens_iff {pool : UpstreamPoolConfig} {legacy : UpstreamConfig} {m : Manager}
    (h : Manager.new pool legacy = .ok m) (ops : List Op) (op : Op) (ref : Nat)
    (hnot : (((start m).run ops).manager.heap ref).circuit ≠ .circuitOpen) :
    (((start m).run (ops ++ [op])).manager.heap ref).circuit = .circuitOpen ↔
      ∃ now observation, ((start m).run ops).observed op = some (ref, now, observation) ∧
        countsForCircuit observation = true ∧ pool.circuit.enabled = true ∧
          ((((start m).run ops).manager.heap ref).circuit = .circuitHalfOpen ∨
            (Manager.normalize pool.circuit).weighs (failuresOf (seen ref (start m) ops) + 1)
              (successesOf (seen ref (start m) ops))) := by
  obtain ⟨hcircuit, htallied⟩ := tallied_run h ops ref
  rw [run_concat]
  generalize (start m).run ops = p at hnot hcircuit htallied ⊢
  have hcounts : ∀ {observation : Observation}, observation.success = true →
      countsForCircuit observation = false := by
    intro observation hsuccess
    rw [countsForCircuit, if_pos hsuccess]
  have hphase : ∀ meter : Meter, ((p.step op).manager.heap ref).meter = meter →
      ((p.step op).manager.heap ref).circuit = meter.circuit := fun _ heq => heq ▸ rfl
  obtain ⟨-, ⟨now, observation, hobserved, -, hmeter⟩ | ⟨hnone, hmeter⟩⟩ := p.step_meter op ref
  · rw [hphase _ hmeter, Meter.observe]
    constructor
    · intro hopens
      split at hopens
      · cases hopens
      · dsimp only at hopens
        split at hopens
        next htrips =>
          obtain ⟨hcount, henabled, hweighs⟩ := htrips
          rw [hcircuit] at henabled hweighs
          rw [htallied.failures, htallied.successes] at hweighs
          exact ⟨now, observation, hobserved, hcount, henabled, hweighs⟩
        next => exact absurd hopens hnot
    · rintro ⟨now', observation', hobserved', hcount, henabled, hweighs⟩
      obtain ⟨-, rfl⟩ : now = now' ∧ observation = observation' := by
        have heq := hobserved.symm.trans hobserved'
        simpa using heq
      have htrips : (p.manager.heap ref).meter.trips p.manager.circuit observation := by
        rw [Meter.trips, hcircuit, htallied.failures, htallied.successes]
        exact ⟨hcount, henabled, hweighs⟩
      rw [if_neg fun hsuccess => by rw [hcounts hsuccess] at hcount; cases hcount]
      dsimp only
      rw [if_pos htrips]
  · refine iff_of_false ?_ fun ⟨now, observation, hobserved, _⟩ => hnone now observation hobserved
    rcases hmeter with hmeter | ⟨-, -, -, -, hmeter⟩
    · rw [hphase _ hmeter]
      exact hnot
    · rw [hphase _ hmeter]
      exact nofun

/-- The first failure is enough where one request is. -/
theorem opens_iff_first :
    (((start probeManager).run ([] ++ [.observe 1 "a" { category := "transport" }])).manager.heap
      0).circuit = .circuitOpen :=
  (opens_iff new_probePool [] _ 0 (by decide +kernel)).mpr
    ⟨1, { category := "transport" }, rfl, by decide, by decide, .inr (by decide +kernel)⟩

end Pool

end RelayLifeline.Upstream
