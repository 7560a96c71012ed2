import RelayLifeline.Lib.Trace
import RelayLifeline.Upstream.Effects

/-!
# Runs of a pool and its leases

A pool is the manager and every lease it ever handed out, in the order it did.
A caller finishes a lease by naming its place in that list, once or as often as
it likes, and a reload may come between any two calls. Each lease is kept with
whether its target was half-open when it was taken, which the source does not
remember.
-/

namespace RelayLifeline.Upstream

open Lib

/-- A lease, and whether it was taken on a half-open circuit. -/
structure Issued where
  lease : Lease
  halfOpen : Bool

namespace Issued

/-- The lease is out on the state `ref`. -/
def holds (ref : Nat) (issued : Issued) : Bool :=
  !issued.lease.done && issued.lease.state == ref

/-- The lease is out on `ref` and was taken half-open. -/
def probes (ref : Nat) (issued : Issued) : Bool := issued.holds ref && issued.halfOpen

/-- The lease is out on the target `id`. -/
def isOn (id : String) (issued : Issued) : Bool :=
  !issued.lease.done && issued.lease.target.id == id

/-- The lease once it is finished. -/
def close (issued : Issued) : Issued :=
  { issued with lease := { issued.lease with done := true } }

@[simp] theorem holds_close (ref : Nat) (issued : Issued) : issued.close.holds ref = false := rfl

@[simp] theorem probes_close (ref : Nat) (issued : Issued) : issued.close.probes ref = false := rfl

@[simp] theorem isOn_close (id : String) (issued : Issued) : issued.close.isOn id = false := rfl

end Issued

structure Pool where
  manager : Manager
  leases : List Issued

/-- A call on the pool. Finishing names a lease by its place among all of
them. -/
inductive Op where
  | select (now : Int) (selection : SelectionContext) (ctx waited : Option ContextError)
  | release (lease : Nat)
  | complete (lease : Nat) (now : Int) (observation : Observation)
  | observe (now : Int) (targetID : String) (observation : Observation)

/-- The lease a call finishes. -/
def Op.finishes : Op → Option Nat
  | .release lease => some lease
  | .complete lease _ _ => some lease
  | .select .. => none
  | .observe .. => none

namespace Pool

def start (m : Manager) : Pool := ⟨m, []⟩

/-- What a call to `Select` hands out. -/
def issue (selected : Manager × Except SelectError Lease) (leases : List Issued) : Pool :=
  match selected.2 with
  | .error _ => ⟨selected.1, leases⟩
  | .ok lease =>
      ⟨selected.1,
        leases ++ [⟨lease, (selected.1.heap lease.state).circuit = .circuitHalfOpen⟩]⟩

/-- `Release` and `Complete`. -/
def finish (p : Pool) (lease : Nat) (now : Int) (observation : Option Observation) : Pool :=
  match p.leases[lease]? with
  | none => p
  | some issued =>
      ⟨p.manager.finish issued.lease now observation, p.leases.set lease issued.close⟩

def step (p : Pool) : Op → Pool
  | .select now selection ctx waited =>
      issue (p.manager.select now selection ctx waited) p.leases
  | .release lease => p.finish lease 0 none
  | .complete lease now observation => p.finish lease now (some observation)
  | .observe now targetID observation =>
      { p with manager := p.manager.observe now targetID observation }

def run (p : Pool) (ops : List Op) : Pool := ops.foldl step p

/-- The leases out on the state `ref`. -/
def outstanding (p : Pool) (ref : Nat) : Nat := p.leases.countP (Issued.holds ref)

/-- Those of them taken half-open. -/
def probing (p : Pool) (ref : Nat) : Nat := p.leases.countP (Issued.probes ref)

/-- The leases out on the target `id`, on whichever state. -/
def outstandingOn (p : Pool) (id : String) : Nat := p.leases.countP (Issued.isOn id)

theorem probing_le_outstanding (p : Pool) (ref : Nat) : p.probing ref ≤ p.outstanding ref :=
  List.countP_mono_left fun issued _ h => by
    simp only [Issued.probes, Bool.and_eq_true] at h
    exact h.1

/-- Finishing takes the lease out of every count it was in. -/
theorem countP_close {leases : List Issued} {lease : Nat} {issued : Issued} {q : Issued → Bool}
    (hget : leases[lease]? = some issued) (hq : q issued.close = false) :
    (leases.set lease issued.close).countP q + (if q issued then 1 else 0) =
      leases.countP q := by
  obtain ⟨hlt, hat⟩ := List.getElem?_eq_some_iff.1 hget
  rw [List.countP_set hlt, hq, hat]
  split
  · rename_i hin
    have : 0 < leases.countP q := List.countP_pos_iff.2 ⟨issued, List.mem_of_getElem? hget, hin⟩
    simp
    omega
  · simp

/-- The pool with one lease more, on the state `ref`. -/
def take (leases : List Issued) (m : Manager) (ref : Nat) : Pool :=
  ⟨m.put ref (m.heap ref).takeLease,
    leases ++ [⟨⟨ref, (m.heap ref).cfg, false⟩, (m.heap ref).circuit = .circuitHalfOpen⟩]⟩

/-- A call that finishes no lease that is out. -/
def Idle (p : Pool) (op : Op) : Prop :=
  ∀ lease ∈ op.finishes, ∀ issued ∈ p.leases[lease]?, issued.lease.done = true

/-- The call finishes `issued`, whose state becomes `state`. -/
structure Ends (p : Pool) (op : Op) (lease : Nat) (issued : Issued) (state : TargetState) :
    Prop where
  finishes : op.finishes = some lease
  found : p.leases[lease]? = some issued
  out : issued.lease.done = false
  step : p.step op = ⟨p.manager.put issued.lease.state state, p.leases.set lease issued.close⟩
  cfg : state.cfg = (p.manager.heap issued.lease.state).cfg
  active : state.active = (p.manager.heap issued.lease.state).active - 1
  halfOpenLeases :
    state.halfOpenLeases = (p.manager.heap issued.lease.state).giveBack.halfOpenLeases
  transportCfg : state.transportCfg = (p.manager.heap issued.lease.state).transportCfg

theorem finish_cases (p : Pool) (op : Op) {lease : Nat} {now : Int}
    {observation : Option Observation} (hop : op.finishes = some lease)
    (hstep : p.step op = p.finish lease now observation) :
    p.Idle op ∧ p.step op = p ∨ ∃ issued state, p.Ends op lease issued state := by
  rw [hstep]
  cases hget : p.leases[lease]? with
  | none =>
      refine .inl ⟨fun i hi issued hin => ?_, by simp [finish, hget]⟩
      obtain rfl := Option.some.inj (hop.symm.trans hi)
      exact absurd (hget.symm.trans hin) (by simp)
  | some issued =>
      cases hdone : issued.lease.done with
      | true =>
          refine .inl ⟨fun i hi issued' hin => ?_, ?_⟩
          · obtain rfl := Option.some.inj (hop.symm.trans hi)
            obtain rfl := Option.some.inj (hget.symm.trans hin)
            exact hdone
          · have hclose : issued.close = issued := by
              simp [Issued.close, ← hdone]
            obtain ⟨hlt, hat⟩ := List.getElem?_eq_some_iff.1 hget
            simp only [finish, hget, Manager.finish, hdone, if_true, hclose]
            rw [← hat, List.set_getElem_self]
      | false =>
          obtain ⟨state, heq, hcfg, hactive, hhalf, htransport⟩ :=
            p.manager.finish_spec issued.lease now observation hdone
          refine .inr ⟨issued, state, hop, hget, hdone, ?_, hcfg, hactive, hhalf, htransport⟩
          simp only [hstep, finish, hget, heq]

/-- **What a call does to the pool.** It changes no count, or takes one lease
on an eligible state with room, or finishes one. -/
theorem step_cases (p : Pool) (op : Op) :
    (∃ m, p.manager.Alike m ∧ p.Idle op ∧ p.step op = ⟨m, p.leases⟩) ∨
    (∃ m selection ref, p.manager.Alike m ∧ p.Idle op ∧ m.Eligible selection ref ∧
      m.hasRoom ref ∧ p.step op = take p.leases m ref) ∨
    ∃ lease issued state, p.Ends op lease issued state := by
  match op with
  | .select now selection ctx waited =>
      rcases p.manager.select_cases now selection ctx waited with
        ⟨hwarm, err, herr⟩ | ⟨w, ref, hwarm, helig, hroom, hsel⟩
      · refine .inl ⟨_, hwarm.alike, by simp [Idle, Op.finishes], ?_⟩
        simp only [step, issue, herr]
      · refine .inr (.inl ⟨w, selection, ref, hwarm.alike, by simp [Idle, Op.finishes], helig,
          hroom, ?_⟩)
        simp only [step, issue, hsel, Manager.put_heap_self]
        rfl
  | .observe now targetID observation =>
      exact .inl ⟨_, p.manager.observe_alike now targetID observation,
        by simp [Idle, Op.finishes], rfl⟩
  | .release lease =>
      rcases finish_cases p (.release lease) rfl rfl with ⟨hidle, heq⟩ | hends
      · exact .inl ⟨p.manager, .refl _, hidle, heq⟩
      · exact .inr (.inr ⟨lease, hends⟩)
  | .complete lease now observation =>
      rcases finish_cases p (.complete lease now observation) rfl rfl with
        ⟨hidle, heq⟩ | hends
      · exact .inl ⟨p.manager, .refl _, hidle, heq⟩
      · exact .inr (.inr ⟨lease, hends⟩)

end Pool

end RelayLifeline.Upstream
