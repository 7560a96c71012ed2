import RelayLifeline.Upstream.Leases

/-!
# The half-open count

`halfOpenLeases` is meant to be the number of probes out on a target: the
leases taken while its circuit was half-open. `Select` adds one for each, but
`finish` takes one off by the circuit it finds, not by the one the lease was
taken in. So the count is exact as long as each lease finishes under a circuit
that says about it what was true when it was taken, and the first lease that
does not makes it wrong at once: a probe that finishes after the circuit has
left half-open stays counted for ever, and an older lease that finishes under a
half-open circuit takes a probe's place off the count.
-/

namespace RelayLifeline.Upstream

open Lib

namespace Pool

/-- The count of every target is its probes out, within the limit, and zero
when no lease is out. -/
def HalfOpenExact (p : Pool) : Prop :=
  ∀ slot ∈ p.manager.targets.items,
    (p.manager.heap slot.state).halfOpenLeases = p.probing slot.state ∧
      ((p.manager.heap slot.state).halfOpenLeases : Int) ≤ p.manager.circuit.halfOpenMax ∧
      (p.outstanding slot.state = 0 → (p.manager.heap slot.state).halfOpenLeases = 0)

instance (p : Pool) : Decidable p.HalfOpenExact :=
  inferInstanceAs (Decidable (∀ slot ∈ p.manager.targets.items, _))

/-- The lease finishes under a half-open circuit if it was taken under one, and
only then if any probe is counted. -/
def FinishesAsTaken (p : Pool) (lease : Nat) : Prop :=
  ∀ issued ∈ p.leases[lease]?, issued.lease.done = false →
    if issued.halfOpen then (p.manager.heap issued.lease.state).circuit = .circuitHalfOpen
    else (p.manager.heap issued.lease.state).circuit = .circuitHalfOpen →
      (p.manager.heap issued.lease.state).halfOpenLeases = 0

/-- The condition on one call. -/
def EndsAsTaken (p : Pool) (op : Op) : Prop := ∀ lease ∈ op.finishes, p.FinishesAsTaken lease

/-- What every call keeps: leases are on states of targets, and no count is
past the limit. -/
structure Probed (p : Pool) : Prop where
  leases : ∀ issued ∈ p.leases, ∃ slot ∈ p.manager.targets.items,
    slot.state = issued.lease.state
  bound : ∀ ref, ((p.manager.heap ref).halfOpenLeases : Int) ≤ p.manager.circuit.halfOpenMax

/-- The first part of `HalfOpenExact`, which carries the other two. -/
def Counted (p : Pool) : Prop :=
  ∀ slot ∈ p.manager.targets.items,
    (p.manager.heap slot.state).halfOpenLeases = p.probing slot.state

theorem Probed.exact_iff {p : Pool} (hp : p.Probed) : p.HalfOpenExact ↔ p.Counted := by
  constructor
  · intro h slot hslot
    exact (h slot hslot).1
  · intro h slot hslot
    refine ⟨h slot hslot, hp.bound slot.state, fun hnone => ?_⟩
    have := p.probing_le_outstanding slot.state
    rw [h slot hslot]
    omega

/-! ## One call -/

theorem Probed.alike {p : Pool} {m : Manager} (hp : p.Probed) (h : p.manager.Alike m) :
    (Pool.mk m p.leases).Probed := by
  constructor
  · rw [h.targets]
    exact hp.leases
  · intro ref
    rw [h.halfOpenLeases ref, h.circuit]
    exact hp.bound ref

theorem counted_alike {p : Pool} {m : Manager} (h : p.manager.Alike m) :
    (Pool.mk m p.leases).Counted ↔ p.Counted := by
  simp only [Counted, h.targets, h.halfOpenLeases, probing]

theorem Probed.take {p : Pool} {selection : SelectionContext} {ref : Nat} (hp : p.Probed)
    (helig : p.manager.Eligible selection ref) : (Pool.take p.leases p.manager ref).Probed := by
  constructor
  · intro issued hin
    rcases List.mem_append.1 hin with hin | hin
    · exact hp.leases issued hin
    · obtain rfl := List.mem_singleton.1 hin
      exact helig.slot
  · intro r
    have hbound := hp.bound r
    simp only [Pool.take]
    by_cases hr : r = ref
    · subst hr
      rw [Manager.put_heap_self]
      simp only [TargetState.takeLease, Manager.put] at hbound ⊢
      split
      · rename_i hhalf
        have := helig.leases hhalf
        push_cast
        omega
      · exact hbound
    · rw [Manager.put_heap_of_ne _ _ hr]
      exact hbound

/-- A lease taken counts as a probe exactly when the circuit is half-open. -/
theorem Counted.take {p : Pool} (hcount : p.Counted) (ref : Nat) :
    (Pool.take p.leases p.manager ref).Counted := by
  intro slot hslot
  have hold : (p.manager.heap slot.state).halfOpenLeases = p.probing slot.state :=
    hcount slot hslot
  simp only [Pool.take, probing, List.countP_append, List.countP_singleton] at hold ⊢
  by_cases hr : slot.state = ref
  · subst hr
    by_cases hhalf : (p.manager.heap slot.state).circuit = .circuitHalfOpen <;>
      simp [TargetState.takeLease, Issued.probes, Issued.holds, hhalf, hold]
  · have hne : ref ≠ slot.state := fun h => hr h.symm
    rw [Manager.put_heap_of_ne _ _ hr, hold]
    simp [Issued.probes, Issued.holds, hne]

section Ends

variable {p : Pool} {op : Op} {lease : Nat} {issued : Issued} {state : TargetState}

theorem Probed.ends (hp : p.Probed) (h : p.Ends op lease issued state) :
    (p.step op).Probed := by
  rw [h.step]
  constructor
  · intro other hin
    rcases List.mem_or_eq_of_mem_set hin with hin | rfl
    · exact hp.leases other hin
    · exact hp.leases issued (List.mem_of_getElem? h.found)
  · intro r
    have hbound := hp.bound r
    by_cases hr : r = issued.lease.state
    · subst hr
      rw [Manager.put_heap_self, h.halfOpenLeases]
      simp only [TargetState.giveBack, Manager.put]
      split <;> omega
    · rw [Manager.put_heap_of_ne _ _ hr]
      exact hbound

/-- The count of the state a lease is finished on comes out right exactly when
the circuit says what it said when the lease was taken. -/
theorem Ends.count_iff (h : p.Ends op lease issued state)
    (hcount : (p.manager.heap issued.lease.state).halfOpenLeases =
      p.probing issued.lease.state) :
    state.halfOpenLeases = (p.step op).probing issued.lease.state ↔ p.FinishesAsTaken lease := by
  have hclose : (p.step op).probing issued.lease.state + (if issued.halfOpen then 1 else 0) =
      p.probing issued.lease.state := by
    have := countP_close h.found (Issued.probes_close issued.lease.state issued)
    simpa [probing, h.step, Issued.probes, Issued.holds, h.out] using this
  have hcond : p.FinishesAsTaken lease ↔
      if issued.halfOpen then (p.manager.heap issued.lease.state).circuit = .circuitHalfOpen
      else (p.manager.heap issued.lease.state).circuit = .circuitHalfOpen →
        (p.manager.heap issued.lease.state).halfOpenLeases = 0 := by
    simp [FinishesAsTaken, h.found, h.out]
  rw [hcond, h.halfOpenLeases]
  simp only [TargetState.giveBack]
  by_cases hprobe : issued.halfOpen <;>
    by_cases hhalf : (p.manager.heap issued.lease.state).circuit = .circuitHalfOpen <;>
    simp only [hprobe, hhalf, if_true, if_false, Bool.false_eq_true, forall_true_left,
      false_implies, iff_true, iff_false] at hclose ⊢ <;>
    omega

theorem Ends.counted_iff (hp : p.Probed) (hcount : p.Counted)
    (h : p.Ends op lease issued state) : (p.step op).Counted ↔ p.EndsAsTaken op := by
  obtain ⟨slot, hslot, hstate⟩ := hp.leases issued (List.mem_of_getElem? h.found)
  have hiff := h.count_iff (by rw [← hstate]; exact hcount slot hslot)
  have hcond : p.EndsAsTaken op ↔ p.FinishesAsTaken lease := by
    simp [EndsAsTaken, h.finishes]
  rw [hcond, ← hiff]
  constructor
  · intro hall
    have := hall slot (by rw [h.step]; exact hslot)
    rwa [hstate, h.step, Manager.put_heap_self, ← h.step] at this
  · intro hhere other hother
    rw [h.step] at hother ⊢
    have hold : (p.manager.heap other.state).halfOpenLeases = p.probing other.state :=
      hcount other hother
    by_cases hr : other.state = issued.lease.state
    · rw [hr, Manager.put_heap_self, ← h.step]
      exact hhere
    · have hne : issued.lease.state ≠ other.state := fun heq => hr heq.symm
      have hclose := countP_close h.found (Issued.probes_close other.state issued)
      rw [Manager.put_heap_of_ne _ _ hr, hold]
      simpa [probing, Issued.probes, Issued.holds, hne] using hclose.symm

end Ends

theorem Probed.step {p : Pool} (hp : p.Probed) (op : Op) : (p.step op).Probed := by
  rcases p.step_cases op with ⟨m, halike, -, heq⟩ |
    ⟨m, selection, ref, halike, -, helig, -, heq⟩ | ⟨lease, issued, state, hends⟩
  · rw [heq]
    exact hp.alike halike
  · rw [heq]
    exact (hp.alike halike).take helig
  · exact hp.ends hends

/-- A call that finishes no lease meets the condition. -/
theorem Idle.endsAsTaken {p : Pool} {op : Op} (h : p.Idle op) : p.EndsAsTaken op :=
  fun lease hlease issued hissued hout =>
    absurd (h lease hlease issued hissued) (by simp [hout])

/-- A call keeps the counts exact if and only if it meets the condition. -/
theorem counted_step {p : Pool} (op : Op) (hp : p.Probed) (hcount : p.Counted) :
    (p.step op).Counted ↔ p.EndsAsTaken op := by
  rcases p.step_cases op with ⟨m, halike, hidle, heq⟩ |
    ⟨m, selection, ref, halike, hidle, helig, -, heq⟩ | ⟨lease, issued, state, hends⟩
  · rw [heq, counted_alike halike]
    exact iff_of_true hcount hidle.endsAsTaken
  · rw [heq]
    have hbefore : (Pool.mk m p.leases).Counted := (counted_alike halike).2 hcount
    exact iff_of_true (hbefore.take ref) hidle.endsAsTaken
  · exact hends.counted_iff hp hcount

/-! ## Runs -/

theorem probed_start {pool : UpstreamPoolConfig} {legacy : UpstreamConfig} {m : Manager}
    (h : Manager.new pool legacy = .ok m) : (start m).Probed ∧ (start m).Counted := by
  obtain ⟨hzero, hmax⟩ := Manager.new_counts h
  refine ⟨⟨by simp [start], fun ref => ?_⟩, fun slot _ => ?_⟩
  · have := (hzero ref).2
    simp only [start]
    omega
  · simp [start, (hzero slot.state).2, probing]

/-- **The half-open count.** Under one configuration, the counts are exact in
every state a run passes through if and only if every lease of the run finishes
under the circuit it was taken in. -/
theorem halfOpenLeases_exact_iff {pool : UpstreamPoolConfig} {legacy : UpstreamConfig}
    {m : Manager} (h : Manager.new pool legacy = .ok m) (ops : List Op) :
    (∀ front, front <+: ops → ((start m).run front).HalfOpenExact) ↔
      Along step EndsAsTaken (start m) ops := by
  refine Along.iff_prefixes (I := fun p => p.Probed ∧ p.Counted)
    (fun p op hp hc => ⟨hp.1.step op, (counted_step op hp.1 hp.2).2 hc⟩)
    (fun p op hp hc hexact => hc ?_) (fun p hp => hp.1.exact_iff.2 hp.2) (probed_start h)
  exact (counted_step op hp.1 hp.2).1 ((hp.1.step op).exact_iff.1 hexact)

/-- One target that may have two probes out at once. -/
def probePool : UpstreamPoolConfig where
  strategy := "weighted-priority"
  targets := [{ id := "a", baseURL := "http://a", weight := 1 }]
  circuit :=
    { enabled := true, minimumRequests := 1, failurePercent := 50, openDuration := 1,
      halfOpenMax := 2 }

def relay : UpstreamConfig := ⟨"http://a", 1, 1, 0⟩

/-- The manager they make. -/
def probeManager : Manager := ((Manager.blank relay).apply probePool relay).1

theorem new_probePool : Manager.new probePool relay = .ok probeManager := rfl

/-- One failure opens the circuit, and a second later two probes are out. -/
def twoProbes : List Op :=
  [.observe 1 "a" { category := "transport" }, .select 2 {} none none, .select 2 {} none none]

theorem halfOpenLeases_exact_twoProbes :
    ((start probeManager).run twoProbes).HalfOpenExact ∧
      ((start probeManager).run twoProbes).probing 0 = 2 :=
  ⟨(halfOpenLeases_exact_iff new_probePool twoProbes).2
    ⟨by simp [EndsAsTaken, Op.finishes], by simp [EndsAsTaken, Op.finishes],
      by simp [EndsAsTaken, Op.finishes], trivial⟩ twoProbes (List.prefix_refl _),
    by decide +kernel⟩

/-- One of the two probes succeeds, which closes the circuit, and then the
other is given back. -/
def bothEnd : List Op :=
  twoProbes ++ [.complete 0 3 { success := true }, .release 1]

/-- No lease is out any more and the target still counts a probe. -/
theorem not_halfOpenLeases_exact :
    Manager.new probePool relay = .ok probeManager ∧
      ¬((start probeManager).run bothEnd).HalfOpenExact ∧
      ((start probeManager).run bothEnd).outstanding 0 = 0 ∧
      (((start probeManager).run bothEnd).manager.heap 0).halfOpenLeases = 1 :=
  ⟨new_probePool, by decide +kernel, by decide +kernel, by decide +kernel⟩

end Pool

end RelayLifeline.Upstream
