import RelayLifeline.Upstream.Manager

/-!
# What each operation does to a manager

Looking for candidates moves open circuits whose time is up to half-open, and
choosing among them moves the cursor. Nothing else about a manager changes
before the lease is taken, so a selection is one of two things: such a warming
and an error, or such a warming and one lease taken on a state the filters let
through. Finishing a lease rewrites the state it points at and no other, an
observation changes no count, and a reload goes through its targets either
keeping a state under a new configuration or making one. Every invariant of the
pool is proved from these.
-/

namespace RelayLifeline.Upstream

open Lib

namespace Manager

variable {m m' m'' : Manager} {selection : SelectionContext} {ref : Nat} {now : Int}

/-- `m'` differs from `m` in nothing that leases and limits are counted by. -/
structure Alike (m m' : Manager) : Prop where
  circuit : m'.circuit = m.circuit
  targets : m'.targets = m.targets
  order : m'.order = m.order
  size : m'.size = m.size
  cfg : ∀ ref, (m'.heap ref).cfg = (m.heap ref).cfg
  active : ∀ ref, (m'.heap ref).active = (m.heap ref).active
  halfOpenLeases : ∀ ref, (m'.heap ref).halfOpenLeases = (m.heap ref).halfOpenLeases
  transportCfg : ∀ ref, (m'.heap ref).transportCfg = (m.heap ref).transportCfg

theorem Alike.refl (m : Manager) : Alike m m :=
  ⟨rfl, rfl, rfl, rfl, fun _ => rfl, fun _ => rfl, fun _ => rfl, fun _ => rfl⟩

/-- `m'` is `m` with some open circuits half-open and the cursor anywhere. -/
structure Warmed (m m' : Manager) : Prop where
  strategy : m'.strategy = m.strategy
  circuit : m'.circuit = m.circuit
  targets : m'.targets = m.targets
  order : m'.order = m.order
  size : m'.size = m.size
  heap : ∀ ref, m'.heap ref = m.heap ref ∨
    (m.heap ref).circuit = .circuitOpen ∧
      m'.heap ref = { m.heap ref with circuit := .circuitHalfOpen }

namespace Warmed

theorem refl (m : Manager) : Warmed m m := ⟨rfl, rfl, rfl, rfl, rfl, fun _ => .inl rfl⟩

theorem trans (h : Warmed m m') (h' : Warmed m' m'') : Warmed m m'' where
  strategy := h'.strategy.trans h.strategy
  circuit := h'.circuit.trans h.circuit
  targets := h'.targets.trans h.targets
  order := h'.order.trans h.order
  size := h'.size.trans h.size
  heap ref := by
    rcases h.heap ref with heq | ⟨hopen, heq⟩
    · rw [← heq]
      exact h'.heap ref
    · rcases h'.heap ref with heq' | ⟨hopen', -⟩
      · exact .inr ⟨hopen, heq'.trans heq⟩
      · rw [heq] at hopen'
        exact absurd hopen' (by simp)

/-- A circuit that is not open stays as it is. -/
theorem heap_eq (h : Warmed m m') (ref : Nat) (hclosed : (m.heap ref).circuit ≠ .circuitOpen) :
    m'.heap ref = m.heap ref := by
  rcases h.heap ref with heq | ⟨hopen, -⟩
  · exact heq
  · exact absurd hopen hclosed

theorem alike (h : Warmed m m') : Alike m m' where
  circuit := h.circuit
  targets := h.targets
  order := h.order
  size := h.size
  cfg ref := by rcases h.heap ref with heq | ⟨-, heq⟩ <;> rw [heq]
  active ref := by rcases h.heap ref with heq | ⟨-, heq⟩ <;> rw [heq]
  halfOpenLeases ref := by rcases h.heap ref with heq | ⟨-, heq⟩ <;> rw [heq]
  transportCfg ref := by rcases h.heap ref with heq | ⟨-, heq⟩ <;> rw [heq]

end Warmed

/-- A state the loop of `candidatesLocked` lets through. -/
structure Eligible (m : Manager) (selection : SelectionContext) (ref : Nat) : Prop where
  slot : ∃ slot ∈ m.targets.items, slot.state = ref
  circuit : (m.heap ref).circuit ≠ .circuitOpen
  leases : (m.heap ref).circuit = .circuitHalfOpen →
    ((m.heap ref).halfOpenLeases : Int) < m.circuit.halfOpenMax
  target : selection.previousTargetID ≠ "" → selection.wroteRequest →
    selection.idempotencyKey = "" → (m.heap ref).cfg.id = selection.previousTargetID
  domain : selection.previousDomain ≠ "" → selection.wroteRequest →
    selection.allowCrossDomain = false →
    (m.heap ref).cfg.idempotencyDomain = selection.previousDomain

theorem Eligible.warm (he : Eligible m selection ref) (h : Warmed m m') :
    Eligible m' selection ref := by
  have heap := h.heap_eq ref he.circuit
  exact {
    slot := h.targets ▸ he.slot
    circuit := heap ▸ he.circuit
    leases := by rw [heap, h.circuit]; exact he.leases
    target := heap ▸ he.target
    domain := heap ▸ he.domain }

theorem put_self (m : Manager) (ref : Nat) : m.put ref (m.heap ref) = m := by
  simp [put]

@[simp] theorem put_heap_self (m : Manager) (ref : Nat) (state : TargetState) :
    (m.put ref state).heap ref = state := by
  simp [put]

theorem put_heap_of_ne {r : Nat} (m : Manager) (state : TargetState) (h : r ≠ ref) :
    (m.put ref state).heap r = m.heap r := by
  simp [put, h]

/-- Moving an open circuit to half-open is a warming. -/
theorem warmed_put (m : Manager) (ref : Nat) :
    Warmed m (m.put ref (m.heap ref).warm) := by
  simp only [TargetState.warm]
  split
  · rename_i hopen
    refine ⟨rfl, rfl, rfl, rfl, rfl, fun r => ?_⟩
    by_cases hr : r = ref
    · subst hr
      exact .inr ⟨hopen, by simp⟩
    · exact .inl (put_heap_of_ne m _ hr)
  · rw [put_self]
    exact .refl m

/-- One round of the loop warms the manager and adds at most one state, an
eligible one. -/
theorem consider_spec (now : Int) (selection : SelectionContext) (acc : Manager × List Nat)
    (id : String) :
    Warmed acc.1 (consider now selection acc id).1 ∧
      ∀ ref ∈ (consider now selection acc id).2, ref ∈ acc.2 ∨
        Eligible (consider now selection acc id).1 selection ref := by
  have keep : ∀ w : Manager, ∀ ref ∈ acc.2, ref ∈ acc.2 ∨ Eligible w selection ref :=
    fun _ _ hin => .inl hin
  simp only [consider]
  split
  · exact ⟨.refl _, keep _⟩
  split
  · exact ⟨.refl _, keep _⟩
  rename_i slot hslot
  have hwarm := warmed_put acc.1 slot.state
  split
  · exact ⟨.refl _, keep _⟩
  split
  · exact ⟨.refl _, keep _⟩
  split
  · exact ⟨hwarm, keep _⟩
  split
  · exact ⟨hwarm, keep _⟩
  split
  · exact ⟨hwarm, keep _⟩
  rename_i hleases htarget hdomain
  refine ⟨hwarm, fun ref hin => ?_⟩
  rcases List.mem_append.1 hin with hin | hin
  · exact .inl hin
  obtain rfl := List.mem_singleton.1 hin
  refine .inr ⟨⟨slot, Table.mem_of_get? hslot, rfl⟩, ?_, ?_, ?_, ?_⟩
  · rw [put_heap_self, TargetState.warm]
    split <;> simp_all
  · intro hhalf
    rw [put_heap_self] at hhalf ⊢
    exact not_le.1 fun hle => hleases ⟨hhalf, hle⟩
  · intro hprev hwrote hkey
    rw [put_heap_self]
    exact not_not.1 fun hne => htarget ⟨hprev, hwrote, hkey, hne⟩
  · intro hprev hwrote hcross
    rw [put_heap_self]
    exact not_not.1 fun hne => hdomain ⟨hprev, hwrote, by simp [hcross], hne⟩

theorem narrow_subset (m : Manager) (selection : SelectionContext) (result : List Nat) :
    ∀ ref ∈ m.narrow selection result, ref ∈ result := by
  intro ref hin
  simp only [narrow] at hin
  split at hin
  · rename_i candidate hpref
    obtain rfl := List.mem_singleton.1 hin
    split at hpref
    · exact List.mem_of_find?_eq_some hpref
    · exact absurd hpref (by simp)
  · split at hin
    · exact absurd hin (by simp)
    split at hin
    · split at hin
      · exact List.mem_of_mem_filter hin
      · exact hin
    · exact hin

theorem candidates_spec (m : Manager) (now : Int) (selection : SelectionContext) :
    Warmed m (m.candidates now selection).1 ∧
      ∀ ref ∈ (m.candidates now selection).2,
        Eligible (m.candidates now selection).1 selection ref := by
  -- the loop keeps what it found eligible while it warms the rest
  have hloop : ∀ (order : List String) (acc : Manager × List Nat),
      (∀ ref ∈ acc.2, Eligible acc.1 selection ref) →
      Warmed acc.1 (order.foldl (consider now selection) acc).1 ∧
        ∀ ref ∈ (order.foldl (consider now selection) acc).2,
          Eligible (order.foldl (consider now selection) acc).1 selection ref := by
    intro order
    induction order with
    | nil => exact fun acc h => ⟨.refl _, h⟩
    | cons id order ih =>
        intro acc h
        obtain ⟨hwarm, hnew⟩ := consider_spec now selection acc id
        obtain ⟨hrest, hall⟩ := ih (consider now selection acc id) fun ref hin =>
          (hnew ref hin).elim (fun hold => (h ref hold).warm hwarm) fun he => he
        exact ⟨hwarm.trans hrest, hall⟩
  obtain ⟨hwarm, hall⟩ := hloop m.order (m, []) (by simp)
  exact ⟨hwarm, fun ref hin => hall ref (narrow_subset _ _ _ ref hin)⟩

theorem pick_mem {point : Int} {preferred : List Nat} (h : m.pick point preferred = some ref) :
    ref ∈ preferred := by
  induction preferred generalizing point with
  | nil => exact absurd h (by simp [pick])
  | cons candidate rest ih =>
      simp only [pick] at h
      split at h
      · simp_all
      split at h
      · simp_all
      · exact List.mem_cons_of_mem _ (ih h)

/-- Choosing moves nothing but the cursor and picks one of the candidates with
room. -/
theorem choose_spec (m : Manager) (candidates : List Nat) :
    Warmed m (m.choose candidates).1 ∧
      ∀ ref, (m.choose candidates).2 = some ref → ref ∈ candidates ∧ m.hasRoom ref := by
  have hmem : ∀ {p : Nat → Bool} {ref : Nat},
      ref ∈ (candidates.filter m.hasRoom).filter p → ref ∈ candidates ∧ m.hasRoom ref := by
    intro p ref hin
    simpa using List.mem_filter.1 (List.mem_of_mem_filter hin)
  simp only [choose]
  split
  · exact ⟨.refl m, by simp⟩
  · rename_i first rest hroom
    rw [← hroom]
    split
    · exact ⟨.refl m, fun ref h => hmem (List.mem_of_head? h)⟩
    · refine ⟨⟨rfl, rfl, rfl, rfl, rfl, fun _ => .inl rfl⟩, fun ref h => hmem (pick_mem h)⟩

/-- **What `Select` can do.** It warms the manager, and then either answers an
error or takes one lease on an eligible state with room. -/
theorem select_cases (m : Manager) (now : Int) (selection : SelectionContext)
    (ctx waited : Option ContextError) :
    (Warmed m (m.select now selection ctx waited).1 ∧
      ∃ err, (m.select now selection ctx waited).2 = .error err) ∨
    ∃ w ref, Warmed m w ∧ Eligible w selection ref ∧ w.hasRoom ref ∧
      m.select now selection ctx waited =
        (w.put ref (w.heap ref).takeLease, .ok ⟨ref, (w.heap ref).cfg, false⟩) := by
  simp only [select]
  split
  · exact .inl ⟨.refl m, _, rfl⟩
  · obtain ⟨hwarm, hall⟩ := candidates_spec m now selection
    split
    · exact .inl ⟨hwarm, _, rfl⟩
    · obtain ⟨hcursor, hroom⟩ := choose_spec (m.candidates now selection).1
        (m.candidates now selection).2
      split
      · rename_i ref hchosen
        split
        · rename_i hfull
          exact .inr ⟨_, ref, hwarm.trans hcursor,
            (hall ref (hroom ref hchosen).1).warm hcursor, hfull, rfl⟩
        · exact .inl ⟨hwarm.trans hcursor, _, rfl⟩
      · exact .inl ⟨hwarm.trans hcursor, _, rfl⟩

/-! ## Finishing and observing -/

/-- An observation changes no count. -/
theorem observe_alike (m : Manager) (now : Int) (targetID : String) (observation : Observation) :
    Alike m (m.observe now targetID observation) := by
  simp only [observe]
  split
  · exact .refl m
  · rename_i slot _
    obtain ⟨hcfg, hactive, hhalf, htransport⟩ :=
      (m.heap slot.state).observe_rest m.circuit now observation
    constructor <;> first | rfl | skip
    all_goals
      intro ref
      by_cases hr : ref = slot.state
      · subst hr
        simp [hcfg, hactive, hhalf, htransport]
      · rw [put_heap_of_ne _ _ hr]

/-- Finishing a lease that is out rewrites its state alone, and gives back one
place there. -/
theorem finish_spec (m : Manager) (lease : Lease) (now : Int) (observation : Option Observation)
    (hout : lease.done = false) :
    ∃ state : TargetState, m.finish lease now observation = m.put lease.state state ∧
      state.cfg = (m.heap lease.state).cfg ∧
      state.active = (m.heap lease.state).active - 1 ∧
      state.halfOpenLeases = (m.heap lease.state).giveBack.halfOpenLeases ∧
      state.transportCfg = (m.heap lease.state).transportCfg := by
  cases observation with
  | none => exact ⟨(m.heap lease.state).giveBack, by simp [finish, hout], rfl, rfl, rfl, rfl⟩
  | some observation =>
      exact ⟨_, by simp only [finish, hout]; rfl,
        (m.heap lease.state).giveBack.observe_rest m.circuit now observation⟩

/-! ## Reloading -/

/-- What a reload keeps as it goes through its targets holds of the manager it
leaves and of the map it made, however far it got. -/
theorem stage_invariant (P : Manager → Table Slot → Prop) (legacy : UpstreamConfig)
    (targets : List UpstreamTargetConfig)
    (hreuse : ∀ m next target slot, target ∈ targets → target.id ≠ "" →
      m.reused legacy target = some slot → P m next →
      P (m.put slot.state { m.heap slot.state with cfg := targetConfig target }) (next.set slot))
    (hfresh : ∀ m next target, target ∈ targets → target.id ≠ "" →
      m.reused legacy target = none → P m next →
      P { m.put m.size (freshState ((m.targets.get? target.id).map fun slot => m.heap slot.state)
            target legacy) with size := m.size + 1 }
        (next.set ⟨target.id, m.size⟩))
    (m : Manager) (next : Table Slot) (h : P m next) :
    ∃ made, P (stage legacy targets m next).1 made ∧
      ∀ t, (stage legacy targets m next).2 = .ok t → t = made := by
  induction targets generalizing m next with
  | nil =>
      refine ⟨next, h, fun t ht => ?_⟩
      simp only [stage] at ht
      exact (Except.ok.inj ht).symm
  | cons target rest ih =>
      have ih' := ih
        (fun m next t slot ht => hreuse m next t slot (List.mem_cons_of_mem _ ht))
        (fun m next t ht => hfresh m next t (List.mem_cons_of_mem _ ht))
      simp only [stage]
      split
      · exact ⟨next, h, by simp⟩
      rename_i hvalid
      rw [not_or] at hvalid
      split
      · rename_i slot hslot
        exact ih' _ _ (hreuse m next target slot (by simp) hvalid.1 hslot h)
      · rename_i hnone
        exact ih' _ _ (hfresh m next target (by simp) hvalid.1 hnone h)

theorem freshState_counts (previous : Option TargetState) (target : UpstreamTargetConfig)
    (legacy : UpstreamConfig) :
    (freshState previous target legacy).cfg = targetConfig target ∧
      (freshState previous target legacy).active = 0 ∧
      (freshState previous target legacy).halfOpenLeases = 0 := by
  simp only [freshState]
  split
  · exact ⟨rfl, rfl, rfl⟩
  · split <;> exact ⟨rfl, rfl, rfl⟩

theorem one_le_halfOpenMax (circuit : UpstreamCircuitConfig) :
    1 ≤ (normalize circuit).halfOpenMax := by
  simp only [normalize]
  split <;> omega

/-- A new manager has no lease on any state. -/
theorem new_counts {pool : UpstreamPoolConfig} {legacy : UpstreamConfig}
    (h : new pool legacy = .ok m) :
    (∀ ref, (m.heap ref).active = 0 ∧ (m.heap ref).halfOpenLeases = 0) ∧
      1 ≤ m.circuit.halfOpenMax := by
  obtain ⟨made, hzero, hmade⟩ := stage_invariant
    (fun m _ => ∀ ref, (m.heap ref).active = 0 ∧ (m.heap ref).halfOpenLeases = 0)
    legacy (targetsOf pool legacy)
    (fun m next target slot _ _ _ hm ref => by
      by_cases hr : ref = slot.state
      · subst hr
        rw [put_heap_self]
        exact hm slot.state
      · rw [put_heap_of_ne _ _ hr]
        exact hm ref)
    (fun m next target _ _ _ hm ref => by
      by_cases hr : ref = m.size
      · subst hr
        simp only [put, Function.update_self]
        exact (freshState_counts _ _ _).2
      · simp only [put, ne_eq, hr, not_false_eq_true, Function.update_of_ne]
        exact hm ref)
    (blank legacy) ∅ (fun _ => ⟨rfl, rfl⟩)
  simp only [new, apply] at h
  split at h
  · exact absurd h (by simp [Except.map])
  · simp only [Except.map, Except.ok.injEq] at h
    subst h
    exact ⟨hzero, one_le_halfOpenMax pool.circuit⟩

end Manager

end RelayLifeline.Upstream
