import RelayLifeline.Upstream.Leases

/-!
# Concurrency limits across reloads

A target's `active` is exactly the number of leases out on the state it
belongs to, whatever is reloaded and whenever. The limit is checked against
that number, so it bounds the leases of one state. A reload that changes the
address or the transport puts a new state under the name, with no lease on it,
and the leases still out on the old one are counted nowhere the limit looks. So
the limit holds over a run whose reloads leave the state of the target in place
while leases on it are out.
-/

namespace RelayLifeline.Upstream

open Lib

/-- A call, or a configuration applied. -/
inductive Input where
  | call (op : Op)
  | apply (pool : UpstreamPoolConfig) (legacy : UpstreamConfig)

namespace Pool

def next (p : Pool) : Input → Pool
  | .call op => p.step op
  | .apply pool legacy => { p with manager := (p.manager.apply pool legacy).1 }

def runInputs (p : Pool) (inputs : List Input) : Pool := inputs.foldl next p

/-- The `Active` count of a target. -/
def activeOf (p : Pool) (id : String) : Nat :=
  match p.manager.targets.get? id with
  | none => 0
  | some slot => (p.manager.heap slot.state).active

/-- The configuration has the target, with the limit `k`. -/
def Keeps (id : String) (k : Int) (pool : UpstreamPoolConfig) (legacy : UpstreamConfig) : Prop :=
  (∃ target ∈ Manager.targetsOf pool legacy, target.id = id) ∧
    ∀ target ∈ Manager.targetsOf pool legacy, target.id = id → target.maxActive = k

/-- Every configuration applied keeps the target and its limit. -/
def KeepsLimit (id : String) (k : Int) : Input → Prop
  | .call _ => True
  | .apply pool legacy => Keeps id k pool legacy

/-- A configuration `ApplyWithEgress` turns down. -/
def Invalid (pool : UpstreamPoolConfig) (legacy : UpstreamConfig) : Prop :=
  ∃ target ∈ Manager.targetsOf pool legacy, target.id = "" ∨ target.baseURL = ""

/-- The configuration gives the target the address and the transport it has. -/
def SameTransport (m : Manager) (id : String) (pool : UpstreamPoolConfig)
    (legacy : UpstreamConfig) : Prop :=
  ∀ slot ∈ m.targets.get? id, ∀ target ∈ Manager.targetsOf pool legacy, target.id = id →
    (m.heap slot.state).cfg.baseURL = target.baseURL ∧ (m.heap slot.state).transportCfg = legacy

/-- A reload that takes effect while leases of the target are out leaves its
address and the transport as they are. -/
def Undisturbed (id : String) (p : Pool) : Input → Prop
  | .call _ => True
  | .apply pool legacy =>
      p.outstandingOn id = 0 ∨ Invalid pool legacy ∨ SameTransport p.manager id pool legacy

/-! ## What reloading keeps -/

/-- What holds of any pool: names are right, and `active` counts the leases
out. -/
structure Sound (p : Pool) : Prop where
  slots : ∀ slot ∈ p.manager.targets.items,
    slot.state < p.manager.size ∧ (p.manager.heap slot.state).cfg.id = slot.id
  leases : ∀ issued ∈ p.leases, issued.lease.done = false →
    issued.lease.state < p.manager.size ∧
      (p.manager.heap issued.lease.state).cfg.id = issued.lease.target.id
  active : ∀ ref, (p.manager.heap ref).active = p.outstanding ref

/-- How far a reload has got: `m` and `next` against the manager `old` it began
from. -/
structure Staged (old m : Manager) (next : Table Slot) : Prop where
  targets : m.targets = old.targets
  size : old.size ≤ m.size
  heap : ∀ ref < old.size, (m.heap ref).cfg.id = (old.heap ref).cfg.id ∧
    (m.heap ref).cfg.baseURL = (old.heap ref).cfg.baseURL ∧
    (m.heap ref).transportCfg = (old.heap ref).transportCfg
  active : ∀ ref, (m.heap ref).active = (old.heap ref).active
  slots : ∀ slot ∈ next.items, slot.state < m.size ∧ (m.heap slot.state).cfg.id = slot.id

theorem reused_spec {m : Manager} {legacy : UpstreamConfig} {target : UpstreamTargetConfig}
    {slot : Slot} (h : m.reused legacy target = some slot) :
    m.targets.get? target.id = some slot ∧
      (m.heap slot.state).cfg.baseURL = target.baseURL := by
  simp only [Manager.reused, Option.filter_eq_some_iff, Bool.decide_and, Bool.and_eq_true,
    decide_eq_true_eq] at h
  exact ⟨h.1, h.2.1⟩

section Stage

variable {old m : Manager} {next : Table Slot} {legacy : UpstreamConfig}
  {target : UpstreamTargetConfig} {slot : Slot}

theorem Staged.reuse
    (hold : ∀ slot ∈ old.targets.items,
      slot.state < old.size ∧ (old.heap slot.state).cfg.id = slot.id)
    (hslot : m.reused legacy target = some slot) (h : Staged old m next) :
    Staged old
      (m.put slot.state { m.heap slot.state with cfg := Manager.targetConfig target })
      (next.set slot) := by
  obtain ⟨hget, hurl⟩ := reused_spec hslot
  have hid : slot.id = target.id := Table.key_of_get? hget
  obtain ⟨hlt, hname⟩ := hold slot (Table.mem_of_get? (h.targets ▸ hget))
  have hcfg : ∀ ref, ref = slot.state ∨
      ((m.put slot.state { m.heap slot.state with cfg := Manager.targetConfig target }).heap ref =
        m.heap ref) := fun ref => (em (ref = slot.state)).imp_right (Manager.put_heap_of_ne m _)
  refine ⟨h.targets, h.size, fun ref href => ?_, fun ref => ?_, fun other hother => ?_⟩
  · rcases hcfg ref with rfl | heq
    · obtain ⟨-, hurl', htransport⟩ := h.heap slot.state href
      rw [Manager.put_heap_self]
      exact ⟨hid.symm.trans hname.symm, hurl.symm.trans hurl', htransport⟩
    · rw [heq]
      exact h.heap ref href
  · rcases hcfg ref with rfl | heq
    · rw [Manager.put_heap_self]
      exact h.active slot.state
    · rw [heq]
      exact h.active ref
  · rcases Table.mem_set.1 hother with rfl | ⟨hother, -⟩
    · rw [Manager.put_heap_self]
      exact ⟨hlt.trans_le h.size, hid.symm⟩
    · obtain ⟨hother, hname'⟩ := h.slots other hother
      refine ⟨hother, ?_⟩
      rcases hcfg other.state with heq | heq
      · rw [heq, Manager.put_heap_self]
        refine hid.symm.trans ?_
        rw [← hname', heq, (h.heap slot.state hlt).1, hname]
      · rw [heq]
        exact hname'

theorem Staged.fresh (hzero : ∀ ref, old.size ≤ ref → (old.heap ref).active = 0)
    (previous : Option TargetState) (h : Staged old m next) :
    Staged old
      { m.put m.size (Manager.freshState previous target legacy) with size := m.size + 1 }
      (next.set ⟨target.id, m.size⟩) := by
  obtain ⟨hcfg, hactive, -⟩ := Manager.freshState_counts previous target legacy
  refine ⟨h.targets, Nat.le_succ_of_le h.size, fun ref href => ?_, fun ref => ?_,
    fun other hother => ?_⟩
  · have hne : ref ≠ m.size := by
      have := h.size
      omega
    simp only [Manager.put, ne_eq, hne, not_false_eq_true, Function.update_of_ne]
    exact h.heap ref href
  · by_cases hr : ref = m.size
    · subst hr
      simp only [Manager.put, Function.update_self, hactive]
      exact (hzero m.size h.size).symm
    · simp only [Manager.put, ne_eq, hr, not_false_eq_true, Function.update_of_ne]
      exact h.active ref
  · rcases Table.mem_set.1 hother with rfl | ⟨hother, -⟩
    · simp [Manager.put, hcfg, Manager.targetConfig]
    · obtain ⟨hlt, hname⟩ := h.slots other hother
      have hne : other.state ≠ m.size := by omega
      refine ⟨Nat.lt_succ_of_lt hlt, ?_⟩
      simp only [Manager.put, ne_eq, hne, not_false_eq_true, Function.update_of_ne]
      exact hname

end Stage

/-- A reload that goes through has every target it was given, and was given
none that is invalid. -/
theorem stage_ok {legacy : UpstreamConfig} {targets : List UpstreamTargetConfig} {m : Manager}
    {next made : Table Slot} (h : (Manager.stage legacy targets m next).2 = .ok made) :
    (∀ target ∈ targets, target.id ≠ "" ∧ target.baseURL ≠ "") ∧
      ∀ id, (next.get? id).isSome ∨ (∃ target ∈ targets, target.id = id) →
        (made.get? id).isSome := by
  induction targets generalizing m next with
  | nil =>
      simp only [Manager.stage, Except.ok.injEq] at h
      subst h
      simp
  | cons target rest ih =>
      -- whichever state it is, the name of the target is in the map from here on
      have hset : ∀ (slot : Slot) (id : String), slot.id = target.id →
          ((next.get? id).isSome ∨ ∃ t ∈ target :: rest, t.id = id) →
          ((next.set slot).get? id).isSome ∨ ∃ t ∈ rest, t.id = id := by
        intro slot id hslot hin
        by_cases hid : id = slot.id
        · subst hid
          exact .inl (by simp [show (next.set slot).get? slot.id = some slot from
            Table.get?_set_self])
        · rcases hin with hin | ⟨t, ht, rfl⟩
          · exact .inl (by rwa [Table.get?_set_of_ne (show id ≠ key slot from hid)])
          · rcases List.mem_cons.1 ht with rfl | ht
            · exact absurd hslot.symm hid
            · exact .inr ⟨t, ht, rfl⟩
      simp only [Manager.stage] at h
      split at h
      · exact absurd h (by simp)
      rename_i hvalid
      rw [not_or] at hvalid
      split at h
      · rename_i slot hslot
        have hname : slot.id = target.id := Table.key_of_get? (reused_spec hslot).1
        obtain ⟨hrest, hall⟩ := ih h
        exact ⟨List.forall_mem_cons.2 ⟨hvalid, hrest⟩, fun id hin => hall id (hset _ id hname hin)⟩
      · obtain ⟨hrest, hall⟩ := ih h
        exact ⟨List.forall_mem_cons.2 ⟨hvalid, hrest⟩, fun id hin => hall id (hset _ id rfl hin)⟩

/-- Every state made for the target has the limit `k`. -/
def LimitIs (id : String) (k : Int) (m : Manager) : Prop :=
  ∀ ref < m.size, (m.heap ref).cfg.id = id → (m.heap ref).cfg.maxActive = k

section Apply

variable {pool : UpstreamPoolConfig} {legacy : UpstreamConfig} {m : Manager} {id : String}
  {k : Int}

theorem stage_limitIs (hkeeps : Keeps id k pool legacy) (h : LimitIs id k m) :
    LimitIs id k (Manager.stage legacy (Manager.targetsOf pool legacy) m ∅).1 := by
  have hlimit : ∀ target ∈ Manager.targetsOf pool legacy,
      (Manager.targetConfig target).id = id → (Manager.targetConfig target).maxActive = k :=
    hkeeps.2
  obtain ⟨made, hmade, -⟩ := Manager.stage_invariant (fun m _ => LimitIs id k m) legacy
    (Manager.targetsOf pool legacy)
    (fun m next target slot ht _ _ hm ref href hid => by
      by_cases hr : ref = slot.state
      · subst hr
        rw [Manager.put_heap_self] at hid ⊢
        exact hlimit target ht hid
      · rw [Manager.put_heap_of_ne _ _ hr] at hid ⊢
        exact hm ref href hid)
    (fun m next target ht _ _ hm ref href hid => by
      by_cases hr : ref = m.size
      · subst hr
        simp only [Manager.put, Function.update_self, (Manager.freshState_counts _ _ _).1] at hid ⊢
        exact hlimit target ht hid
      · simp only [Manager.put, ne_eq, hr, not_false_eq_true, Function.update_of_ne] at hid ⊢
        exact hm ref (Nat.lt_of_le_of_ne (Nat.le_of_lt_succ href) hr) hid)
    m ∅ h
  exact hmade

theorem Sound.idle {p : Pool} (hp : p.Sound) (ref : Nat) (href : p.manager.size ≤ ref) :
    (p.manager.heap ref).active = 0 := by
  rw [hp.active ref]
  refine List.countP_eq_zero.2 fun issued hin hholds => ?_
  simp only [Issued.holds, Bool.and_eq_true, Bool.not_eq_true', beq_iff_eq] at hholds
  have := (hp.leases issued hin hholds.1).1
  omega

/-- Where the target keeps its address and transport, whatever is put under its
name is the state already there. -/
theorem stage_spec {p : Pool} (hp : p.Sound) (id : String) (pool : UpstreamPoolConfig)
    (legacy : UpstreamConfig) :
    ∃ made, Staged p.manager
        (Manager.stage legacy (Manager.targetsOf pool legacy) p.manager ∅).1 made ∧
      (SameTransport p.manager id pool legacy →
        ∀ old ∈ p.manager.targets.get? id, ∀ slot ∈ made.items, slot.id = id → slot = old) ∧
      ∀ t, (Manager.stage legacy (Manager.targetsOf pool legacy) p.manager ∅).2 = .ok t →
        t = made := by
  obtain ⟨made, ⟨hstaged, hsame⟩, hmade⟩ := Manager.stage_invariant
    (fun m next => Staged p.manager m next ∧
      (SameTransport p.manager id pool legacy →
        ∀ old ∈ p.manager.targets.get? id, ∀ slot ∈ next.items, slot.id = id → slot = old))
    legacy (Manager.targetsOf pool legacy)
    (fun m next target slot ht _ hslot hm => by
      refine ⟨hm.1.reuse hp.slots hslot, fun hcond old hold other hother hid => ?_⟩
      rcases Table.mem_set.1 hother with rfl | ⟨hother, -⟩
      · have hget := (reused_spec hslot).1
        have hname : other.id = target.id := Table.key_of_get? hget
        rw [hm.1.targets, ← hname, hid, hold] at hget
        exact (Option.some.inj hget).symm
      · exact hm.2 hcond old hold other hother hid)
    (fun m next target ht _ hslot hm => by
      refine ⟨hm.1.fresh hp.idle _, fun hcond old hold other hother hid => ?_⟩
      rcases Table.mem_set.1 hother with rfl | ⟨hother, -⟩
      · -- a target whose address and transport stay would have been reused
        obtain ⟨hurl, htransport⟩ := hcond old hold target ht hid
        have hlt := (hp.slots old (Table.mem_of_get? hold)).1
        obtain ⟨-, hurl', htransport'⟩ := hm.1.heap old.state hlt
        have hget : m.targets.get? target.id = some old := by
          rw [hm.1.targets, show target.id = id from hid]
          exact hold
        simp [Manager.reused, hget, hurl', hurl, htransport', htransport] at hslot
      · exact hm.2 hcond old hold other hother hid)
    p.manager ∅ ⟨⟨rfl, le_rfl, fun _ _ => ⟨rfl, rfl, rfl⟩, fun _ => rfl, by simp⟩, by simp⟩
  exact ⟨made, hstaged, hsame, hmade⟩

/-- The manager a reload leaves is the staged one, under the map it made or,
when it turned the configuration down, under the old one. -/
theorem apply_cases (m : Manager) (pool : UpstreamPoolConfig) (legacy : UpstreamConfig) :
    let staged := Manager.stage legacy (Manager.targetsOf pool legacy) m ∅
    (m.apply pool legacy).1.heap = staged.1.heap ∧ (m.apply pool legacy).1.size = staged.1.size ∧
      ((∃ err, staged.2 = .error err ∧ (m.apply pool legacy).1.targets = staged.1.targets) ∨
        ∃ made, staged.2 = .ok made ∧ (m.apply pool legacy).1.targets = made) := by
  intro staged
  simp only [Manager.apply]
  split
  · rename_i err herr
    exact ⟨rfl, rfl, .inl ⟨err, herr, rfl⟩⟩
  · rename_i made hmade
    exact ⟨rfl, rfl, .inr ⟨made, hmade, rfl⟩⟩

theorem Sound.apply {p : Pool} (hp : p.Sound) : (p.next (.apply pool legacy)).Sound := by
  obtain ⟨made, hstaged, -, hmade⟩ := stage_spec hp "" pool legacy
  obtain ⟨hheap, hsize, htargets⟩ := apply_cases p.manager pool legacy
  refine ⟨fun slot hslot => ?_, fun issued hin hout => ?_, fun ref => ?_⟩
  · simp only [next] at hslot ⊢
    rw [hheap, hsize]
    rcases htargets with ⟨err, -, htargets⟩ | ⟨t, ht, htargets⟩
    · rw [htargets, hstaged.targets] at hslot
      obtain ⟨hlt, hname⟩ := hp.slots slot hslot
      exact ⟨hlt.trans_le hstaged.size, (hstaged.heap slot.state hlt).1.trans hname⟩
    · rw [htargets, hmade t ht] at hslot
      exact hstaged.slots slot hslot
  · simp only [next]
    rw [hheap, hsize]
    obtain ⟨hlt, hname⟩ := hp.leases issued hin hout
    exact ⟨hlt.trans_le hstaged.size, (hstaged.heap _ hlt).1.trans hname⟩
  · simp only [next]
    rw [hheap, hstaged.active]
    exact hp.active ref

end Apply

/-- A pool whose target `id` has the limit `k` and keeps it. -/
structure Limited (id : String) (k : Int) (p : Pool) : Prop where
  sound : p.Sound
  limit : LimitIs id k p.manager
  slot : (p.manager.targets.get? id).isSome
  current : ∀ slot ∈ p.manager.targets.get? id, ∀ issued ∈ p.leases, issued.isOn id →
    issued.lease.state = slot.state
  room : (p.outstandingOn id : Int) ≤ k

namespace Limited

variable {id : String} {k : Int} {p : Pool}

theorem apply {pool : UpstreamPoolConfig} {legacy : UpstreamConfig} (hp : Limited id k p)
    (hkeeps : Keeps id k pool legacy) (hcond : Undisturbed id p (.apply pool legacy)) :
    Limited id k (p.next (.apply pool legacy)) := by
  obtain ⟨made, hstaged, hsame, hmade⟩ := stage_spec hp.sound id pool legacy
  obtain ⟨hheap, hsize, htargets⟩ := apply_cases p.manager pool legacy
  refine ⟨hp.sound.apply, ?_, ?_, fun slot hslot issued hin hon => ?_, hp.room⟩
  · have := stage_limitIs hkeeps hp.limit
    simp only [LimitIs, next, hheap, hsize] at this ⊢
    exact this
  · simp only [next]
    rcases htargets with ⟨err, -, htargets⟩ | ⟨t, ht, htargets⟩
    · rw [htargets, hstaged.targets]
      exact hp.slot
    · rw [htargets]
      exact (stage_ok ht).2 id (.inr hkeeps.1)
  · simp only [next] at hslot hin
    rcases htargets with ⟨err, -, htargets⟩ | ⟨t, ht, htargets⟩
    · rw [htargets, hstaged.targets] at hslot
      exact hp.current slot hslot issued hin hon
    · rw [htargets] at hslot
      obtain ⟨old, hold⟩ := Option.isSome_iff_exists.1 hp.slot
      rcases hcond with hnone | ⟨target, htarget, hinvalid⟩ | hcond
      · exact absurd hon (by simpa using List.countP_eq_zero.1 hnone issued hin)
      · have := (stage_ok ht).1 target htarget
        exact absurd hinvalid (by simp [this])
      · have heq := hsame hcond old hold slot (hmade t ht ▸ Table.mem_of_get? hslot)
          (Table.key_of_get? hslot)
        rw [heq]
        exact hp.current old hold issued hin hon

end Limited

/-! ## Calls -/

theorem Sound.alike {p : Pool} {m : Manager} (hp : p.Sound) (h : p.manager.Alike m) :
    (Pool.mk m p.leases).Sound := by
  refine ⟨fun slot hslot => ?_, fun issued hin hout => ?_, fun ref => ?_⟩
  · simp only [h.targets] at hslot
    simp only [h.size, h.cfg]
    exact hp.slots slot hslot
  · simp only [h.size, h.cfg]
    exact hp.leases issued hin hout
  · simp only [h.active]
    exact hp.active ref

theorem outstanding_take (p : Pool) (ref r : Nat) :
    (take p.leases p.manager ref).outstanding r = p.outstanding r + if r = ref then 1 else 0 := by
  by_cases hr : r = ref
  · simp [take, outstanding, Issued.holds, hr]
  · have hne : ref ≠ r := fun h => hr h.symm
    simp [take, outstanding, Issued.holds, hr, hne]

theorem put_takeLease (m : Manager) (ref r : Nat) :
    ((m.put ref (m.heap ref).takeLease).heap r).cfg = (m.heap r).cfg ∧
      ((m.put ref (m.heap ref).takeLease).heap r).active =
        (m.heap r).active + if r = ref then 1 else 0 := by
  by_cases hr : r = ref
  · subst hr
    simp [TargetState.takeLease]
  · rw [Manager.put_heap_of_ne _ _ hr]
    simp [hr]

theorem Sound.take {p : Pool} {selection : SelectionContext} {ref : Nat} (hp : p.Sound)
    (helig : p.manager.Eligible selection ref) : (Pool.take p.leases p.manager ref).Sound := by
  obtain ⟨slot, hslot, rfl⟩ := helig.slot
  refine ⟨fun other hother => ?_, fun issued hin hout => ?_, fun r => ?_⟩
  · simp only [Pool.take, (put_takeLease _ _ _).1]
    exact hp.slots other hother
  · simp only [Pool.take, (put_takeLease _ _ _).1]
    rcases List.mem_append.1 hin with hin | hin
    · exact hp.leases issued hin hout
    · obtain rfl := List.mem_singleton.1 hin
      exact ⟨(hp.slots slot hslot).1, rfl⟩
  · rw [outstanding_take]
    simp only [Pool.take, (put_takeLease _ _ _).2, hp.active r]

section Ends

variable {p : Pool} {op : Op} {lease : Nat} {issued : Issued} {state : TargetState}

theorem Ends.cfg_eq (h : p.Ends op lease issued state) (r : Nat) :
    ((p.step op).manager.heap r).cfg = (p.manager.heap r).cfg := by
  rw [h.step]
  by_cases hr : r = issued.lease.state
  · subst hr
    rw [Manager.put_heap_self]
    exact h.cfg
  · rw [Manager.put_heap_of_ne _ _ hr]

theorem Ends.mem (h : p.Ends op lease issued state) {other : Issued}
    (hin : other ∈ (p.step op).leases) (hout : other.lease.done = false) :
    other ∈ p.leases := by
  rw [h.step] at hin
  rcases List.mem_or_eq_of_mem_set hin with hin | rfl
  · exact hin
  · exact absurd hout (by simp [Issued.close])

theorem Sound.ends (hp : p.Sound) (h : p.Ends op lease issued state) : (p.step op).Sound := by
  have hrest : (p.step op).manager.targets = p.manager.targets ∧
      (p.step op).manager.size = p.manager.size := by
    rw [h.step]
    exact ⟨rfl, rfl⟩
  refine ⟨fun slot hslot => ?_, fun other hin hout => ?_, fun r => ?_⟩
  · rw [hrest.1] at hslot
    rw [hrest.2, h.cfg_eq]
    exact hp.slots slot hslot
  · rw [hrest.2, h.cfg_eq]
    exact hp.leases other (h.mem hin hout) hout
  · have hclose := countP_close h.found (Issued.holds_close r issued)
    have hactive := hp.active r
    rw [h.step]
    simp only [outstanding] at hactive ⊢
    by_cases hr : r = issued.lease.state
    · subst hr
      rw [Manager.put_heap_self, h.active, hactive]
      simp only [Issued.holds, h.out, Bool.not_false, beq_self_eq_true, Bool.and_self,
        if_true] at hclose
      omega
    · have hne : issued.lease.state ≠ r := fun heq => hr heq.symm
      rw [Manager.put_heap_of_ne _ _ hr, hactive, ← hclose]
      simp [Issued.holds, hne]

end Ends

/-- `Active` never counts more than the leases out on the target. -/
theorem Sound.activeOf_le {p : Pool} (hp : p.Sound) (id : String) :
    p.activeOf id ≤ p.outstandingOn id := by
  simp only [activeOf]
  split
  · omega
  · rename_i slot hslot
    obtain ⟨-, hname⟩ := hp.slots slot (Table.mem_of_get? hslot)
    have hid : slot.id = id := Table.key_of_get? hslot
    rw [hp.active]
    refine List.countP_mono_left fun issued hin hholds => ?_
    simp only [Issued.holds, Issued.isOn, Bool.and_eq_true, Bool.not_eq_true',
      beq_iff_eq] at hholds ⊢
    have htarget := (hp.leases issued hin hholds.1).2
    rw [hholds.2, hname, hid] at htarget
    exact ⟨hholds.1, htarget.symm⟩

namespace Limited

variable {id : String} {k : Int} {p : Pool}

/-- The leases out on the target are on the state under its name. -/
theorem outstandingOn_le (hp : Limited id k p) {slot : Slot}
    (hslot : p.manager.targets.get? id = some slot) :
    p.outstandingOn id ≤ (p.manager.heap slot.state).active := by
  rw [hp.sound.active]
  refine List.countP_mono_left fun issued hin hon => ?_
  have hstate := hp.current slot hslot issued hin hon
  simp only [Issued.isOn, Bool.and_eq_true] at hon
  simp [Issued.holds, hon.1, hstate]

theorem alike {m : Manager} (hp : Limited id k p) (h : p.manager.Alike m) :
    Limited id k ⟨m, p.leases⟩ := by
  refine ⟨hp.sound.alike h, fun ref href hid => ?_, ?_, fun slot hslot => ?_, hp.room⟩
  · rw [h.size] at href
    rw [h.cfg] at hid ⊢
    exact hp.limit ref href hid
  · simp only [h.targets]
    exact hp.slot
  · simp only [h.targets] at hslot
    exact hp.current slot hslot

theorem take {selection : SelectionContext} {ref : Nat} (hk : 0 < k) (hp : Limited id k p)
    (helig : p.manager.Eligible selection ref) (hroom : p.manager.hasRoom ref) :
    Limited id k (Pool.take p.leases p.manager ref) := by
  obtain ⟨slot, hslot, rfl⟩ := helig.slot
  obtain ⟨hlt, hname⟩ := hp.sound.slots slot hslot
  have hget : p.manager.targets.get? slot.id = some slot := Table.get?_of_mem hslot
  refine ⟨hp.sound.take helig, fun r hr hid => ?_, hp.slot, fun other hother issued hin hon => ?_,
    ?_⟩
  · simp only [Pool.take, (put_takeLease _ _ _).1] at hid ⊢
    exact hp.limit r hr hid
  · rcases List.mem_append.1 hin with hin | hin
    · exact hp.current other hother issued hin hon
    · obtain rfl := List.mem_singleton.1 hin
      have hid : slot.id = id := by
        simp only [Issued.isOn, Bool.and_eq_true, beq_iff_eq] at hon
        exact hname.symm.trans hon.2
      rw [← hid] at hother
      exact congrArg Slot.state (Option.some.inj (hget.symm.trans hother))
  · have hbefore := hp.room
    simp only [Pool.take, outstandingOn, List.countP_append, List.countP_singleton] at hbefore ⊢
    by_cases hid : (p.manager.heap slot.state).cfg.id = id
    · -- there is room on the state, and every lease of the target is on it
      have hmax := hp.limit slot.state hlt hid
      have hcount := hp.outstandingOn_le (hid ▸ hname ▸ hget)
      simp only [Manager.hasRoom, hmax, decide_eq_true_eq] at hroom
      simp only [outstandingOn] at hcount
      simp only [Issued.isOn, hid, Bool.not_false, beq_self_eq_true, Bool.and_self, if_true]
      push_cast
      omega
    · simpa [Issued.isOn, hid] using hbefore

theorem ends {op : Op} {lease : Nat} {issued : Issued} {state : TargetState}
    (hp : Limited id k p) (h : p.Ends op lease issued state) : Limited id k (p.step op) := by
  have hrest : (p.step op).manager.targets = p.manager.targets ∧
      (p.step op).manager.size = p.manager.size := by
    rw [h.step]
    exact ⟨rfl, rfl⟩
  refine ⟨hp.sound.ends h, fun ref href hid => ?_, ?_, fun slot hslot other hin hon => ?_, ?_⟩
  · rw [hrest.2] at href
    rw [h.cfg_eq] at hid ⊢
    exact hp.limit ref href hid
  · rw [hrest.1]
    exact hp.slot
  · have hout : other.lease.done = false := by
      simp only [Issued.isOn, Bool.and_eq_true, Bool.not_eq_true'] at hon
      exact hon.1
    rw [hrest.1] at hslot
    exact hp.current slot hslot other (h.mem hin hout) hon
  · have hclose := countP_close h.found (Issued.isOn_close id issued)
    have hbefore := hp.room
    rw [h.step]
    simp only [outstandingOn] at hbefore ⊢
    omega

theorem step (hk : 0 < k) (hp : Limited id k p) (op : Op) : Limited id k (p.step op) := by
  rcases p.step_cases op with ⟨m, halike, -, heq⟩ |
    ⟨m, selection, ref, halike, -, helig, hroom, heq⟩ | ⟨lease, issued, state, hends⟩
  · rw [heq]
    exact hp.alike halike
  · rw [heq]
    exact (hp.alike halike).take hk helig hroom
  · exact hp.ends hends

theorem next (hk : 0 < k) (hp : Limited id k p) {input : Input}
    (hkeeps : KeepsLimit id k input) (hcond : Undisturbed id p input) :
    Limited id k (p.next input) := by
  match input with
  | .call op => exact hp.step hk op
  | .apply pool legacy => exact hp.apply hkeeps hcond

end Limited

/-! ## Runs -/

theorem limited_start {id : String} {k : Int} {pool : UpstreamPoolConfig}
    {legacy : UpstreamConfig} {m : Manager} (h : Manager.new pool legacy = .ok m) (hk : 0 < k)
    (hkeeps : Keeps id k pool legacy) : Limited id k (start m) := by
  have hblank : (start (Manager.blank legacy)).Sound :=
    ⟨by simp [start, Manager.blank], by simp [start], by simp [start, Manager.blank, outstanding]⟩
  have hsound : ((start (Manager.blank legacy)).next (.apply pool legacy)).Sound := hblank.apply
  have hlimit := stage_limitIs hkeeps (show LimitIs id k (Manager.blank legacy) from
    fun ref href => absurd href (Nat.not_lt_zero ref))
  obtain ⟨hheap, hsize, htargets⟩ := apply_cases (Manager.blank legacy) pool legacy
  simp only [Manager.new] at h
  cases happly : ((Manager.blank legacy).apply pool legacy).2 with
  | error err =>
      rw [happly] at h
      exact absurd h (by simp [Except.map])
  | ok u =>
      rw [happly] at h
      simp only [Except.map, Except.ok.injEq] at h
      subst h
      refine ⟨hsound, ?_, ?_, by simp [start], by simp [start, outstandingOn]; omega⟩
      · simp only [start, LimitIs, hheap, hsize]
        exact hlimit
      · rcases htargets with ⟨err, herr, -⟩ | ⟨made, hmade, htargets⟩
        · simp only [Manager.apply, herr] at happly
          exact absurd happly (by simp)
        · simp only [start, htargets]
          exact (stage_ok hmade).2 id (.inr hkeeps.1)

/-- **The limit across reloads.** In a run whose reloads keep the target and
its limit, and leave its address and transport alone while leases of it are
out, no more than `k` leases of it are ever out, and `Active` is zero again
once they have all finished. -/
theorem outstandingOn_le_maxActive {id : String} {k : Int} {pool : UpstreamPoolConfig}
    {legacy : UpstreamConfig} {m : Manager} {inputs : List Input}
    (h : Manager.new pool legacy = .ok m) (hk : 0 < k) (hkeeps : Keeps id k pool legacy)
    (hinputs : ∀ input ∈ inputs, KeepsLimit id k input)
    (hcond : Along next (Undisturbed id) (start m) inputs) :
    (((start m).runInputs inputs).outstandingOn id : Int) ≤ k ∧
      (((start m).runInputs inputs).outstandingOn id = 0 →
        ((start m).runInputs inputs).activeOf id = 0) := by
  have hrun : ∀ (p : Pool), Limited id k p → Along next (Undisturbed id) p inputs →
      Limited id k (p.runInputs inputs) := by
    clear hcond
    induction inputs with
    | nil => exact fun p hp _ => hp
    | cons input inputs ih =>
        intro p hp hc
        exact ih (fun i hi => hinputs i (List.mem_cons_of_mem _ hi)) (p.next input)
          (hp.next hk (hinputs input (by simp)) hc.1) hc.2
  have hend := hrun (start m) (limited_start h hk hkeeps) hcond
  have hle := hend.sound.activeOf_le id
  exact ⟨hend.room, fun hnone => by omega⟩

/-- One target that takes one request at a time. -/
def onePool : UpstreamPoolConfig where
  strategy := "weighted-priority"
  targets := [{ id := "a", baseURL := "http://a", weight := 1, maxActive := 1 }]

def oneManager (legacy : UpstreamConfig) : Manager :=
  ((Manager.blank legacy).apply onePool legacy).1

theorem onePool_keeps (legacy : UpstreamConfig) : Keeps "a" 1 onePool legacy := by
  simp [Keeps, Manager.targetsOf, onePool]

/-- A lease, a reload under the given transport, and another request. -/
def acrossReload (legacy : UpstreamConfig) : List Input :=
  [.call (.select 1 {} none none), .apply onePool legacy, .call (.select 2 {} none none)]

def shortTimeout : UpstreamConfig := ⟨"http://a", 1, 1, 0⟩

def longTimeout : UpstreamConfig := ⟨"http://a", 1, 2, 0⟩

theorem acrossReload_keeps (legacy : UpstreamConfig) :
    ∀ input ∈ acrossReload legacy, KeepsLimit "a" 1 input := by
  simp [acrossReload, KeepsLimit, onePool_keeps]

/-- With the transport as it was, the second request is turned away. -/
theorem outstandingOn_le_maxActive_sameTransport :
    (((start (oneManager shortTimeout)).runInputs (acrossReload shortTimeout)).outstandingOn "a" :
        Int) ≤ 1 ∧
      ((start (oneManager shortTimeout)).runInputs (acrossReload shortTimeout)).activeOf "a" = 1 :=
  ⟨(outstandingOn_le_maxActive (show Manager.new onePool shortTimeout = .ok _ from rfl)
      (by decide) (onePool_keeps _) (acrossReload_keeps _)
      ⟨trivial, .inr (.inr fun slot hslot target htarget _ => by
        obtain rfl : slot = ⟨"a", 0⟩ := by
          have hget : ((start (oneManager shortTimeout)).next
              (.call (.select 1 {} none none))).manager.targets.get? "a" = some ⟨"a", 0⟩ := by
            decide +kernel
          exact (Option.some.inj (hget.symm.trans hslot)).symm
        obtain rfl : target = { id := "a", baseURL := "http://a", weight := 1, maxActive := 1 } := by
          simpa [Manager.targetsOf, onePool] using htarget
        decide +kernel), trivial, trivial⟩).1,
    by decide +kernel⟩

/-- With a longer response timeout the target has a new state, and two requests
at once. -/
theorem not_outstandingOn_le_maxActive :
    Manager.new onePool shortTimeout = .ok (oneManager shortTimeout) ∧
      Keeps "a" 1 onePool shortTimeout ∧
      (∀ input ∈ acrossReload longTimeout, KeepsLimit "a" 1 input) ∧
      ((start (oneManager shortTimeout)).runInputs (acrossReload longTimeout)).outstandingOn "a" =
        2 :=
  ⟨rfl, onePool_keeps _, acrossReload_keeps _, by decide +kernel⟩

end Pool

end RelayLifeline.Upstream
