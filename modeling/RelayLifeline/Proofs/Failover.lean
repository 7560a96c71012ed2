import RelayLifeline.Proofs.Reload
import RelayLifeline.Proxy.Effects

/-!
# Where a written request may go next

The handler remembers of its attempts only the last target, its domain, and
whether any attempt was written. That is enough: once something was written,
the pool selects nothing but what the safety filters let through, so the last
target is one the filters allow, and they allow the same ones again. An attempt
that finds no target hands on the previous one.
-/

namespace RelayLifeline.Upstream

open Lib

/-! ## What a pool serves -/

/-- Whatever a name may lead to has a configuration that meets `Q`. -/
structure Manager.Serves (Q : Target → Prop) (m : Manager) : Prop where
  slots : ∀ slot ∈ m.targets.items, slot.state < m.size
  states : ∀ ref < m.size, Q (m.heap ref).cfg

namespace Manager.Serves

variable {Q : Target → Prop} {m m' : Manager}

theorem alike (hm : m.Serves Q) (h : m.Alike m') : m'.Serves Q where
  slots slot hslot := h.size ▸ hm.slots slot (h.targets ▸ hslot)
  states ref href := h.cfg ref ▸ hm.states ref (h.size ▸ href)

/-- Rewriting a state is fine where its configuration is. -/
theorem put (hm : m.Serves Q) (ref : Nat) {state : TargetState} (h : ref < m.size → Q state.cfg) :
    (m.put ref state).Serves Q := by
  refine ⟨hm.slots, fun r hr => ?_⟩
  by_cases heq : r = ref
  · subst heq
    rw [Manager.put_heap_self]
    exact h hr
  · rw [Manager.put_heap_of_ne _ _ heq]
    exact hm.states r hr

theorem eligible {selection : SelectionContext} {ref : Nat} (hm : m.Serves Q)
    (h : m.Eligible selection ref) : Q (m.heap ref).cfg := by
  obtain ⟨slot, hslot, rfl⟩ := h.slot
  exact hm.states slot.state (hm.slots slot hslot)

/-- A reload serves what the old configuration and the new one allow. -/
theorem apply {pool : UpstreamPoolConfig} {legacy : UpstreamConfig} (hm : m.Serves Q)
    (h : ∀ target ∈ targetsOf pool legacy, target.id ≠ "" → Q (targetConfig target)) :
    (m.apply pool legacy).1.Serves Q := by
  obtain ⟨made, ⟨hstaged, hnext⟩, hmade⟩ := Manager.stage_invariant
    (fun m next => m.Serves Q ∧ ∀ slot ∈ next.items, slot.state < m.size)
    legacy (targetsOf pool legacy)
    (fun m next target slot ht hid hslot hm => by
      have hlt := hm.1.slots slot (Table.mem_of_get? (Pool.reused_spec hslot).1)
      refine ⟨hm.1.put _ fun _ => h target ht hid, fun other hother => ?_⟩
      rcases Table.mem_set.1 hother with rfl | ⟨hother, -⟩
      · exact hlt
      · exact hm.2 other hother)
    (fun m next target ht hid _ hm => by
      refine ⟨⟨fun slot hslot => Nat.lt_succ_of_lt (hm.1.slots slot hslot), fun ref href => ?_⟩,
        fun other hother => ?_⟩
      · by_cases hr : ref = m.size
        · subst hr
          simp only [Manager.put, Function.update_self, (freshState_counts _ _ _).1]
          exact h target ht hid
        · simp only [Manager.put, ne_eq, hr, not_false_eq_true, Function.update_of_ne]
          exact hm.1.states ref (Nat.lt_of_le_of_ne (Nat.le_of_lt_succ href) hr)
      · rcases Table.mem_set.1 hother with rfl | ⟨hother, -⟩
        · exact Nat.lt_succ_self _
        · exact Nat.lt_succ_of_lt (hm.2 other hother))
    m ∅ ⟨hm, by simp⟩
  obtain ⟨hheap, hsize, htargets⟩ := Pool.apply_cases m pool legacy
  refine ⟨fun slot hslot => ?_, fun ref href => ?_⟩
  · rw [hsize]
    rcases htargets with ⟨err, -, htargets⟩ | ⟨t, ht, htargets⟩
    · exact hstaged.slots slot (htargets ▸ hslot)
    · rw [htargets, hmade t ht] at hslot
      exact hnext slot hslot
  · rw [hheap]
    exact hstaged.states ref (hsize ▸ href)

theorem new {pool : UpstreamPoolConfig} {legacy : UpstreamConfig}
    (hnew : Manager.new pool legacy = .ok m)
    (h : ∀ target ∈ targetsOf pool legacy, target.id ≠ "" → Q (targetConfig target)) :
    m.Serves Q := by
  have hblank : (Manager.blank legacy).Serves Q :=
    ⟨by simp [Manager.blank], fun ref href => absurd href (Nat.not_lt_zero ref)⟩
  simp only [Manager.new] at hnew
  cases happly : ((Manager.blank legacy).apply pool legacy).2 with
  | error err => simp [happly, Except.map] at hnew
  | ok u =>
      simp only [happly, Except.map, Except.ok.injEq] at hnew
      exact hnew ▸ hblank.apply h

theorem step {p : Pool} (hm : p.manager.Serves Q) (op : Op) : (p.step op).manager.Serves Q := by
  rcases p.step_cases op with ⟨m, halike, -, heq⟩ | ⟨m, _, ref, halike, -, helig, -, heq⟩ |
    ⟨lease, issued, state, hends⟩
  · rw [heq]
    exact hm.alike halike
  · rw [heq]
    have hm := hm.alike halike
    exact hm.put ref fun _ => hm.eligible helig
  · rw [hends.step]
    exact hm.put _ fun hlt => hends.cfg ▸ hm.states _ hlt

end Manager.Serves

/-! ## The target of a lease -/

/-- A lease keeps its place and its target, whatever happens to the pool. -/
theorem Pool.lease_step (p : Pool) (op : Op) {lease : Nat} {issued : Issued}
    (h : p.leases[lease]? = some issued) :
    ∃ issued', (p.step op).leases[lease]? = some issued' ∧
      issued'.lease.target = issued.lease.target := by
  rcases p.step_cases op with ⟨m, -, -, heq⟩ | ⟨m, _, ref, -, -, -, -, heq⟩ |
    ⟨closed, other, state, hends⟩
  · rw [heq]
    exact ⟨issued, h, rfl⟩
  · rw [heq]
    have hlt := (List.getElem?_eq_some_iff.1 h).1
    exact ⟨issued, (List.getElem?_append_left hlt).trans h, rfl⟩
  · rw [hends.step]
    by_cases hsame : closed = lease
    · subst hsame
      obtain rfl := Option.some.inj (hends.found.symm.trans h)
      exact ⟨other.close, by simp [List.getElem?_set_self', h], rfl⟩
    · exact ⟨issued, by simpa [List.getElem?_set_ne hsame] using h, rfl⟩

/-- A selection that succeeds hands out the last lease, on an eligible target. -/
theorem Pool.issue_ok {m : Manager} {now : Int} {selection : SelectionContext}
    {ctx waited : Option ContextError} {lease : Lease} (leases : List Issued)
    (h : (m.select now selection ctx waited).2 = .ok lease) :
    ∃ issued, (Pool.issue (m.select now selection ctx waited) leases).leases[leases.length]? =
        some issued ∧
      ∃ w ref, m.Alike w ∧ w.Eligible selection ref ∧ issued.lease.target = (w.heap ref).cfg := by
  rcases m.select_cases now selection ctx waited with ⟨-, err, herr⟩ |
    ⟨w, ref, hwarm, helig, -, hsel⟩
  · rw [h] at herr
    exact absurd herr (by simp)
  · rw [hsel]
    exact ⟨⟨⟨ref, (w.heap ref).cfg, false⟩, _⟩, List.getElem?_concat_length, w, ref, hwarm.alike,
      helig, rfl⟩

/-- Every target of the pool, in its manager or on a lease, meets `Q`. -/
structure Pool.Serves (Q : Target → Prop) (p : Pool) : Prop where
  manager : p.manager.Serves Q
  leases : ∀ issued ∈ p.leases, Q issued.lease.target

theorem Pool.Serves.step {Q : Target → Prop} {p : Pool} (hp : p.Serves Q) (op : Op) :
    (p.step op).Serves Q := by
  refine ⟨hp.manager.step op, ?_⟩
  rcases p.step_cases op with ⟨m, -, -, heq⟩ | ⟨m, selection, ref, halike, -, helig, -, heq⟩ |
    ⟨closed, other, state, hends⟩
  · rw [heq]
    exact hp.leases
  · rw [heq]
    intro issued hin
    rcases List.mem_append.1 hin with hin | hin
    · exact hp.leases issued hin
    · rw [List.mem_singleton.1 hin]
      exact (hp.manager.alike halike).eligible helig
  · rw [hends.step]
    intro issued hin
    rcases List.mem_or_eq_of_mem_set hin with hin | rfl
    · exact hp.leases issued hin
    · exact hp.leases other (List.mem_of_getElem? hends.found)

end RelayLifeline.Upstream

namespace RelayLifeline.Proxy

open Lib Upstream

/-! ## What the filters go by -/

/-- The two things a filter compares: the target itself, where the request has
no idempotency key, and its domain. -/
inductive Mark where
  | byTarget
  | byDomain

namespace Mark

def of : Mark → Target → String
  | .byTarget, target => target.id
  | .byDomain, target => target.idempotencyDomain

/-- The mark of the previous target, as the handler remembers it. -/
def previous : Mark → Route → String
  | .byTarget, route => route.previousTargetID
  | .byDomain, route => route.previousTargetDomain

/-- The filter on this mark is in force. -/
def Filters : Mark → World → Prop
  | .byTarget, w => w.request.idempotencyKey = ""
  | .byDomain, w => w.config.lifecycle.allowCrossDomainFailover = false ∧
      w.handler.cfg.lifecycle.allowCrossDomainFailover = false

/-- An event that does not lift the filter. -/
def Strict : Mark → Event → Prop
  | .byDomain, .configure cfg => cfg.lifecycle.allowCrossDomainFailover = false
  | _, _ => True

/-- Once a target with this mark was written to, an attempt ends at a target
with the same mark. -/
def Kept (mark : Mark) : Happening → Happening → Prop
  | .ended _ target result, .ended _ target' _ =>
      result.wroteRequest = true → mark.of target ≠ "" → mark.of target' = mark.of target
  | _, _ => True

variable {mark : Mark}

theorem Filters.of_eq {w w' : World} (h : mark.Filters w) (hrequest : w'.request = w.request)
    (hconfig : w'.config = w.config) (hcfg : w'.handler.cfg = w.handler.cfg) : mark.Filters w' := by
  cases mark with
  | byTarget => exact (congrArg Request.idempotencyKey hrequest).trans h
  | byDomain => exact ⟨hconfig ▸ h.1, hcfg ▸ h.2⟩

theorem kept_of_ne {x y : Happening} (h : ∀ n target result, y ≠ .ended n target result) :
    mark.Kept x y := by
  cases y with
  | ended n target result => exact absurd rfl (h n target result)
  | started n => cases x <;> trivial
  | unselected n => cases x <;> trivial
  | begun n => cases x <;> trivial
  | recorded n usage => cases x <;> trivial
  | uncertain n => cases x <;> trivial
  | compensated => cases x <;> trivial

theorem previous_unselected (err : SelectError) (route : Route) :
    mark.previous (route.after (unselectedResult err route.previousTargetID
      route.previousTargetDomain route.everWroteRequest)) = mark.previous route := by
  cases mark <;> rfl

theorem previous_exchange (route : Route) (target : Target) (exchange : Exchange) :
    mark.previous (route.after (runAttemptForTarget target exchange)) = mark.of target := by
  cases mark <;> rfl

/-- What the pool selects has the mark of the previous target, once a request
was written. -/
theorem of_eligible {w : World} {m : Manager} {ref : Nat} (hfilters : mark.Filters w)
    (h : m.Eligible w.selection ref) (hwrote : w.handler.route.everWroteRequest = true)
    (hknown : mark.previous w.handler.route ≠ "") :
    mark.of (m.heap ref).cfg = mark.previous w.handler.route := by
  cases mark with
  | byTarget => exact h.target hknown hwrote hfilters
  | byDomain => exact h.domain hknown hwrote hfilters.2

end Mark

/-- The points that carry no result for the route. -/
def Point.routed : Point → Bool
  | .settle _ | .judge _ => false
  | _ => true

theorem Point.routed_of_idle {point : Point} (h : point.attempting = false) :
    point.routed = true := by
  cases point <;> first | rfl | cases h

theorem Point.free_of_idle {point : Point} (h : point.attempting = false) : point.lease = none := by
  cases point <;> first | rfl | cases h

theorem Point.idle_of_exiting {point : Point} (h : point.exiting = true) :
    point.attempting = false := by
  cases point <;> first | rfl | cases h

namespace World

/-- The route as the next selection will read it, the result in hand counted
in. -/
def pendingRoute (w : World) : Route :=
  match w.handler.point with
  | .settle result | .judge result => w.handler.route.after result
  | _ => w.handler.route

theorem pendingRoute_routed {w : World} (h : w.handler.point.routed = true) :
    w.pendingRoute = w.handler.route := by
  unfold pendingRoute
  split
  · rename_i hpoint
    rw [hpoint] at h
    cases h
  · rename_i hpoint
    rw [hpoint] at h
    cases h
  · rfl

theorem pendingRoute_result {w : World} {result : AttemptResult}
    (h : w.handler.point = .settle result ∨ w.handler.point = .judge result) :
    w.pendingRoute = w.handler.route.after result := by
  unfold pendingRoute
  rcases h with h | h
  · rw [h]
  · rw [h]

/-- The log stays, or gets one happening that ends no attempt. -/
def KeepsEnds (w w' : World) : Prop :=
  w'.log = w.log ∨
    ∃ x, (∀ n target result, x ≠ .ended n target result) ∧ w'.log = w.log ++ [x]

/-- A target is one the written attempts allow. -/
def Allows (w : World) (mark : Mark) (target : Target) : Prop :=
  ∀ n written result, .ended n written result ∈ w.log → result.wroteRequest = true →
    mark.of written ≠ "" → mark.of target = mark.of written

/-- While the handler goes on, its route has the mark of everything it wrote to,
and so has the target it holds a lease on. All targets meet `Q`. -/
structure Pinned (Q : Target → Prop) (mark : Mark) (w : World) : Prop where
  serves : w.pool.Serves Q
  filters : mark.Filters w
  met : ∀ n target result, .ended n target result ∈ w.log → Q target
  log : w.log.Pairwise mark.Kept
  remembered : w.handler.point.exiting = false → ∀ n target result,
    .ended n target result ∈ w.log → result.wroteRequest = true → mark.of target ≠ "" →
      w.pendingRoute.everWroteRequest = true ∧ mark.previous w.pendingRoute = mark.of target
  lease : ∀ lease ∈ w.handler.point.lease, ∃ issued, w.pool.leases[lease]? = some issued ∧
    w.Allows mark issued.lease.target

variable {Q : Target → Prop} {mark : Mark} {w w' : World}

theorem pairwise_note (h : w.log.Pairwise mark.Kept) {x : Happening}
    (hx : ∀ y ∈ w.log, mark.Kept y x) : (w.log ++ [x]).Pairwise mark.Kept := by
  rw [List.pairwise_append]
  refine ⟨h, List.pairwise_singleton _ _, fun y hy z hz => ?_⟩
  rw [List.mem_singleton.1 hz]
  exact hx y hy

/-- A step that ends no attempt and holds no lease keeps the invariant, where it
keeps the route. -/
theorem Pinned.of_same (h : Pinned Q mark w) (hserves : w'.pool.Serves Q)
    (hfilters : mark.Filters w') (hlog : w.KeepsEnds w')
    (hroute : w'.handler.point.exiting = false →
      w.handler.point.exiting = false ∧ w'.pendingRoute = w.pendingRoute)
    (hlease : ∀ lease ∈ w'.handler.point.lease, ∃ issued, w'.pool.leases[lease]? = some issued ∧
      w.Allows mark issued.lease.target) :
    Pinned Q mark w' := by
  have hmem : ∀ n target result, .ended n target result ∈ w'.log →
      .ended n target result ∈ w.log := by
    intro n target result hin
    rcases hlog with hlog | ⟨x, hx, hlog⟩
    · exact hlog ▸ hin
    · rw [hlog, List.mem_append, List.mem_singleton] at hin
      exact hin.resolve_right fun heq => hx n target result heq.symm
  refine ⟨hserves, hfilters, fun n target result hin => h.met n target result
    (hmem n target result hin), ?_, fun hexit n target result hin hwrote hmark => ?_,
    fun lease hl => ?_⟩
  · rcases hlog with hlog | ⟨x, hx, hlog⟩
    · exact hlog ▸ h.log
    · rw [hlog]
      exact pairwise_note h.log fun y _ => Mark.kept_of_ne hx
  · obtain ⟨hgoing, hpending⟩ := hroute hexit
    rw [hpending]
    exact h.remembered hgoing n target result (hmem n target result hin) hwrote hmark
  · obtain ⟨issued, hget, hallows⟩ := hlease lease hl
    exact ⟨issued, hget, fun n target result hin => hallows n target result
      (hmem n target result hin)⟩

theorem Pinned.beside (h : Pinned Q mark w) (hbeside : w.Beside w')
    (hexit : w.handler.point.exiting = true → w'.handler.point.exiting = true) :
    Pinned Q mark w' := by
  refine h.of_same (hbeside.pool ▸ h.serves) ?_ (.inl hbeside.log) (fun hgoing => ⟨?_, ?_⟩) ?_
  · cases mark with
    | byTarget => exact (congrArg Request.idempotencyKey hbeside.request).trans h.filters
    | byDomain =>
        refine ⟨hbeside.config ▸ h.filters.1, ?_⟩
        rcases hbeside.cfg with hcfg | hcfg
        · exact hcfg ▸ h.filters.2
        · exact hcfg ▸ h.filters.1
  · by_contra hnot
    simp [hexit (by simpa using hnot)] at hgoing
  · rw [pendingRoute_routed (Point.routed_of_idle hbeside.idle'),
      pendingRoute_routed (Point.routed_of_idle hbeside.idle), hbeside.route]
  · simp [Point.free_of_idle hbeside.idle']

theorem Pinned.select (h : Pinned Q mark w) (a : Answer) (hpoint : w.handler.point = .select) :
    Pinned Q mark (w.select a) := by
  have hgoing : w.handler.point.exiting = false := by rw [hpoint]; rfl
  have hpending : w.pendingRoute = w.handler.route := pendingRoute_routed (by rw [hpoint]; rfl)
  simp only [World.select]
  split
  · rename_i err herr
    refine ⟨h.serves.step (.select a.now w.selection w.ctx a.waited), h.filters.of_eq rfl rfl rfl,
      fun n target result hin => h.met n target result (by simpa using hin),
      pairwise_note h.log fun y _ => Mark.kept_of_ne (by simp), ?_, by simp [Point.lease]⟩
    intro _ n target result hin hwrote hmark
    have hin : .ended n target result ∈ w.log := by simpa using hin
    obtain ⟨hever, hprevious⟩ := h.remembered hgoing n target result hin hwrote hmark
    rw [hpending] at hever hprevious
    rw [pendingRoute_result (.inl rfl)]
    refine ⟨by simp [Route.after, hever], ?_⟩
    exact (Mark.previous_unselected err w.handler.route).trans hprevious
  · rename_i lease hlease
    refine ⟨h.serves.step (.select a.now w.selection w.ctx a.waited), h.filters.of_eq rfl rfl rfl,
      h.met, h.log, ?_, ?_⟩
    · intro _ n target result hin hwrote hmark
      have := h.remembered hgoing n target result hin hwrote hmark
      rw [hpending] at this
      exact this
    · intro l hl
      obtain rfl : w.pool.leases.length = l := by simpa [Point.lease] using hl
      obtain ⟨issued, hget, m, ref, -, helig, htarget⟩ := Pool.issue_ok w.pool.leases hlease
      refine ⟨issued, hget, fun n target result hin hwrote hmark => ?_⟩
      obtain ⟨hever, hprevious⟩ := h.remembered hgoing n target result hin hwrote hmark
      rw [hpending] at hever hprevious
      rw [htarget, Mark.of_eligible h.filters helig hever (hprevious ▸ hmark), hprevious]

theorem Pinned.governance (h : Pinned Q mark w) (m : Governance.Manager) :
    Pinned Q mark { w with governance := m } :=
  ⟨h.serves, h.filters.of_eq rfl rfl rfl, h.met, h.log, h.remembered, h.lease⟩

/-- A happening that is not the end of an attempt. -/
theorem Pinned.note (h : Pinned Q mark w) {x : Happening}
    (hx : ∀ n target result, x ≠ .ended n target result) : Pinned Q mark (w.note x) :=
  h.of_same h.serves (h.filters.of_eq rfl rfl rfl) (.inr ⟨x, hx, rfl⟩) (fun hgoing => ⟨hgoing, rfl⟩) h.lease

/-- A point that leaves the route as it is and holds no other lease. -/
theorem Pinned.goto (h : Pinned Q mark w) {point : Point}
    (hexit : w.handler.point.exiting = true → point.exiting = true)
    (hroute : point.exiting = false → (w.goto point).pendingRoute = w.pendingRoute)
    (hlease : ∀ lease ∈ point.lease, w.handler.point.lease = some lease) :
    Pinned Q mark (w.goto point) := by
  refine h.of_same h.serves (h.filters.of_eq rfl rfl rfl) (.inl rfl) (fun hgoing => ⟨?_, hroute hgoing⟩)
    fun lease hl => h.lease lease (hlease lease hl)
  by_contra hnot
  simp only [World.goto] at hgoing
  simp [hexit (by simpa using hnot)] at hgoing

theorem Pinned.governed (h : Pinned Q mark w) {lease : Nat} (decision : Governance.Decision)
    (error : Option Governance.Error) (hl : w.handler.point.lease = some lease)
    (hgoing : w.handler.point.exiting = false) (hpending : w.pendingRoute = w.handler.route) :
    Pinned Q mark (w.governed lease decision error) := by
  have hto : ∀ point : Point, point = .exchange lease ∨ (∃ reason, point = .refused lease reason) →
      Pinned Q mark (w.goto point) := by
    intro point hcases
    refine h.goto (fun hexit => absurd hgoing (by simp [hexit])) (fun _ => ?_) fun l hin => ?_
    · rcases hcases with rfl | ⟨reason, rfl⟩ <;> exact hpending.symm
    · rcases hcases with rfl | ⟨reason, rfl⟩ <;> exact hl.trans hin
  simp only [World.governed]
  split
  · exact hto _ (.inl rfl)
  · split
    · exact hto _ (.inr ⟨_, rfl⟩)
    · exact hto _ (.inl rfl)

theorem Pinned.bindUpstream (h : Pinned Q mark w) (a : Answer) {lease : Nat}
    (hpoint : w.handler.point = .bindUpstream lease) : Pinned Q mark (w.bindUpstream a lease) := by
  have hl : w.handler.point.lease = some lease := by rw [hpoint]; rfl
  have hgoing : w.handler.point.exiting = false := by rw [hpoint]; rfl
  have hpending : w.pendingRoute = w.handler.route := pendingRoute_routed (by rw [hpoint]; rfl)
  have hbegun : ∀ n target result, Happening.begun w.handler.attempt ≠ .ended n target result := by
    simp
  have hgo {w : World} {point : Point} (h : Pinned Q mark w) (hw : w.handler.point = .bindUpstream lease)
      (hcases : point = .exchange lease ∨ point = .beginAttempt lease) :
      Pinned Q mark (w.goto point) := by
    refine h.goto (fun hexit => by simp [hw, Point.exiting] at hexit) (fun _ => ?_) fun l hin => ?_
    · rw [pendingRoute_routed (w := w) (by rw [hw]; rfl)]
      rcases hcases with rfl | rfl <;> rfl
    · rcases hcases with rfl | rfl <;> exact (by rw [hw]; rfl : _ = some lease).trans hin
  simp only [World.bindUpstream]
  split
  · exact hgo h hpoint (.inl rfl)
  · rename_i id _
    split
    · generalize w.governance.bindUpstreamWithDecision a.clock id (w.target lease).id = bound
      exact (h.governance _).governed _ _ hl hgoing hpending
    · have h := h.note hbegun
      have hbegunPoint : (w.note (.begun w.handler.attempt)).handler.point = .bindUpstream lease :=
        hpoint
      generalize w.note (.begun w.handler.attempt) = begun at h hbegunPoint ⊢
      split
      · exact hgo h hbegunPoint (.inr rfl)
      · split
        · exact hgo (h.governance _) hbegunPoint (.inr rfl)
        · exact (h.governance _).governed _ _ (by rw [hbegunPoint]; rfl) (by rw [hbegunPoint]; rfl)
            (pendingRoute_routed (by rw [hbegunPoint]; rfl))

theorem Pinned.beginAttempt (h : Pinned Q mark w) (a : Answer) {lease : Nat}
    (hpoint : w.handler.point = .beginAttempt lease) : Pinned Q mark (w.beginAttempt a lease) := by
  have hl : w.handler.point.lease = some lease := by rw [hpoint]; rfl
  have hgoing : w.handler.point.exiting = false := by rw [hpoint]; rfl
  have hpending : w.pendingRoute = w.handler.route := pendingRoute_routed (by rw [hpoint]; rfl)
  simp only [World.beginAttempt]
  split
  · refine h.goto (fun hexit => absurd hgoing (by simp [hexit])) (fun _ => hpending.symm) fun l hin => ?_
    exact hl.trans hin
  · rename_i id _
    generalize w.governance.begin a.clock id (trimSpace (attemptName w.handler.attempt)) = begun
    exact (h.governance _).governed _ _ hl hgoing hpending

/-- An attempt that ends at its target. -/
theorem Pinned.exchange (h : Pinned Q mark w) (a : Answer) {lease : Nat}
    (hpoint : w.handler.point = .exchange lease) : Pinned Q mark (w.exchange a lease) := by
  have hgoing : w.handler.point.exiting = false := by rw [hpoint]; rfl
  have hpending : w.pendingRoute = w.handler.route := pendingRoute_routed (by rw [hpoint]; rfl)
  obtain ⟨issued, hget, hallows⟩ := h.lease lease (by rw [hpoint]; rfl)
  have htarget : w.target lease = issued.lease.target := by simp [World.target, hget]
  rw [← htarget] at hallows
  refine ⟨h.serves.step (.complete lease a.now _), h.filters.of_eq rfl rfl rfl, ?_,
    pairwise_note h.log fun y hy => ?_, ?_, by simp [World.exchange, Point.lease]⟩
  · intro n target result hin
    have hin : .ended n target result ∈ w.log ∨ n = w.handler.attempt ∧ target = w.target lease ∧
        result = runAttemptForTarget (w.target lease) a.exchange := by
      simpa [World.exchange] using hin
    rcases hin with hin | ⟨-, rfl, -⟩
    · exact h.met n target result hin
    · exact htarget ▸ h.serves.leases issued (List.mem_of_getElem? hget)
  · cases y with
    | ended n target result => exact fun hwrote hmark => hallows n target result hy hwrote hmark
    | _ => trivial
  · intro _ n target result hin hwrote hmark
    have hin : .ended n target result ∈ w.log ∨ n = w.handler.attempt ∧ target = w.target lease ∧
        result = runAttemptForTarget (w.target lease) a.exchange := by
      simpa [World.exchange] using hin
    rw [pendingRoute_result (.inl rfl), Mark.previous_exchange]
    rcases hin with hin | ⟨-, rfl, rfl⟩
    · obtain ⟨hever, -⟩ := h.remembered hgoing n target result hin hwrote hmark
      rw [hpending] at hever
      exact ⟨by simp [World.exchange, Route.after, hever], hallows n target result hin hwrote hmark⟩
    · exact ⟨by simp [Route.after, hwrote], rfl⟩

/-- Without a lease there is only the route to keep. -/
theorem Pinned.of_free (h : Pinned Q mark w) (hgoing : w.handler.point.exiting = false)
    (hpending : w'.pendingRoute = w.pendingRoute) (hserves : w'.pool.Serves Q)
    (hfilters : mark.Filters w') (hlog : w.KeepsEnds w')
    (hfree : w'.handler.point.lease = none) : Pinned Q mark w' :=
  h.of_same hserves hfilters hlog (fun _ => ⟨hgoing, hpending⟩) (by simp [hfree])

theorem Pinned.leave (h : Pinned Q mark w) (hserves : w'.pool.Serves Q)
    (hfilters : mark.Filters w') (hlog : w.KeepsEnds w') (hexit : w'.handler.point.exiting = true) :
    Pinned Q mark w' :=
  h.of_same hserves hfilters hlog (fun hgoing => absurd hexit (by simp [hgoing]))
    (by simp [Point.free_of_idle (Point.idle_of_exiting hexit)])

theorem Pinned.settle (h : Pinned Q mark w) (a : Answer) {result : AttemptResult}
    (hpoint : w.handler.point = .settle result) : Pinned Q mark (w.settle a result) := by
  have hgoing : w.handler.point.exiting = false := by rw [hpoint]; rfl
  have hpending : w.pendingRoute = w.handler.route.after result := pendingRoute_result (.inl hpoint)
  simp only [World.settle]
  split
  · exact h.of_free hgoing hpending.symm h.serves (h.filters.of_eq rfl rfl rfl) (.inl rfl) rfl
  · split
    · rename_i id _ _
      generalize w.governance.record a.clock id (attemptName w.handler.attempt) result.usage =
        recorded
      split
      · exact h.leave h.serves (h.filters.of_eq rfl rfl rfl) (.inr ⟨_, by simp, rfl⟩) rfl
      · exact h.of_free hgoing hpending.symm h.serves (h.filters.of_eq rfl rfl rfl)
          (.inr ⟨_, by simp, rfl⟩) rfl
    · exact h.of_free hgoing hpending.symm h.serves (h.filters.of_eq rfl rfl rfl) (.inl rfl) rfl

/-- The route takes the result in. -/
theorem Pinned.judge (h : Pinned Q mark w) {result : AttemptResult}
    (hpoint : w.handler.point = .judge result) : Pinned Q mark (w.judge result) := by
  have hgoing : w.handler.point.exiting = false := by rw [hpoint]; rfl
  have hpending : w.pendingRoute = w.handler.route.after result := pendingRoute_result (.inr hpoint)
  simp only [World.judge]
  split
  · exact h.leave h.serves (h.filters.of_eq rfl rfl rfl) (.inl rfl) rfl
  · split
    · exact h.of_free hgoing hpending.symm h.serves (h.filters.of_eq rfl rfl rfl) (.inl rfl) rfl
    · exact h.of_free hgoing hpending.symm h.serves (h.filters.of_eq rfl rfl rfl) (.inl rfl) rfl

theorem Pinned.releaseReservation (h : Pinned Q mark w) (a : Answer) {result : AttemptResult}
    (hpoint : w.handler.point = .releaseReservation result) :
    Pinned Q mark (w.releaseReservation a result) := by
  have hgoing : w.handler.point.exiting = false := by rw [hpoint]; rfl
  have hpending : w.pendingRoute = w.handler.route := pendingRoute_routed (by rw [hpoint]; rfl)
  simp only [World.releaseReservation]
  split
  · exact h.of_free hgoing hpending.symm h.serves (h.filters.of_eq rfl rfl rfl) (.inl rfl) rfl
  · split
    · exact h.leave h.serves (h.filters.of_eq rfl rfl rfl) (.inl rfl) rfl
    · exact h.of_free hgoing hpending.symm h.serves (h.filters.of_eq rfl rfl rfl) (.inl rfl) rfl

theorem Pinned.classify (h : Pinned Q mark w) (a : Answer) {result : AttemptResult}
    (hpoint : w.handler.point = .classify result) : Pinned Q mark (w.classify a result) := by
  have hgoing : w.handler.point.exiting = false := by rw [hpoint]; rfl
  have hpending : w.pendingRoute = w.handler.route := pendingRoute_routed (by rw [hpoint]; rfl)
  simp only [World.classify]
  split
  · exact h.of_free hgoing hpending.symm h.serves (h.filters.of_eq rfl rfl rfl) (.inl rfl) rfl
  · split
    · exact h.of_free hgoing hpending.symm h.serves (h.filters.of_eq rfl rfl rfl)
        (.inr ⟨_, by simp, rfl⟩) rfl
    · exact h.of_free hgoing hpending.symm h.serves (h.filters.of_eq rfl rfl rfl) (.inl rfl) rfl

theorem Pinned.attemptStarted (h : Pinned Q mark w) (a : Answer)
    (hpoint : w.handler.point = .attemptStarted) : Pinned Q mark (w.attemptStarted a) := by
  have hgoing : w.handler.point.exiting = false := by rw [hpoint]; rfl
  have hpending : w.pendingRoute = w.handler.route := pendingRoute_routed (by rw [hpoint]; rfl)
  simp only [World.attemptStarted]
  split
  · exact h.of_free hgoing hpending.symm h.serves (h.filters.of_eq rfl rfl rfl)
      (.inr ⟨_, by simp, rfl⟩) rfl
  · exact h.leave h.serves (h.filters.of_eq rfl rfl rfl) (.inl rfl) rfl

theorem Pinned.admitContext (h : Pinned Q mark w) (a : Answer)
    (hpoint : w.handler.point = .admitContext) : Pinned Q mark (w.admitContext a) := by
  have hgoing : w.handler.point.exiting = false := by rw [hpoint]; rfl
  have hpending : w.pendingRoute = w.handler.route := pendingRoute_routed (by rw [hpoint]; rfl)
  simp only [World.admitContext]
  generalize w.governance.admitWithContext a.clock a.requestCanceled a.reservationID
    { w.request.admission with upstream := w.handler.decision.targetID } = admitted
  split
  · exact h.of_free hgoing hpending.symm h.serves (h.filters.of_eq rfl rfl rfl) (.inl rfl) rfl
  · split
    · exact h.leave h.serves (h.filters.of_eq rfl rfl rfl) (.inl rfl) rfl
    · exact h.of_free hgoing hpending.symm h.serves (h.filters.of_eq rfl rfl rfl) (.inl rfl) rfl

theorem Pinned.reacquire (h : Pinned Q mark w) (a : Answer) {reason : String}
    (hpoint : w.handler.point = .reacquire reason) : Pinned Q mark (w.reacquire a reason) := by
  have hgoing : w.handler.point.exiting = false := by rw [hpoint]; rfl
  have hpending : w.pendingRoute = w.handler.route := pendingRoute_routed (by rw [hpoint]; rfl)
  have hrefused : Pinned Q mark
      { w with handler.outcome := .rejected, handler.point := .fail queueFull } :=
    h.leave h.serves (h.filters.of_eq rfl rfl rfl) (.inl rfl) rfl
  simp only [World.reacquire]
  split
  · exact h.of_free hgoing hpending.symm h.serves (h.filters.of_eq rfl rfl rfl) (.inl rfl) rfl
  · exact hrefused
  · split
    · exact hrefused
    · exact h

theorem Pinned.releaseDeferred (h : Pinned Q mark w) (a : Answer) :
    Pinned Q mark (w.releaseDeferred a) := by
  simp only [World.releaseDeferred]
  split
  · exact h.leave h.serves (h.filters.of_eq rfl rfl rfl) (.inl rfl) rfl
  · exact h.leave h.serves (h.filters.of_eq rfl rfl rfl) (.inl rfl) rfl

theorem Pinned.handle (h : Pinned Q mark w) (a : Answer) : Pinned Q mark (w.handle a) := by
  refine attempt_elim w a (fun hbeside => h.beside hbeside (w.handle_exiting a))
    (h.admitContext a) (h.attemptStarted a) (h.select a) (fun lease => h.bindUpstream a)
    (fun lease => h.beginAttempt a) (fun lease reason hpoint => ?_) (fun lease => h.exchange a)
    (fun result => h.settle a) (fun result => h.judge) (fun result => h.releaseReservation a)
    (fun result => h.classify a) (fun reason => h.reacquire a) (fun _ => h.releaseDeferred a)
  exact h.leave (h.serves.step (.release lease)) (h.filters.of_eq rfl rfl rfl) (.inl rfl) rfl

/-- A reload brings only targets that meet `Q`. -/
def Meets (Q : Target → Prop) : Event → Prop
  | .reload pool legacy =>
      ∀ target ∈ Manager.targetsOf pool legacy, target.id ≠ "" → Q (Manager.targetConfig target)
  | _ => True

/-- Nothing others do loosens the pin, unless it lifts the filter. -/
theorem Pinned.outside (h : Pinned Q mark w) {event : Event} (hout : w.Outside w' event)
    (hstrict : mark.Strict event) (hmeets : Meets Q event) : Pinned Q mark w' := by
  have hpending : w'.pendingRoute = w.pendingRoute := by
    unfold pendingRoute
    rw [hout.handler]
  have hlog : w.KeepsEnds w' := by
    rcases hout.log with hlog | hlog
    · exact .inl hlog
    · exact .inr ⟨_, by simp, hlog⟩
  refine h.of_same ?_ ?_ hlog (fun hgoing => ⟨hout.handler ▸ hgoing, hpending⟩) fun lease hl => ?_
  · rcases hout.pool with hpool | ⟨op, -, -, hpool⟩ | ⟨pool, legacy, rfl, hpool⟩
    · exact hpool ▸ h.serves
    · exact hpool ▸ h.serves.step op
    · exact hpool ▸ ⟨h.serves.manager.apply hmeets, h.serves.leases⟩
  · cases mark with
    | byTarget => exact (congrArg Request.idempotencyKey hout.request).trans h.filters
    | byDomain =>
        refine ⟨?_, hout.handler ▸ h.filters.2⟩
        rcases hout.config with hconfig | ⟨cfg, rfl, hconfig⟩
        · exact hconfig ▸ h.filters.1
        · exact hconfig ▸ hstrict
  · obtain ⟨issued, hget, hallows⟩ := h.lease lease (hout.handler ▸ hl)
    rcases hout.pool with hpool | ⟨op, -, -, hpool⟩ | ⟨pool, legacy, -, hpool⟩
    · exact ⟨issued, hpool ▸ hget, hallows⟩
    · obtain ⟨issued', hget', htarget⟩ := w.pool.lease_step op hget
      exact ⟨issued', hpool ▸ hget', htarget ▸ hallows⟩
    · exact ⟨issued, hpool ▸ hget, hallows⟩

theorem Pinned.step (h : Pinned Q mark w) {event : Event} (hstrict : mark.Strict event)
    (hmeets : Meets Q event) : Pinned Q mark (w.step event) := by
  by_cases hevent : ∃ answer, event = .handler answer
  · obtain ⟨answer, rfl⟩ := hevent
    exact h.handle answer
  · exact h.outside (w.step_outside event fun answer heq => hevent ⟨answer, heq⟩) hstrict hmeets

/-! ## Runs -/

theorem pinned_start {pool : UpstreamPoolConfig} {legacy : UpstreamConfig} {m : Manager}
    (request : Request) (config : Config) (governance : Governance.Manager)
    (hnew : Manager.new pool legacy = .ok m) (hmeets : Meets Q (.reload pool legacy))
    (hfilters : mark.Filters (start request config governance (Pool.start m))) :
    Pinned Q mark (start request config governance (Pool.start m)) where
  serves := ⟨Manager.Serves.new hnew hmeets, by simp [start, Pool.start]⟩
  filters := hfilters
  met := by simp [start]
  log := List.Pairwise.nil
  remembered := by simp [start]
  lease := by simp [start, Point.lease]

theorem Pinned.run (h : Pinned Q mark w) {events : List Event}
    (hstrict : ∀ event ∈ events, mark.Strict event) (hmeets : ∀ event ∈ events, Meets Q event) :
    Pinned Q mark (w.run events) := by
  induction events generalizing w with
  | nil => exact h
  | cons event events ih =>
      simp only [List.mem_cons, forall_eq_or_imp] at hstrict hmeets
      exact ih (h.step hstrict.1 hmeets.1) hstrict.2 hmeets.2

/-- Once the earlier attempt wrote to a target, a later one ends at that
target. -/
def SameTarget : Happening → Happening → Prop
  | .ended _ target result, .ended _ target' _ =>
      result.wroteRequest = true → target'.id = target.id
  | _, _ => True

/-- **Failover without an idempotency key.** A request that carries no key stays
with the first target it was written to, whatever the pool does in between. -/
theorem sameTarget_of_no_key {pool : UpstreamPoolConfig} {legacy : UpstreamConfig} {m : Manager}
    {header : String} {generated : Option String} {request : Request} {config : Config}
    {governance : Governance.Manager} {events : List Event}
    (hnew : Manager.new pool legacy = .ok m)
    (hkey : prepareIdempotencyKey header config.lifecycle generated = "") :
    ((start
        { request with idempotencyKey := prepareIdempotencyKey header config.lifecycle generated }
        config governance (Pool.start m)).run events).log.Pairwise SameTarget := by
  have hmeets : ∀ event, Meets (fun target => target.id ≠ "") event := by
    intro event
    cases event with
    | reload pool legacy => exact fun target _ hid => hid
    | _ => trivial
  have hfilters : Mark.byTarget.Filters (start
      { request with idempotencyKey := prepareIdempotencyKey header config.lifecycle generated }
      config governance (Pool.start m)) := hkey
  have hend := (pinned_start _ config governance hnew (hmeets (.reload pool legacy)) hfilters).run
    (fun event (_ : event ∈ events) => trivial) fun event _ => hmeets event
  refine hend.log.imp_of_mem fun {x y} hx hy hkept => ?_
  cases x with
  | ended n target result =>
      cases y with
      | ended n' target' result' =>
          exact fun hwrote => hkept hwrote (hend.met n target result hx)
      | _ => trivial
  | _ => trivial

/-- A target that declares no domain. -/
def south : UpstreamTargetConfig := { id := "south", baseURL := "https://south", weight := 1 }

def west : UpstreamTargetConfig :=
  { id := "west", baseURL := "https://west", weight := 1, idempotencyDomain := "emea" }

def north : UpstreamTargetConfig :=
  { id := "north", baseURL := "https://north", weight := 1, idempotencyDomain := "emea" }

def poolOf (targets : List UpstreamTargetConfig) : UpstreamPoolConfig where
  strategy := "weighted-priority"
  targets := targets

def managerOf (targets : List UpstreamTargetConfig) : Manager :=
  ((Manager.blank relay).apply (poolOf targets) relay).1

/-- No request is held back as uncertain. -/
def untracked : Config := { everySecond with lifecycle := { trackUncertainDelivery := false } }

/-- A request with the header `header`, before these targets. -/
def withHeader (targets : List UpstreamTargetConfig) (header : String) : World :=
  start { idempotencyKey := prepareIdempotencyKey header untracked.lifecycle none } untracked
    { config := { mode := .observe } } (Pool.start (managerOf targets))

/-- An attempt is written and then cut off, and the handler goes on to the next
one, which ends the same way. -/
def cutOffTwice : List Event :=
  usual 10 ++ [.handler { exchange := .failed true false }] ++ usual 7 ++ stepsAt Registry.second 17

/-- The targets the attempts of a run ended at. -/
def endedAt (w : World) : List String :=
  w.log.filterMap fun
    | .ended _ target _ => some target.id
    | _ => none

theorem sameTarget_southWest :
    ((withHeader [south, west] "").run cutOffTwice).log.Pairwise SameTarget ∧
      ((withHeader [south, west] "").run cutOffTwice).endedAt = ["south", "south"] :=
  ⟨@sameTarget_of_no_key _ _ _ _ _ {} _ _ _
    (show Manager.new (poolOf [south, west]) relay = .ok (managerOf [south, west]) from rfl) rfl,
    by decide +kernel⟩

/-! ## With a key -/

/-- Once the earlier attempt wrote to a target that declares a domain, a later
one ends inside that domain. -/
def SameDomain : Happening → Happening → Prop
  | .ended _ target result, .ended _ target' _ =>
      result.wroteRequest = true → target.idempotencyDomain ≠ "" →
        target'.idempotencyDomain = target.idempotencyDomain
  | _, _ => True

/-- **Failover inside a declared domain.** While cross-domain failover stays off,
a request that was written to a target with a domain goes to no target outside
it, and so to none that declares no domain. -/
theorem sameDomain_of_no_crossing {pool : UpstreamPoolConfig} {legacy : UpstreamConfig}
    {m : Manager} {request : Request} {config : Config} {governance : Governance.Manager}
    {events : List Event} (hnew : Manager.new pool legacy = .ok m)
    (hoff : config.lifecycle.allowCrossDomainFailover = false)
    (hstays : ∀ cfg, .configure cfg ∈ events → cfg.lifecycle.allowCrossDomainFailover = false) :
    ((start request config governance (Pool.start m)).run events).log.Pairwise SameDomain := by
  have hmeets : ∀ event, Meets (fun _ => True) event := by
    intro event
    cases event with
    | reload pool legacy => exact fun _ _ _ => trivial
    | _ => trivial
  have hstrict : ∀ event ∈ events, Mark.byDomain.Strict event := by
    intro event hin
    cases event with
    | configure cfg => exact hstays cfg hin
    | _ => trivial
  have hstart : Pinned (fun _ => True) .byDomain (start request config governance (Pool.start m)) :=
    pinned_start request config governance hnew (hmeets (.reload pool legacy)) ⟨hoff, hoff⟩
  have hend := hstart.run hstrict fun event _ => hmeets event
  refine hend.log.imp fun {x y} hkept => ?_
  cases x with
  | ended n target result =>
      cases y with
      | ended n' target' result' => exact hkept
      | _ => trivial
  | _ => trivial

theorem sameDomain_northSouthWest :
    ((withHeader [north, south, west] "key").run cutOffTwice).log.Pairwise SameDomain ∧
      ((withHeader [north, south, west] "key").run cutOffTwice).endedAt = ["north", "west"] :=
  ⟨sameDomain_of_no_crossing
    (show Manager.new (poolOf [north, south, west]) relay = .ok (managerOf [north, south, west])
      from rfl) rfl (by simp [cutOffTwice, usual, stepsAt]),
    by decide +kernel⟩

/-- Once the earlier attempt wrote, a later one ends at its target or inside a
domain that target declares. -/
def StaysInDomain : Happening → Happening → Prop
  | .ended _ target result, .ended _ target' _ =>
      result.wroteRequest = true → target'.id = target.id ∨
        target'.idempotencyDomain ≠ "" ∧ target'.idempotencyDomain = target.idempotencyDomain
  | _, _ => True

instance : DecidableRel StaysInDomain := fun earlier later =>
  match earlier, later with
  | .ended _ target result, .ended _ target' _ =>
      inferInstanceAs (Decidable (result.wroteRequest = true → target'.id = target.id ∨
        target'.idempotencyDomain ≠ "" ∧ target'.idempotencyDomain = target.idempotencyDomain))
  | .ended .., .started _ | .ended .., .unselected _ | .ended .., .begun _
  | .ended .., .recorded .. | .ended .., .uncertain _ | .ended .., .compensated
  | .started _, _ | .unselected _, _ | .begun _, _ | .recorded .., _ | .uncertain _, _
  | .compensated, _ => .isTrue trivial

/-- A request written to a target without a domain goes over to another one. -/
theorem not_staysInDomain_southWest :
    validateUpstreams (fun url => some ("https", String.ofList (url.toList.drop 8)))
        (poolOf [south, west]) = true ∧
      Manager.new (poolOf [south, west]) relay = .ok (managerOf [south, west]) ∧
      (withHeader [south, west] "key").config.lifecycle.allowCrossDomainFailover = false ∧
      (withHeader [south, west] "key").request.idempotencyKey = "key" ∧
      ¬((withHeader [south, west] "key").run cutOffTwice).log.Pairwise StaysInDomain :=
  ⟨by decide +kernel, rfl, rfl, rfl, by decide +kernel⟩

end World

end RelayLifeline.Proxy
