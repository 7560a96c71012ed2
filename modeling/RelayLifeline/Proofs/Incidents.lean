import RelayLifeline.Incidents.Store
import RelayLifeline.Lib.Trace

/-!
# Incidents: one that is not resolved, and its counts

A change goes to the incident that `current` names, or to one that is resolved
or new where it names none. So no change can leave two incidents unresolved,
in memory or in the journal: while the journal takes appends, what it has
unresolved is the current incident, and the one line that a failed append may
leave is of that incident too, or of the first. A restart therefore finds one at
most. A prune takes resolved incidents only.
-/

namespace RelayLifeline.Incidents

open Lib Journal

/-! ## Counts -/

theorem total_bump {κ : Type} [DecidableEq κ] (counts : Table (Count κ)) (value : κ) :
    (bump counts value).total Count.count = counts.total Count.count + 1 := by
  unfold bump
  rw [Table.total_set, show key (⟨value, _⟩ : Count κ) = value from rfl]
  cases h : counts.get? value with
  | none =>
      rw [Table.erase_of_none h]
      rfl
  | some c =>
      rw [← Table.total_erase_of_some h]
      dsimp only [Option.elim]
      omega

namespace Incident

/-- The attempts of an incident are those of its categories. -/
def Counted (incident : Incident) : Prop :=
  incident.failedAttempts = incident.categories.total Count.count

theorem Counted.fail {incident : Incident} (h : incident.Counted) (now : Int)
    (requestID category : String) (statusCode : Int) :
    (incident.fail now requestID category statusCode).Counted := by
  simp only [Counted, Incident.fail, total_bump]
  rw [show incident.failedAttempts = _ from h]

end Incident

namespace Store

/-! ## Pruning -/

theorem ranged_perm (items : Table Incident) (rank : String → Nat) :
    (ranged items rank).Perm items.items :=
  List.mergeSort_perm _ _

/-- The incidents are those there were, but for resolved ones. -/
def Pruned (before items : Table Incident) : Prop :=
  ∀ id, items.get? id = before.get? id ∨
    items.get? id = none ∧ ∃ x, before.get? id = some x ∧ x.state = .resolved

theorem Pruned.erase {before items : Table Incident} {x : Incident} (h : Pruned before items)
    (hx : x ∈ items.items) (hresolved : x.state = .resolved) : Pruned before (items.erase x.id) := by
  intro id
  by_cases heq : id = x.id
  · subst heq
    refine .inr ⟨Table.get?_erase_self, x, ?_, hresolved⟩
    have hget : items.get? x.id = some x := Table.get?_of_mem hx
    rcases h x.id with hsame | ⟨hnone, -⟩
    · rw [← hsame, hget]
    · rw [hnone] at hget
      cases hget
  · rw [Table.get?_erase_of_ne heq]
    exact h id

/-- A loop that takes resolved incidents out. -/
theorem Pruned.foldl {before : Table Incident} {f : Table Incident → Incident → Table Incident}
    {l : List Incident} (hl : (l.map key).Nodup)
    (hf : ∀ items, ∀ x ∈ l,
      f items x = items ∨ f items x = items.erase x.id ∧ x.state = .resolved) :
    ∀ {items : Table Incident}, (∀ x ∈ l, x ∈ items.items) → Pruned before items →
      Pruned before (l.foldl f items) := by
  induction l with
  | nil => exact fun _ h => h
  | cons x l ih =>
      intro items hmem h
      rw [List.map_cons, List.nodup_cons] at hl
      rw [List.foldl_cons]
      refine ih hl.2 (fun items y hy => hf items y (by simp [hy])) ?_ ?_
      · intro y hy
        rcases hf items x (by simp) with heq | ⟨heq, -⟩
        · rw [heq]
          exact hmem y (by simp [hy])
        · rw [heq]
          refine Table.mem_erase.2 ⟨hmem y (by simp [hy]), fun hkey => hl.1 ?_⟩
          rw [show key x = key y from hkey.symm]
          exact List.mem_map_of_mem hy
      · rcases hf items x (by simp) with heq | ⟨heq, hresolved⟩
        · rw [heq]
          exact h
        · rw [heq]
          exact h.erase (hmem x (by simp)) hresolved

theorem pruned_prune (s : Store) (p : Pruning) : Pruned s.items (s.prune p).items := by
  have hkept : Pruned s.items ((ranged s.items p.rank).foldl
      (fun items i => if i.expired (p.now - p.cfg.retention) then items.erase i.id else items)
      s.items) := by
    refine Pruned.foldl (((ranged_perm _ _).map _).nodup_iff.2 s.items.nodup) ?_
      (fun x hx => (ranged_perm _ _).mem_iff.1 hx) fun id => .inl rfl
    intro items x _
    split
    · next hexpired =>
        simp only [Incident.expired, decide_eq_true_eq] at hexpired
        exact .inr ⟨rfl, hexpired.1⟩
    · exact .inl rfl
  unfold prune
  dsimp only
  split
  · exact hkept
  · generalize (ranged s.items p.rank).foldl _ s.items = kept at hkept
    have hperm := List.mergeSort_perm ((ranged kept p.rank).filter fun i => i.state = .resolved)
      fun a b => a.resolvedAt.getD 0 ≤ b.resolvedAt.getD 0
    generalize List.mergeSort _ _ = sorted at hperm ⊢
    have hmem : ∀ x ∈ sorted, x ∈ kept.items ∧ x.state = .resolved := by
      intro x hx
      obtain ⟨hx, hresolved⟩ := List.mem_filter.1 (hperm.mem_iff.1 hx)
      exact ⟨(ranged_perm _ _).mem_iff.1 hx, by simpa using hresolved⟩
    refine Pruned.foldl ?_ ?_ (fun x hx => (hmem x hx).1) hkept
    · rw [(hperm.map _).nodup_iff]
      refine (((ranged_perm kept p.rank).map key).nodup_iff.2 kept.nodup).sublist ?_
      exact List.filter_sublist.map key
    · intro items x hx
      split
      · exact .inl rfl
      · exact .inr ⟨rfl, (hmem x hx).2⟩

/-- The incident that is not resolved stays. -/
theorem mem_prune (s : Store) (p : Pruning) {x : Incident} (hx : x ∈ s.items.items)
    (hunresolved : x.state ≠ .resolved) : x ∈ (s.prune p).items.items := by
  have hget : s.items.get? x.id = some x := Table.get?_of_mem hx
  rcases pruned_prune s p x.id with hsame | ⟨-, y, hy, hresolved⟩
  · exact Table.mem_of_get? (hsame.trans hget)
  · rw [hget] at hy
    cases hy
    exact absurd hresolved hunresolved

theorem of_mem_prune {s : Store} {p : Pruning} {x : Incident} (hx : x ∈ (s.prune p).items.items) :
    x ∈ s.items.items := by
  have hget : (s.prune p).items.get? x.id = some x := Table.get?_of_mem hx
  rcases pruned_prune s p x.id with hsame | ⟨hnone, -⟩
  · exact Table.mem_of_get? (hsame.symm.trans hget)
  · rw [hnone] at hget
    cases hget

theorem prune_eq (s : Store) (p : Pruning) : s.prune p = { s with items := (s.prune p).items } := by
  unfold prune
  dsimp only
  split <;> rfl

theorem scheduleRecovery_eq (s : Store) (sch : Scheduling) :
    s.scheduleRecovery sch = { s with timers := (s.scheduleRecovery sch).timers } := by
  unfold scheduleRecovery
  split
  · rfl
  · split
    · rfl
    · split <;> rfl

/-! ## What the store and its journal agree on -/

/-- The lines of a journal are snapshots of incidents, one of which at most is
left unresolved. -/
structure Sane (lines : List (Line Incident)) : Prop where
  named : ∀ line ∈ lines, line.entityID = line.payload.id
  counted : ∀ line ∈ lines, line.payload.Counted
  single : ∀ x ∈ (snapshots lines).items, ∀ y ∈ (snapshots lines).items,
    x.state ≠ .resolved → y.state ≠ .resolved → x.id = y.id

/-- While the journal takes appends, the incident it leaves unresolved is the
current one. -/
structure Recorded (log : Log Incident) (current : Option String) : Prop where
  sane : Sane log.lines
  current : log.degraded = false → ∀ x ∈ (snapshots log.lines).items, x.state ≠ .resolved →
    current = some x.id

/-- `current` names the incident that is not resolved. -/
structure Consistent (s : Store) : Prop where
  current : ∀ id, s.current = some id ↔ ∃ x, s.items.get? id = some x ∧ x.state ≠ .resolved
  counted : ∀ x ∈ s.items.items, x.Counted
  journal : ∀ log ∈ s.journal, Recorded log s.current

theorem Consistent.single {s : Store} (h : s.Consistent) {x y : Incident} (hx : x ∈ s.items.items)
    (hy : y ∈ s.items.items) (hxu : x.state ≠ .resolved) (hyu : y.state ≠ .resolved) : x = y := by
  have hxc := (h.current x.id).2 ⟨x, Table.get?_of_mem hx, hxu⟩
  have hyc := (h.current y.id).2 ⟨y, Table.get?_of_mem hy, hyu⟩
  exact Table.key_injOn s.items.nodup hx hy (Option.some.inj (hxc.symm.trans hyc))

theorem Consistent.prune {s : Store} (h : s.Consistent) (p : Pruning) : (s.prune p).Consistent := by
  rw [prune_eq]
  refine ⟨fun id => ?_, fun x hx => h.counted x (of_mem_prune hx), h.journal⟩
  rw [show ({ s with items := (s.prune p).items } : Store).current = s.current from rfl, h.current id]
  constructor
  · rintro ⟨x, hx, hunresolved⟩
    have := mem_prune s p (Table.mem_of_get? hx) hunresolved
    exact ⟨x, Table.get?_eq_some.2 ⟨this, Table.key_of_get? hx⟩, hunresolved⟩
  · rintro ⟨x, hx, hunresolved⟩
    have := of_mem_prune (Table.mem_of_get? hx)
    exact ⟨x, Table.get?_eq_some.2 ⟨this, Table.key_of_get? hx⟩, hunresolved⟩

theorem Consistent.scheduleRecovery {s : Store} (h : s.Consistent) (sch : Scheduling) :
    (s.scheduleRecovery sch).Consistent := by
  rw [scheduleRecovery_eq]
  exact ⟨h.current, h.counted, h.journal⟩

/-! ## One change -/

/-- How the journal is after an append of an incident that was the current one,
or that was resolved or new where there was none. -/
theorem Recorded.append {log : Log Incident} {current : Option String} {x : Incident} {stamp : Int}
    {fate : Fate} (h : Recorded log current) (hcounted : x.Counted)
    (hcurrent : current = none ∨ current = some x.id) :
    let appended := log.append ⟨stamp, x.id, x⟩ fate
    Recorded appended.1
      (if appended.2 then if x.state = .resolved then none else some x.id else current) := by
  -- once the line is written, `x` is all that can be unresolved
  have hlast : log.degraded = false →
      ∀ y ∈ (snapshots (log.lines ++ [⟨stamp, x.id, x⟩])).items, y.state ≠ .resolved → y = x := by
    intro hhealthy y hy hunresolved
    rw [snapshots_append] at hy
    rcases Table.mem_set.1 hy with rfl | ⟨hy, hne⟩
    · rfl
    · have := h.current hhealthy y hy hunresolved
      rcases hcurrent with hnone | hsome
      · rw [hnone] at this
        cases this
      · rw [hsome] at this
        exact absurd (Option.some.inj this).symm hne
  have hsane : log.degraded = false → Sane (log.lines ++ [⟨stamp, x.id, x⟩]) := by
    intro hhealthy
    refine ⟨?_, ?_, fun y hy z hz hyu hzu => ?_⟩
    · intro line hline
      rcases List.mem_append.1 hline with hline | hline
      · exact h.sane.named line hline
      · rw [List.mem_singleton.1 hline]
    · intro line hline
      rcases List.mem_append.1 hline with hline | hline
      · exact h.sane.counted line hline
      · rw [List.mem_singleton.1 hline]
        exact hcounted
    · rw [hlast hhealthy y hy hyu, hlast hhealthy z hz hzu]
  rcases log.append_cases ⟨stamp, x.id, x⟩ fate with
    ⟨hhealthy, -, heq⟩ | ⟨hrefused, hdegraded, hsame | ⟨hhealthy, -, hwritten⟩⟩
  · simp only [heq, if_true]
    refine ⟨hsane hhealthy, fun _ y hy hunresolved => ?_⟩
    obtain rfl := hlast hhealthy y hy hunresolved
    rw [if_neg hunresolved]
  · simp only [hrefused]
    refine ⟨by rw [hsame]; exact h.sane, fun hhealthy => ?_⟩
    rw [hdegraded] at hhealthy
    cases hhealthy
  · simp only [hrefused]
    refine ⟨by rw [hwritten]; exact hsane hhealthy, fun hhealthy => ?_⟩
    rw [hdegraded] at hhealthy
    cases hhealthy

theorem persist_eq (s : Store) (stamp : Int) (x : Incident) (fate : Fate) :
    (s.persist stamp x fate).1 = { s with journal := (s.persist stamp x fate).1.journal } := by
  unfold persist
  split <;> rfl

theorem Consistent.persist {s : Store} (h : s.Consistent) (x : Incident) (stamp : Int) (fate : Fate)
    (hcounted : x.Counted) (hcurrent : s.current = none ∨ s.current = some x.id) :
    ((s.persist stamp x fate).2 = false → (s.persist stamp x fate).1.Consistent) ∧
    ((s.persist stamp x fate).2 = true →
      Consistent { (s.persist stamp x fate).1 with
        items := s.items.set x
        current := if x.state = .resolved then none else some x.id }) := by
  have hjournal : ∀ log ∈ (s.persist stamp x fate).1.journal, Recorded log
      (if (s.persist stamp x fate).2 then if x.state = .resolved then none else some x.id
        else s.current) := by
    intro log hlog
    unfold Store.persist at hlog ⊢
    split at hlog
    · next hnone =>
        rw [show s.journal = none from hnone] at hlog
        cases hlog
    · next before hbefore =>
        cases hlog
        exact (h.journal before hbefore).append hcounted hcurrent
  constructor
  · intro hrefused
    rw [hrefused] at hjournal
    rw [persist_eq]
    exact ⟨h.current, h.counted, hjournal⟩
  · intro haccepted
    rw [haccepted] at hjournal
    refine ⟨fun id => ?_, ?_, hjournal⟩
    · -- every other incident is resolved
      have hother : ∀ y, s.items.get? id = some y → id ≠ x.id → y.state = .resolved := by
        intro y hy hne
        by_contra hunresolved
        have := (h.current id).2 ⟨y, hy, hunresolved⟩
        rcases hcurrent with hnone | hsome
        · rw [hnone] at this
          cases this
        · rw [hsome] at this
          exact hne (Option.some.inj this).symm
      dsimp only
      by_cases heq : id = x.id
      · rw [heq, show x.id = key x from rfl, Table.get?_set_self]
        by_cases hresolved : x.state = .resolved
        · simp [hresolved]
        · simp [hresolved]
      · rw [Table.get?_set_of_ne heq]
        constructor
        · intro hsome
          split at hsome
          · cases hsome
          · exact absurd (Option.some.inj hsome).symm heq
        · rintro ⟨y, hy, hunresolved⟩
          exact absurd (hother y hy heq) hunresolved
    · intro y hy
      rcases Table.mem_set.1 hy with rfl | ⟨hy, -⟩
      · exact hcounted
      · exact h.counted y hy

/-- The incident a failure goes to. -/
theorem Consistent.candidate {s : Store} (h : s.Consistent) (cfg : IncidentConfig) (now : Int)
    (rank : String → Nat) (newID : String) :
    (s.candidate cfg now rank newID).Counted ∧
      (s.current = none ∨ s.current = some (s.candidate cfg now rank newID).id) := by
  unfold Store.candidate
  cases hcurrent : s.current with
  | some id =>
      obtain ⟨x, hx, -⟩ := (h.current id).1 hcurrent
      simp only [Option.bind_some, hx]
      exact ⟨h.counted x (Table.mem_of_get? hx), .inr (by rw [← Table.key_of_get? hx]; rfl)⟩
  | none =>
      simp only [Option.bind_none]
      split
      · next candidate hfind =>
          have hmem := (ranged_perm _ _).mem_iff.1 (List.mem_of_find?_eq_some hfind)
          exact ⟨h.counted candidate hmem, .inl trivial⟩
      · exact ⟨rfl, .inl trivial⟩

theorem Consistent.recordFailure {s : Store} (h : s.Consistent) (cfg : IncidentConfig) (clk : Clock)
    (rank : String → Nat) (newID requestID category : String) (statusCode : Int) (fate : Fate)
    (p : Pruning) :
    (s.recordFailure cfg clk rank newID requestID category statusCode fate p).1.Consistent := by
  obtain ⟨hcounted, hcurrent⟩ := h.candidate cfg clk.now rank newID
  obtain ⟨hrefused, haccepted⟩ := h.persist _ clk.stamp fate
    (hcounted.fail clk.now requestID category statusCode) hcurrent
  unfold Store.recordFailure
  split
  · exact h
  · dsimp only
    split
    · next hnot => exact hrefused (by simpa using hnot)
    · next hyes => exact (haccepted (by simpa using hyes)).prune p

theorem Consistent.recordSuccess {s : Store} (h : s.Consistent) (clk : Clock) (sch : Scheduling)
    (fate : Fate) : (s.recordSuccess clk sch fate).1.Consistent := by
  unfold Store.recordSuccess
  split
  · exact h
  · next x hx =>
      obtain ⟨id, hcurrent, hx⟩ := Option.bind_eq_some_iff.1 hx
      have hid : s.current = some x.id := by
        rw [hcurrent, ← Table.key_of_get? hx]
        rfl
      obtain ⟨hrefused, haccepted⟩ := h.persist
        { x with state := .recovering, recoveryStarted := some clk.now } clk.stamp fate
        (h.counted x (Table.mem_of_get? hx)) (.inr hid)
      dsimp only
      split
      · next hnot => exact hrefused (by simpa using hnot)
      · next hyes =>
          have := (haccepted (by simpa using hyes)).scheduleRecovery sch
          rw [persist_eq] at this ⊢
          rwa [if_neg (by simp), ← hid] at this

theorem Consistent.resolve {s : Store} (h : s.Consistent) (clk : Clock) (timer : Timer) (fate : Fate)
    (p : Pruning) : (s.resolve clk timer fate p).Consistent := by
  unfold Store.resolve
  split
  · exact h
  · next x hx =>
      split
      · exact h
      · next hrecovering =>
          simp only [ne_eq, not_or, not_not] at hrecovering
          have hid : s.current = some x.id := by
            rw [(h.current timer.id).2 ⟨x, hx, by simp [hrecovering.1]⟩, ← Table.key_of_get? hx]
            rfl
          obtain ⟨hrefused, haccepted⟩ := h.persist
            { x with state := .resolved, resolvedAt := some clk.now } clk.stamp fate
            (h.counted x (Table.mem_of_get? hx)) (.inr hid)
          dsimp only
          split
          · next hnot => exact hrefused (by simpa using hnot)
          · next hyes => exact (haccepted (by simpa using hyes)).prune p

/-! ## A restart -/

theorem restoreTurn_of_resolved {items : Table Incident} {i : Incident} (h : i.state = .resolved)
    (current : Option String) : restoreTurn items current i = current := by
  simp [restoreTurn, h]

theorem restoreTurn_of_unresolved {items : Table Incident} {i : Incident}
    (h : i.state ≠ .resolved) (current : Option String) :
    restoreTurn items current i = some i.id ∨
      current ≠ none ∧ restoreTurn items current i = current := by
  have hstate : i.state = .opened ∨ i.state = .recovering := by
    cases hi : i.state <;> simp_all
  unfold restoreTurn
  rw [if_pos hstate]
  split
  · exact .inl rfl
  · next latest hlatest =>
      split
      · exact .inl rfl
      · refine .inr ⟨?_, rfl⟩
        rintro rfl
        cases hlatest

/-- What the loop of `restoreCurrentLocked` settles on. -/
theorem foldl_restoreTurn (items : Table Incident) (l : List Incident) :
    ∀ current, (l.foldl (restoreTurn items) current = current ∧
        (current = none → ∀ x ∈ l, x.state = .resolved)) ∨
      ∃ x ∈ l, x.state ≠ .resolved ∧ l.foldl (restoreTurn items) current = some x.id := by
  induction l with
  | nil => exact fun current => .inl ⟨rfl, by simp⟩
  | cons i l ih =>
      intro current
      rw [List.foldl_cons]
      rcases ih (restoreTurn items current i) with ⟨hsame, hall⟩ | ⟨x, hx, hunresolved, hlast⟩
      · rw [hsame]
        by_cases hi : i.state = .resolved
        · rw [restoreTurn_of_resolved hi] at hall ⊢
          refine .inl ⟨rfl, fun hnone x hx => ?_⟩
          rcases List.mem_cons.1 hx with rfl | hx
          · exact hi
          · exact hall hnone x hx
        · rcases restoreTurn_of_unresolved hi current with hself | ⟨hne, hkeep⟩
          · exact .inr ⟨i, by simp, hi, hself⟩
          · exact .inl ⟨hkeep, fun hnone => absurd hnone hne⟩
      · exact .inr ⟨x, by simp [hx], hunresolved, hlast⟩

theorem restoreCurrent_spec (items : Table Incident) (rank : String → Nat) :
    (restoreCurrent items rank = none ∧ ∀ x ∈ items.items, x.state = .resolved) ∨
      ∃ x ∈ items.items, x.state ≠ .resolved ∧ restoreCurrent items rank = some x.id := by
  rcases foldl_restoreTurn items (ranged items rank) none with ⟨hnone, hall⟩ | ⟨x, hx, h⟩
  · exact .inl ⟨hnone, fun x hx => hall rfl x ((ranged_perm _ _).mem_iff.2 hx)⟩
  · exact .inr ⟨x, (ranged_perm _ _).mem_iff.1 hx, h⟩

theorem Sane.compact {lines : List (Line Incident)} (h : Sane lines) (cutoff : Int) :
    Sane (Log.compact lines cutoff []) := by
  have hmem : ∀ x ∈ (snapshots (Log.compact lines cutoff [])).items,
      x ∈ (snapshots lines).items := by
    intro x hx
    have hget : (snapshots (Log.compact lines cutoff [])).get? x.id = some x := Table.get?_of_mem hx
    rw [snapshots_compact h.named] at hget
    split at hget
    · exact Table.mem_of_get? hget
    · cases hget
  refine ⟨fun line hline => h.named line (List.mem_of_mem_filter hline),
    fun line hline => h.counted line (List.mem_of_mem_filter hline), ?_⟩
  intro x hx y hy
  exact h.single x (hmem x hx) y (hmem y hy)

theorem new_consistent {journal : Option (Log Incident)} (rank : String → Nat) (p : Pruning)
    (sch : Scheduling) (h : ∀ log ∈ journal, Sane log.lines) :
    (new journal rank p sch).Consistent := by
  let items : Table Incident := journal.elim ∅ fun log => snapshots log.lines
  have hitems : (∀ x ∈ items.items, ∀ y ∈ items.items, x.state ≠ .resolved →
      y.state ≠ .resolved → x.id = y.id) ∧ ∀ x ∈ items.items, x.Counted := by
    cases journal with
    | none => exact ⟨fun x hx => absurd hx List.not_mem_nil, fun x hx => absurd hx List.not_mem_nil⟩
    | some log =>
        refine ⟨(h log rfl).single, fun x hx => ?_⟩
        obtain ⟨line, hline, rfl⟩ := exists_line_of_mem_snapshots hx
        exact (h log rfl).counted line hline
  have hcurrent : ∀ x ∈ items.items, x.state ≠ .resolved →
      restoreCurrent items rank = some x.id := by
    intro x hx hunresolved
    rcases restoreCurrent_spec items rank with ⟨-, hall⟩ | ⟨y, hy, hyu, hsome⟩
    · exact absurd (hall x hx) hunresolved
    · rw [hsome, hitems.1 y hy x hx hyu hunresolved]
  have hrestored :
      Consistent { journal := journal, items := items, current := restoreCurrent items rank } := by
    refine ⟨fun id => ⟨fun hsome => ?_, ?_⟩, hitems.2, ?_⟩
    · rcases restoreCurrent_spec items rank with ⟨hnone, -⟩ | ⟨x, hx, hunresolved, hx'⟩
      · rw [hnone] at hsome
        cases hsome
      · obtain rfl : x.id = id := Option.some.inj (hx'.symm.trans hsome)
        exact ⟨x, Table.get?_of_mem hx, hunresolved⟩
    · rintro ⟨x, hx, hunresolved⟩
      rw [← show x.id = id from Table.key_of_get? hx]
      exact hcurrent x (Table.mem_of_get? hx) hunresolved
    · intro log hlog
      refine ⟨h log hlog, fun _ x hx => ?_⟩
      obtain rfl : journal = some log := hlog
      exact hcurrent x hx
  exact (hrestored.prune p).scheduleRecovery sch

/-! ## Runs -/

theorem Consistent.step {s : Store} (h : s.Consistent) (i : Input) : (s.step i).Consistent := by
  cases i with
  | recordFailure cfg clk rank newID requestID category statusCode fate p =>
      exact h.recordFailure cfg clk rank newID requestID category statusCode fate p
  | recordSuccess clk sch fate => exact h.recordSuccess clk sch fate
  | fires timer moment clk fate p =>
      simp only [Store.step]
      split
      · exact h
      · next fired _ =>
          have hlet : Consistent { s with timers := s.timers.eraseIdx timer } :=
            ⟨h.current, h.counted, h.journal⟩
          split
          · exact h
          · exact hlet.resolve clk fired fate p
  | list p => exact h.prune p
  | restart cutoff rank p sch =>
      refine new_consistent rank p sch ?_
      intro log hlog
      obtain ⟨before, hbefore, rfl⟩ := Option.map_eq_some_iff.1 hlog
      exact (h.journal before hbefore).sane.compact cutoff

/-- The input is a method or a function that appends, and an append fails. -/
def appendFails (s : Store) : Input → Bool
  | .recordFailure _ _ _ _ _ _ _ fate _ | .recordSuccess _ _ fate | .fires _ _ _ fate _ =>
      s.journal.any fun log => log.degraded ∨ fate ≠ .written
  | .list _ | .restart _ _ _ _ => false

theorem persist_refused {s : Store} {stamp : Int} {x : Incident} {fate : Fate}
    (h : s.journal.any (fun log => log.degraded ∨ fate ≠ .written) = true) :
    (s.persist stamp x fate).2 = false := by
  obtain ⟨log, hlog, hfails⟩ := (Option.any_eq_true _ _).1 h
  simp only [Store.persist, hlog]
  rcases log.append_cases ⟨stamp, x.id, x⟩ fate with ⟨hhealthy, hwritten, -⟩ | ⟨hrefused, -⟩
  · simp [hhealthy, hwritten] at hfails
  · exact hrefused

/-- An input whose append fails leaves the incidents as they are. -/
theorem step_of_appendFails {s : Store} {i : Input} (h : s.appendFails i = true) :
    (s.step i).items = s.items ∧ (s.step i).current = s.current := by
  cases i with
  | recordFailure cfg clk rank newID requestID category statusCode fate p =>
      simp only [Store.step, Store.recordFailure]
      split
      · exact ⟨rfl, rfl⟩
      · rw [persist_refused h, persist_eq]
        exact ⟨rfl, rfl⟩
  | recordSuccess clk sch fate =>
      simp only [Store.step, Store.recordSuccess]
      split
      · exact ⟨rfl, rfl⟩
      · rw [persist_refused h, persist_eq]
        exact ⟨rfl, rfl⟩
  | fires timer moment clk fate p =>
      simp only [Store.step]
      split
      · exact ⟨rfl, rfl⟩
      · split
        · exact ⟨rfl, rfl⟩
        · simp only [Store.resolve]
          split
          · exact ⟨rfl, rfl⟩
          · split
            · exact ⟨rfl, rfl⟩
            · rw [persist_refused (s := { s with timers := s.timers.eraseIdx timer }) h,
                persist_eq]
              exact ⟨rfl, rfl⟩
  | list p => cases h
  | restart cutoff rank p sch => cases h

/-- A store over a new journal, or over none. -/
def fresh (persisted : Bool) : Store := { journal := if persisted then some {} else none }

theorem fresh_consistent (persisted : Bool) : (fresh persisted).Consistent := by
  refine ⟨fun id => by simp [fresh], by simp [fresh], fun log hlog => ?_⟩
  have hempty : log = {} := by
    cases persisted <;> simp_all [fresh]
  subst hempty
  exact ⟨⟨by simp, by simp, by simp [snapshots]⟩, by simp [snapshots]⟩

/-- The invariants of the store, wherever a run has been: one incident at
most is not resolved, and `current` names it; the attempts of an incident are
those of its categories; a prune takes no incident that is not resolved; and an
input whose append fails leaves the incidents and `current` as they are. -/
theorem run_incidents (persisted : Bool) (is : List Input) :
    let s := run (fresh persisted) is
    (∀ x ∈ s.items.items, ∀ y ∈ s.items.items, x.state ≠ .resolved → y.state ≠ .resolved → x = y) ∧
    (∀ id, s.current = some id ↔ ∃ x ∈ s.items.items, x.id = id ∧ x.state ≠ .resolved) ∧
    (∀ x ∈ s.items.items, x.failedAttempts = x.categories.total Count.count) ∧
    (∀ (t : Store) (p : Pruning), ∀ x ∈ t.items.items, x.state ≠ .resolved →
      x ∈ (t.prune p).items.items) ∧
    ∀ i, s.appendFails i = true → (s.step i).items = s.items ∧ (s.step i).current = s.current := by
  intro s
  have hend : s.Consistent :=
    foldl_invariant (P := Consistent) (fun _ i h => h.step i) (fresh_consistent persisted) is
  refine ⟨fun x hx y hy => hend.single hx hy, fun id => ?_, hend.counted,
    fun t p x hx hunresolved => mem_prune t p hx hunresolved, fun i => step_of_appendFails⟩
  rw [hend.current id]
  constructor
  · rintro ⟨x, hx, hunresolved⟩
    exact ⟨x, Table.mem_of_get? hx, Table.key_of_get? hx, hunresolved⟩
  · rintro ⟨x, hx, rfl, hunresolved⟩
    exact ⟨x, Table.get?_of_mem hx, hunresolved⟩

end Store

end RelayLifeline.Incidents
