import RelayLifeline.Proofs.Accounting

/-!
# The concurrency limit counts reservations

The manager never stores how many places are taken under a key: it counts
outstanding attempts afresh each time it needs the number. A reservation that
holds a place has at least one such attempt, so the reservations that hold one
are no more than the attempts counted, and a path that counts its own attempts
honestly keeps them within the limit.

Admitting and beginning an attempt do count honestly. A binding counts its own
attempts only when they began in the current minute, so a reservation whose
attempts are all older takes its places under the new keys uncounted.
-/

namespace RelayLifeline.Governance

open Lib

namespace ReservationState

/-- One if the reservation has an outstanding attempt charged to the key. -/
def holds (reservation : ReservationState) (key : String) : Nat :=
  if 0 < reservation.activeFor key then 1 else 0

theorem holds_le_one (reservation : ReservationState) (key : String) :
    reservation.holds key ≤ 1 := by
  unfold holds
  split <;> omega

theorem holds_le_activeFor (reservation : ReservationState) (key : String) :
    reservation.holds key ≤ reservation.activeFor key := by
  unfold holds
  split <;> omega

theorem activeFor_eq_zero {reservation : ReservationState} {key : String} :
    reservation.activeFor key = 0 ↔
      ∀ attempt ∈ reservation.attempts.items, attempt.outstanding = true →
        key ∉ attempt.budgetKeys := by
  unfold activeFor
  rw [List.countP_eq_zero]
  simp

end ReservationState

namespace Manager

/-- How many reservations have an outstanding attempt charged to a key. -/
def holders (m : Manager) (key : String) : Nat :=
  m.reservations.total fun reservation => reservation.holds key

/-- The others that hold a place are no more than their attempts. -/
theorem others_le (m : Manager) (key id : String) :
    (m.reservations.erase id).total (fun reservation => reservation.holds key) ≤
      m.activeForBudgetExcluding key (some id) := by
  rw [activeForBudgetExcluding_some]
  exact Table.total_mono fun reservation _ => reservation.holds_le_activeFor key

/-! ## Each change -/

/-- The bindings that count every reservation they should: to the upstream the
reservation has, with no attempt outstanding, or in a minute in which one of
the outstanding attempts began. -/
def bindsInWindow (m : Manager) (op : Op) : Bool :=
  match op.call with
  | .bindUpstream id upstream =>
      match m.reservations.get? id with
      | some reservation =>
          reservation.upstream = trimSpace upstream || reservation.outstandingAttempts.isEmpty ||
            !(attemptsIn reservation op.clk.window).isEmpty
      | none => true
  | _ => true

/-- Within the limit of a key, if it has one. -/
def WithinLimit (m : Manager) (key : String) : Prop :=
  0 < (m.config.budgetForKey key).maxConcurrent →
    m.holders key ≤ (m.config.budgetForKey key).maxConcurrent

theorem withinLimit_of_quiet {m m' : Manager} {key : String} (hq : Quiet m m')
    (h : m.WithinLimit key) : m'.WithinLimit key := by
  unfold WithinLimit holders
  rw [hq.config, hq.reservations]
  exact h

/-- Putting a reservation in keeps the limit if it holds no more than it did,
or if the others leave room for it. -/
theorem withinLimit_of_set {m m' : Manager} {key id : String} {r : ReservationState}
    (hconfig : m'.config = m.config) (hset : m'.reservations = m.reservations.set r)
    (hid : r.id = id) (h : m.WithinLimit key)
    (hroom : r.holds key ≤
        ((m.reservations.get? id).map fun old => old.holds key).getD 0 ∨
      (0 < (m.config.budgetForKey key).maxConcurrent →
        m.activeForBudgetExcluding key (some id) + 1 ≤
          (m.config.budgetForKey key).maxConcurrent)) : m'.WithinLimit key := by
  intro hpos
  subst hid
  rw [hconfig] at hpos ⊢
  have hlimit := h hpos
  have hbefore : m.holders key = m.reservations.total (fun r => r.holds key) := rfl
  have hafter : m'.holders key =
      (m.reservations.erase r.id).total (fun reservation => reservation.holds key) +
        r.holds key := by
    unfold holders
    rw [hset, Table.total_set]
    rfl
  rcases hroom with hless | hroom
  · cases hget : m.reservations.get? r.id with
    | none =>
        rw [hget] at hless
        rw [Table.erase_of_none hget] at hafter
        simp only [Option.map_none, Option.getD_none] at hless
        omega
    | some old =>
        rw [hget] at hless
        have hsplit := Table.total_erase_of_some (f := fun r : ReservationState => r.holds key) hget
        simp only [Option.map_some, Option.getD_some] at hless
        omega
  · have := m.others_le key r.id
    have := r.holds_le_one key
    have := hroom hpos
    omega

/-- A reservation as admitted holds a place under its own keys only. -/
theorem openReservation_activeFor {clk : Clock} {id : String} {admission : AdmissionContext}
    {amounts : Int64 × Int64} {keys : List String} {key : String} (hkey : key ∉ keys) :
    (openReservation clk id admission amounts keys).activeFor key = 0 :=
  ReservationState.activeFor_eq_zero.2 fun attempt ha _ => by
    have hitems : (openReservation clk id admission amounts keys).attempts.items =
      [initialAttempt clk amounts keys] := rfl
    rw [hitems] at ha
    rw [List.mem_singleton.1 ha]
    exact hkey

/-- Beginning an attempt takes no place under a key it is not charged to. -/
theorem addAttempt_activeFor {reservation : ReservationState} {attempt : AttemptState}
    {key : String} (hfresh : reservation.attempts.get? attempt.id = none)
    (hkey : key ∉ attempt.budgetKeys) :
    (reservation.addAttempt attempt).activeFor key = reservation.activeFor key := by
  unfold ReservationState.activeFor ReservationState.addAttempt
  rw [Table.items_set_of_none hfresh, List.countP_append]
  simp [hkey]

/-- Settling an attempt frees places and takes none. -/
theorem settled_activeFor_le {reservation : ReservationState} {attempt : AttemptState}
    {key : String} (w : Windows) (event : UsageRecordedEvent)
    (h : 0 < (Effect.reservationAfter w (.settled reservation attempt event)).activeFor key) :
    0 < reservation.activeFor key := by
  by_contra hzero
  refine h.ne' (ReservationState.activeFor_eq_zero.2 fun a ha ho => ?_)
  rcases (mem_settled_attempts w event a).1 ha with rfl | ⟨ha, -⟩
  · cases ho
  · exact ReservationState.activeFor_eq_zero.1 (by omega) a ha ho

theorem holds_of_pos {r r' : ReservationState} {key : String}
    (h : 0 < r.activeFor key → 0 < r'.activeFor key) : r.holds key ≤ r'.holds key := by
  unfold ReservationState.holds
  split
  · next hpos => rw [if_pos (h hpos)]
  · omega

/-- A binding holds places under the new keys only, and as many as it has
outstanding attempts. -/
theorem bound_activeFor {reservation : ReservationState} {key : String} (w : Windows)
    (upstream : String) {newKeys : List String} {amounts : List AttemptReservationEvent}
    (h : 0 < (Effect.reservationAfter w
      (.bound reservation upstream newKeys amounts)).activeFor key) :
    key ∈ newKeys ∧ reservation.outstandingAttempts ≠ [] := by
  by_contra hnot
  refine h.ne' (ReservationState.activeFor_eq_zero.2 fun a ha ho hkey => hnot ?_)
  obtain ⟨old, hold, rfl⟩ := (mem_bound_attempts w upstream newKeys amounts a).1 ha
  by_cases hout : old.outstanding = true
  · rw [if_pos hout] at hkey
    exact ⟨hkey, List.ne_nil_of_mem (List.mem_filter.2 ⟨hold, hout⟩)⟩
  · rw [if_neg hout] at ho
    exact absurd ho hout

/-- Every change keeps the limit, a binding if it counts its attempts. -/
theorem withinLimit_of_makes {op : Op} {m m' : Manager} {e : Effect} {key : String}
    (hmakes : Makes op m e m') (henf : m.enforcing)
    (hcond : ∀ r upstream keys amounts, e = .bound r upstream keys amounts → m.bindsInWindow op = true)
    (h : m.WithinLimit key) : m'.WithinLimit key := by
  have hset := hmakes.reservations
  have hid := reservationAfter_id m.windows e
  cases hmakes.allowed with
  | @admitted id admission keys amounts htarget hnamed hp hfresh hcharged hreserved hlimits =>
      refine withinLimit_of_set hmakes.config hset hid h ?_
      by_cases hkey : key ∈ keys
      · refine .inr fun hpos => ?_
        have hle := (limitReason_eq_none.1 (hlimits henf key hkey)).concurrent hpos
        rw [activeForBudgetExcluding_none] at hle
        rw [activeForBudgetExcluding_some]
        show (m.reservations.erase id).total _ + 1 ≤ _
        rw [Table.erase_of_none hfresh]
        exact hle
      · refine .inl (Nat.le_trans (le_of_eq ?_) (Nat.zero_le _))
        exact if_neg (Nat.not_lt.2 (le_of_eq (openReservation_activeFor hkey)))
  | @bound reservation raw upstream newKeys amounts hcall htrim hfound hnamed helse hcharged
      hreserved hlimits =>
      refine withinLimit_of_set hmakes.config hset hid h ?_
      by_cases hpos : 0 < (Effect.reservationAfter m.windows
          (.bound reservation upstream newKeys amounts)).activeFor key
      · obtain ⟨hkey, hout⟩ := bound_activeFor m.windows upstream hpos
        refine .inr fun hmax => ?_
        subst hreserved
        have hle := (bindingReason_eq_none.1 (hlimits henf key hkey)).concurrent hmax
        have hbinds := hcond _ _ _ _ rfl
        simp only [bindsInWindow, hcall, hfound, Bool.or_eq_true, decide_eq_true_eq,
          List.isEmpty_iff, Bool.not_eq_true', List.isEmpty_eq_false_iff] at hbinds
        rcases hbinds with (hsame | hnone) | hown
        · exact absurd (hsame.trans htrim.symm) helse
        · exact absurd hnone hout
        · have := List.length_pos_of_ne_nil hown
          show m.activeForBudgetExcluding key (some reservation.id) + 1 ≤ _
          omega
      · exact .inl (Nat.le_trans (le_of_eq (if_neg hpos)) (Nat.zero_le _))
  | @began reservation attemptID amounts htarget hfound hnamed hfresh hreserved hlimits =>
      refine withinLimit_of_set hmakes.config hset hid h ?_
      by_cases hkey : key ∈ reservation.budgetKeys
      · exact .inr fun hpos =>
          (limitReason_eq_none.1 (hlimits henf key hkey)).concurrent hpos
      · left
        rw [show m.reservations.get? (Effect.began reservation _).id = some reservation from hfound]
        exact holds_of_pos fun hpos => hpos.trans_eq (addAttempt_activeFor hfresh hkey)
  | @settled reservation attempt usage htarget hfound hnamed hbegun hfresh =>
      refine withinLimit_of_set hmakes.config hset hid h (.inl ?_)
      rw [show m.reservations.get? (Effect.settled reservation attempt _).id = some reservation
        from hfound]
      exact holds_of_pos (settled_activeFor_le m.windows _)
  | @released reservation hcall hfound =>
      intro hpos
      rw [hmakes.config] at hpos ⊢
      have hlimit := h hpos
      have hafter : m'.holders key =
          (m.reservations.erase reservation.id).total (fun r => r.holds key) := by
        unfold holders
        rw [hset]
        rfl
      have hsplit := Table.total_erase_of_some (f := fun r : ReservationState => r.holds key) hfound
      have : m.holders key = m.reservations.total (fun r => r.holds key) := rfl
      omega

/-! ## Runs -/

/-- A run whose bindings all count their attempts stays within every
concurrency limit. -/
theorem holders_le_maxConcurrent (m : Manager) (hfresh : m.Fresh) (henf : m.enforcing)
    (ops : List Op) (hops : Along perform (fun m op => m.bindsInWindow op = true) m ops) (key : String)
    (hlimit : 0 < (m.config.budgetForKey key).maxConcurrent) :
    (m.run ops).holders key ≤ (m.config.budgetForKey key).maxConcurrent := by
  have hinv : (m.run ops).enforcing ∧ (m.run ops).WithinLimit key := by
    refine Along.invariant (P := fun m => m.enforcing = true ∧ m.WithinLimit key) ?_ ?_ hops
    · rintro m op ⟨henf, hwithin⟩ hcond
      cases m.perform_transition op with
      | quiet hq => exact ⟨hq.enforcing.trans henf, withinLimit_of_quiet hq hwithin⟩
      | change hm =>
          exact ⟨hm.enforcing.trans henf,
            withinLimit_of_makes hm henf (fun _ _ _ _ _ => hcond) hwithin⟩
      | beginAndSettle hb hs =>
          have henf₁ := hb.enforcing.trans henf
          have hwithin₁ := withinLimit_of_makes hb henf nofun hwithin
          exact ⟨hs.enforcing.trans henf₁, withinLimit_of_makes hs henf₁ nofun hwithin₁⟩
    · refine ⟨henf, fun hpos => ?_⟩
      unfold holders
      rw [hfresh.reservations]
      exact Nat.zero_le _
  have hconfig := m.run_config ops
  have := hinv.2
  unfold WithinLimit at this
  rw [hconfig] at this
  exact this hlimit

/-- One place at the east upstream, none elsewhere. -/
def eastOnly : Manager where
  config :=
    { mode := .enforce
      budgets := [{ scope := .upstream, key := "east", maxConcurrent := 1 }] }

/-- Two clients admitted in one minute; the second one to bind does so in the
minute `late`. -/
def eastRun (late : Clock) : List Op :=
  let first : Clock := { now := minute, stamp := 0 }
  [⟨first, .admitWithContext false "a" { principal := "alice" }⟩,
   ⟨first, .admitWithContext false "b" { principal := "bob" }⟩,
   ⟨first, .bindUpstream "a" "east"⟩,
   ⟨late, .bindUpstream "b" "east"⟩]

theorem eastOnly_fresh : eastOnly.Fresh := ⟨rfl, rfl, rfl, rfl⟩

/-- Bound in the minute it was admitted in, the second client is refused. -/
theorem holders_eastRun_in_time :
    (eastOnly.run (eastRun { now := minute, stamp := 0 })).holders (Scope.upstream.key "east") ≤
      (eastOnly.config.budgetForKey (Scope.upstream.key "east")).maxConcurrent :=
  holders_le_maxConcurrent eastOnly eastOnly_fresh rfl _ (by decide +kernel) _ (by decide +kernel)

/-- Bound a minute later, it is let in beside the first. -/
theorem eastRun_late_exceeds_limit :
    ¬ ∀ m : Manager, m.Fresh → m.enforcing → ∀ (ops : List Op) (key : String),
      0 < (m.config.budgetForKey key).maxConcurrent →
        (m.run ops).holders key ≤ (m.config.budgetForKey key).maxConcurrent := by
  intro h
  have hle := h eastOnly eastOnly_fresh rfl (eastRun { now := 2 * minute, stamp := 0 })
    (Scope.upstream.key "east") (by decide +kernel)
  revert hle
  decide +kernel

end Manager

end RelayLifeline.Governance
