import RelayLifeline.Proofs.Attempts
import RelayLifeline.Proofs.Uncertain

/-!
# Which attempts are settled

The gateway settles an attempt by the result in its hands. After an exchange
that is the attempt's own; where no target was found it is made up, and carries
what the attempts before it wrote. So as long as no selection fails after a
written attempt, and what is sent is sent under a reservation, `Record` is
called for exactly the attempts that were sent and have something to settle.
-/

namespace RelayLifeline.Proxy

open Lib Lifecycle Registry

/-- The attempt whose course a happening is part of. -/
def Happening.course : Happening → Option Nat
  | .unselected n | .ended n _ _ | .begun n | .recorded n _ => some n
  | _ => none

/-- Nothing of the attempt has happened but that it was started. -/
def Point.ahead : Point → Bool
  | .select => true
  | point => point.unstarted

namespace Point.Leads

variable {point point' : Point}

theorem ahead (h : point.Leads point') (hahead : point'.ahead = true) :
    point.ahead = true ∧ point ≠ .select ∨ ∃ reason, point = .reacquire reason := by
  cases h <;> first
    | exact Bool.noConfusion hahead
    | exact .inr ⟨_, rfl⟩
    | exact .inl ⟨rfl, by simp⟩

theorem lease (h : point.Leads point') (hlease : point'.lease.isSome) :
    point = .select ∨ point.lease.isSome := by
  cases h <;> first
    | exact Bool.noConfusion hlease
    | exact .inl rfl
    | exact .inr rfl

theorem settle {result : AttemptResult} (h : point.Leads (.settle result)) :
    point = .select ∨ ∃ lease, point = .exchange lease := by
  cases h with
  | unselected => exact .inl rfl
  | exchanged lease => exact .inr ⟨lease, rfl⟩

end Point.Leads

namespace World

/-- A step that settles an attempt by what is its own: with a reservation, no
selection fails after a written attempt, and without one, no attempt that is
sent has anything to settle. -/
def settlesOwn (w : World) : Event → Bool
  | .handler a =>
      match w.handler.point with
      | .select =>
          w.handler.reservation.isNone || !w.handler.route.everWroteRequest ||
            (w.pool.manager.select a.now w.selection w.ctx a.waited).2.isOk
      | .exchange lease =>
          w.handler.reservation.isSome ||
            !(runAttemptForTarget (w.target lease) a.exchange).accountable
      | _ => true
  | _ => true

/-- `Record` was called for the attempts that were sent and have something to
settle, with what they have, and for no other. For an attempt that found no
target, nothing was called. -/
structure SettledExactly (w : World) : Prop where
  only : ∀ n usage, .recorded n usage ∈ w.log →
    ∃ target result, .ended n target result ∈ w.log ∧ result.accountable = true ∧
      usage = result.usage
  always : ∀ n target result, .ended n target result ∈ w.log → result.accountable = true →
    .recorded n result.usage ∈ w.log ∨ n = w.handler.attempt ∧ w.handler.point = .settle result
  apart : ∀ n, .unselected n ∈ w.log →
    .begun n ∉ w.log ∧ ∀ target result, .ended n target result ∉ w.log

/-- What the steps keep. -/
structure Settles (w : World) : Prop extends SettledExactly w where
  past : ∀ x ∈ w.log, ∀ n ∈ x.course,
    n ≤ w.handler.attempt ∧ (n = w.handler.attempt → w.handler.point.ahead = false)
  leased : w.handler.point.lease.isSome → .unselected w.handler.attempt ∉ w.log
  pending : ∀ result, w.handler.point = .settle result → result.accountable = true →
    (∃ target, .ended w.handler.attempt target result ∈ w.log) ∧ w.handler.reservation.isSome ∨
      w.handler.reservation = none ∧ ∀ target other, .ended w.handler.attempt target other ∉ w.log

variable {w w' : World}

/-- The log is the same as far as the course of an attempt goes. -/
def CourseKept (w w' : World) : Prop := ∀ x : Happening, x.course.isSome → (x ∈ w'.log ↔ x ∈ w.log)

theorem courseKept_of_append {x : Happening} (hx : x.course = none) (hlog : w'.log = w.log ++ [x]) :
    w.CourseKept w' := by
  intro y hy
  rw [hlog, List.mem_append, List.mem_singleton]
  refine ⟨fun h => h.resolve_right ?_, .inl⟩
  rintro rfl
  rw [hx] at hy
  cases hy

/-- A step beside the course of an attempt keeps the settlements: where it
settles nothing or leaves the handler alone. -/
theorem Settles.of_kept (h : Settles w) (hlog : w.CourseKept w')
    (hattempt : w.handler.attempt ≤ w'.handler.attempt)
    (hahead : w'.handler.point.ahead = true →
      w.handler.point.ahead = true ∨ w.handler.attempt < w'.handler.attempt)
    (hleased : w'.handler.point.lease.isSome →
      w.handler.point.lease.isSome ∧ w'.handler.attempt = w.handler.attempt)
    (hsettle : ∀ result, w.handler.point = .settle result → w'.handler = w.handler)
    (hsettle' : ∀ result, w'.handler.point = .settle result → w'.handler = w.handler) :
    Settles w' where
  only n usage hin := by
    obtain ⟨target, result, hended, haccountable⟩ := h.only n usage ((hlog _ rfl).1 hin)
    exact ⟨target, result, (hlog _ rfl).2 hended, haccountable⟩
  always n target result hin haccountable := by
    rcases h.always n target result ((hlog _ rfl).1 hin) haccountable with hrecorded | ⟨hn, hpoint⟩
    · exact .inl ((hlog _ rfl).2 hrecorded)
    · rw [hsettle result hpoint]
      exact .inr ⟨hn, hpoint⟩
  apart n hin := by
    obtain ⟨hbegun, hended⟩ := h.apart n ((hlog _ rfl).1 hin)
    exact ⟨fun hin => hbegun ((hlog _ rfl).1 hin),
      fun target result hin => hended target result ((hlog _ rfl).1 hin)⟩
  past x hin n hn := by
    have hcourse : x.course.isSome := Option.isSome_iff_exists.2 ⟨n, hn⟩
    obtain ⟨hle, hpast⟩ := h.past x ((hlog x hcourse).1 hin) n hn
    refine ⟨Nat.le_trans hle hattempt, fun heq => ?_⟩
    by_contra hnot
    rw [Bool.not_eq_false] at hnot
    rcases hahead hnot with hold | hlt
    · rw [hpast (Nat.le_antisymm hle (heq ▸ hattempt))] at hold
      cases hold
    · omega
  leased hlease := by
    obtain ⟨hold, heq⟩ := hleased hlease
    rw [heq]
    exact fun hin => h.leased hold ((hlog _ rfl).1 hin)
  pending result hpoint haccountable := by
    have hsame := hsettle' result hpoint
    rw [hsame] at hpoint ⊢
    refine (h.pending result hpoint haccountable).imp (fun hown => ?_) (fun hnone => ?_)
    · obtain ⟨⟨target, hended⟩, hsome⟩ := hown
      exact ⟨⟨target, (hlog _ rfl).2 hended⟩, hsome⟩
    · exact ⟨hnone.1, fun target other hin => hnone.2 target other ((hlog _ rfl).1 hin)⟩

/-! ## A step of the handler -/

/-- Nothing is logged of the attempt before its selection. -/
theorem Settles.not_mem_of_ahead (h : Settles w) (hahead : w.handler.point.ahead = true)
    {x : Happening} (hx : x.course = some w.handler.attempt) : x ∉ w.log := by
  intro hin
  have := (h.past x hin w.handler.attempt hx).2 rfl
  rw [hahead] at this
  cases this

/-- Where no result is being settled, every one there was is recorded. -/
theorem Settles.recorded_of_ne (h : Settles w)
    (hpoint : ∀ result, w.handler.point ≠ .settle result) :
    ∀ n target result, .ended n target result ∈ w.log → result.accountable = true →
      .recorded n result.usage ∈ w.log := by
  intro n target result hin haccountable
  exact (h.always n target result hin haccountable).resolve_right fun hpending =>
    hpoint result hpending.2

/-- A selection fails, or its lease is what the attempt goes on with. -/
theorem select_cases (w : World) (a : Answer) :
    ∃ pool log point, w.select a = { w with pool := pool, log := log, handler.point := point } ∧
      ((w.pool.manager.select a.now w.selection w.ctx a.waited).2.isOk = false ∧
          log = w.log ++ [.unselected w.handler.attempt] ∧
          (∃ err, point = .settle (unselectedResult err w.handler.route.previousTargetID
            w.handler.route.previousTargetDomain w.handler.route.everWroteRequest)) ∨
        log = w.log ∧ ∃ lease, point = .bindUpstream lease) := by
  rw [World.select]
  generalize w.pool.manager.select a.now w.selection w.ctx a.waited = selected
  split
  next err herr => exact ⟨_, _, _, rfl, .inl ⟨by rw [herr]; rfl, rfl, err, rfl⟩⟩
  next => exact ⟨_, _, _, rfl, .inr ⟨rfl, _, rfl⟩⟩

theorem Settles.select (h : Settles w) (a : Answer) (hpoint : w.handler.point = .select)
    (hown : w.settlesOwn (.handler a) = true) : Settles (w.select a) := by
  have hahead : w.handler.point.ahead = true := by rw [hpoint]; rfl
  have hfresh : ∀ {x : Happening}, x.course = some w.handler.attempt → x ∉ w.log :=
    h.not_mem_of_ahead hahead
  have hrecorded := h.recorded_of_ne fun _ heq => Point.noConfusion (hpoint.symm.trans heq)
  simp only [settlesOwn, hpoint, Bool.or_eq_true, Bool.not_eq_true'] at hown
  obtain ⟨pool, log, point, heq, ⟨hfails, rfl, err, rfl⟩ | ⟨rfl, lease, rfl⟩⟩ := w.select_cases a
  · have hnew {x : Happening} (hx : ∀ n, x ≠ .unselected n) :
        x ∈ w.log ++ [.unselected w.handler.attempt] ↔ x ∈ w.log := by
      rw [List.mem_append, List.mem_singleton]
      exact ⟨fun hin => hin.resolve_right (hx _), .inl⟩
    rw [heq]
    refine ⟨⟨fun n usage hin => ?_, fun n target result hin haccountable => ?_, fun n hin => ?_⟩,
      fun x hin n hn => ?_, fun hlease => ?_, fun result hin haccountable => ?_⟩
    · obtain ⟨target, result, hended, hresult⟩ := h.only n usage ((hnew (by simp)).1 hin)
      exact ⟨target, result, (hnew (by simp)).2 hended, hresult⟩
    · exact .inl ((hnew (by simp)).2 (hrecorded n target result ((hnew (by simp)).1 hin) haccountable))
    · rcases List.mem_append.1 hin with hin | hin
      · obtain ⟨hbegun, hended⟩ := h.apart n hin
        exact ⟨fun hin => hbegun ((hnew (by simp)).1 hin),
          fun target result hin => hended target result ((hnew (by simp)).1 hin)⟩
      · obtain rfl := Happening.unselected.inj (List.mem_singleton.1 hin)
        exact ⟨fun hin => hfresh rfl ((hnew (by simp)).1 hin),
          fun target result hin => hfresh rfl ((hnew (by simp)).1 hin)⟩
    · refine ⟨?_, fun _ => rfl⟩
      rcases List.mem_append.1 hin with hin | hin
      · exact (h.past x hin n hn).1
      · rw [List.mem_singleton.1 hin] at hn
        exact Nat.le_of_eq (Option.some.inj hn).symm
    · cases hlease
    · -- the made-up result has something to settle only by what was written before
      obtain rfl := Point.settle.inj hin
      rw [hfails] at hown
      rcases hown with (hnone | hunwritten) | hok
      · exact .inr ⟨Option.isNone_iff_eq_none.1 hnone,
          fun target other hin => hfresh rfl ((hnew (by simp)).1 hin)⟩
      · simp [AttemptResult.accountable, unselectedResult, hunwritten] at haccountable
      · cases hok
  · rw [heq]
    exact ⟨⟨h.only, fun n target result hin haccountable =>
      .inl (hrecorded n target result hin haccountable), h.apart⟩,
      fun x hin n hn => ⟨(h.past x hin n hn).1, fun _ => rfl⟩, fun _ => hfresh rfl,
      fun result hin => Point.noConfusion hin⟩

/-- An attempt that is sent has been logged neither as sent nor as unselected. -/
theorem Settles.exchange (h : Settles w) (a : Answer) {lease : Nat}
    (hpoint : w.handler.point = .exchange lease) (hown : w.settlesOwn (.handler a) = true) :
    Settles (w.exchange a lease) := by
  have hunselected : .unselected w.handler.attempt ∉ w.log := h.leased (by rw [hpoint]; rfl)
  have hrecorded := h.recorded_of_ne fun _ heq => Point.noConfusion (hpoint.symm.trans heq)
  simp only [settlesOwn, hpoint, Bool.or_eq_true, Bool.not_eq_true'] at hown
  simp only [World.exchange, goto, note]
  generalize runAttemptForTarget (w.target lease) a.exchange = result at hown
  have hnew {x : Happening} (hx : ∀ n target result, x ≠ .ended n target result) :
      x ∈ w.log ++ [.ended w.handler.attempt (w.target lease) result] ↔ x ∈ w.log := by
    rw [List.mem_append, List.mem_singleton]
    exact ⟨fun hin => hin.resolve_right (hx _ _ _), .inl⟩
  refine ⟨⟨fun n usage hin => ?_, fun n target other hin haccountable => ?_, fun n hin => ?_⟩,
    fun x hin n hn => ?_, fun hlease => ?_, fun other hin haccountable => ?_⟩
  · obtain ⟨target, other, hended, hother⟩ := h.only n usage ((hnew (by simp)).1 hin)
    exact ⟨target, other, List.mem_append_left _ hended, hother⟩
  · rcases List.mem_append.1 hin with hin | hin
    · exact .inl ((hnew (by simp)).2 (hrecorded n target other hin haccountable))
    · obtain ⟨rfl, -, rfl⟩ := Happening.ended.inj (List.mem_singleton.1 hin)
      exact .inr ⟨rfl, rfl⟩
  · have hold := (hnew (by simp)).1 hin
    obtain ⟨hbegun, hended⟩ := h.apart n hold
    refine ⟨fun hin => hbegun ((hnew (by simp)).1 hin), fun target other hin => ?_⟩
    rcases List.mem_append.1 hin with hin | hin
    · exact hended target other hin
    · obtain ⟨rfl, -⟩ := Happening.ended.inj (List.mem_singleton.1 hin)
      exact hunselected hold
  · refine ⟨?_, fun _ => rfl⟩
    rcases List.mem_append.1 hin with hin | hin
    · exact (h.past x hin n hn).1
    · rw [List.mem_singleton.1 hin] at hn
      exact Nat.le_of_eq (Option.some.inj hn).symm
  · cases hlease
  · obtain rfl := Point.settle.inj hin
    rw [haccountable] at hown
    exact .inl ⟨⟨_, List.mem_append_right _ List.mem_cons_self⟩,
      hown.resolve_right Bool.noConfusion⟩

theorem Settles.bindUpstream (h : Settles w) (a : Answer) {lease : Nat}
    (hpoint : w.handler.point = .bindUpstream lease) : Settles (w.bindUpstream a lease) := by
  have hleased : w.handler.point.lease.isSome := by rw [hpoint]; rfl
  obtain ⟨governance, log, point, heq, hlog, hto⟩ := w.bindUpstream_cases a lease
  have hafter : point.ahead = false ∧ ∀ result, point ≠ .settle result := by
    rcases hto with rfl | rfl | ⟨reason, rfl⟩
    · exact ⟨rfl, fun _ => Point.noConfusion⟩
    · exact ⟨rfl, fun _ => Point.noConfusion⟩
    · exact ⟨rfl, fun _ => Point.noConfusion⟩
  have hnew {x : Happening} (hx : ∀ n, x ≠ .begun n) : x ∈ log ↔ x ∈ w.log := by
    rcases hlog with rfl | rfl
    · exact Iff.rfl
    · rw [List.mem_append, List.mem_singleton]
      exact ⟨fun hin => hin.resolve_right (hx _), .inl⟩
  rw [heq]
  refine ⟨⟨fun n usage hin => ?_, fun n target result hin haccountable => ?_, fun n hin => ?_⟩,
    fun x hin n hn => ?_, fun _ hin => h.leased hleased ((hnew (by simp)).1 hin),
    fun result hin => absurd hin (hafter.2 result)⟩
  · obtain ⟨target, result, hended, hresult⟩ := h.only n usage ((hnew (by simp)).1 hin)
    exact ⟨target, result, (hnew (by simp)).2 hended, hresult⟩
  · rcases h.always n target result ((hnew (by simp)).1 hin) haccountable with hrecorded | hpending
    · exact .inl ((hnew (by simp)).2 hrecorded)
    · rw [hpoint] at hpending
      cases hpending.2
  · have hold := (hnew (by simp)).1 hin
    obtain ⟨hbegun, hended⟩ := h.apart n hold
    refine ⟨fun hin => ?_, fun target result hin => hended target result ((hnew (by simp)).1 hin)⟩
    rcases hlog with rfl | rfl
    · exact hbegun hin
    · rcases List.mem_append.1 hin with hin | hin
      · exact hbegun hin
      · obtain rfl := Happening.begun.inj (List.mem_singleton.1 hin)
        exact h.leased hleased hold
  · refine ⟨?_, fun _ => hafter.1⟩
    rcases hlog with rfl | rfl
    · exact (h.past x hin n hn).1
    · rcases List.mem_append.1 hin with hin | hin
      · exact (h.past x hin n hn).1
      · rw [List.mem_singleton.1 hin] at hn
        exact Nat.le_of_eq (Option.some.inj hn).symm

/-- `Record` is called where there is a reservation and something to settle. -/
theorem settle_recorded (w : World) (a : Answer) (result : AttemptResult) :
    ∃ governance log point, w.settle a result =
        { w with governance := governance, log := log, handler.point := point } ∧
      (log = w.log ∧ (w.handler.reservation = none ∨ result.accountable = false) ∨
        w.handler.reservation.isSome ∧ result.accountable = true ∧
          log = w.log ++ [.recorded w.handler.attempt result.usage]) ∧
      (point = .judge result ∨ point = .fail persistenceUnavailable) := by
  rw [World.settle]
  split
  next hnone => exact ⟨_, _, _, rfl, .inl ⟨rfl, .inl hnone⟩, .inl rfl⟩
  next id hid =>
    split
    next haccountable =>
      have hrecorded : w.handler.reservation.isSome ∧ result.accountable = true ∧
          w.log ++ [.recorded w.handler.attempt result.usage] =
            w.log ++ [.recorded w.handler.attempt result.usage] :=
        ⟨by rw [hid]; rfl, haccountable, rfl⟩
      dsimp only
      split
      · exact ⟨_, _, _, rfl, .inr hrecorded, .inr rfl⟩
      · exact ⟨_, _, _, rfl, .inr hrecorded, .inl rfl⟩
    next hnot => exact ⟨_, _, _, rfl, .inl ⟨rfl, .inr (Bool.eq_false_iff.2 hnot)⟩, .inl rfl⟩

theorem Settles.settle (h : Settles w) (a : Answer) {result : AttemptResult}
    (hpoint : w.handler.point = .settle result) : Settles (w.settle a result) := by
  obtain ⟨governance, log, point, heq, hlog, hto⟩ := w.settle_recorded a result
  have hafter : point.ahead = false ∧ point.lease = none ∧ ∀ result, point ≠ .settle result := by
    rcases hto with rfl | rfl
    · exact ⟨rfl, rfl, fun _ => Point.noConfusion⟩
    · exact ⟨rfl, rfl, fun _ => Point.noConfusion⟩
  have hnew {x : Happening} (hx : ∀ n usage, x ≠ .recorded n usage) : x ∈ log ↔ x ∈ w.log := by
    rcases hlog with ⟨rfl, -⟩ | ⟨-, -, rfl⟩
    · exact Iff.rfl
    · rw [List.mem_append, List.mem_singleton]
      exact ⟨fun hin => hin.resolve_right (hx _ _), .inl⟩
  have hkept {x : Happening} (hin : x ∈ w.log) : x ∈ log := by
    rcases hlog with ⟨rfl, -⟩ | ⟨-, -, rfl⟩
    · exact hin
    · exact List.mem_append_left _ hin
  rw [heq]
  refine ⟨⟨fun n usage hin => ?_, fun n target other hin haccountable => ?_, fun n hin => ?_⟩,
    fun x hin n hn => ?_, fun hlease => ?_, fun other hin => absurd hin (hafter.2.2 other)⟩
  · have hold (hin : .recorded n usage ∈ w.log) : ∃ target result,
        .ended n target result ∈ log ∧ result.accountable = true ∧ usage = result.usage := by
      obtain ⟨target, other, hended, hother⟩ := h.only n usage hin
      exact ⟨target, other, hkept hended, hother⟩
    rcases hlog with ⟨rfl, -⟩ | ⟨hsome, haccountable, rfl⟩
    · exact hold hin
    · rcases List.mem_append.1 hin with hin | hin
      · exact hold hin
      · -- what is settled is the attempt's own
        obtain ⟨rfl, rfl⟩ := Happening.recorded.inj (List.mem_singleton.1 hin)
        rcases h.pending result hpoint haccountable with ⟨⟨target, hended⟩, -⟩ | ⟨hnone, -⟩
        · exact ⟨target, result, hkept hended, haccountable, rfl⟩
        · rw [hnone] at hsome
          cases hsome
  · have hended := (hnew (by simp)).1 hin
    left
    rcases h.always n target other hended haccountable with hrecorded | ⟨rfl, hother⟩
    · exact hkept hrecorded
    · obtain rfl := Point.settle.inj (hpoint.symm.trans hother)
      rcases h.pending result hpoint haccountable with ⟨-, hsome⟩ | ⟨-, hnone⟩
      · rcases hlog with ⟨-, hnone | hnot⟩ | ⟨-, -, rfl⟩
        · rw [hnone] at hsome
          cases hsome
        · rw [haccountable] at hnot
          cases hnot
        · exact List.mem_append_right _ List.mem_cons_self
      · exact absurd hended (hnone target result)
  · obtain ⟨hbegun, hended⟩ := h.apart n ((hnew (by simp)).1 hin)
    exact ⟨fun hin => hbegun ((hnew (by simp)).1 hin),
      fun target other hin => hended target other ((hnew (by simp)).1 hin)⟩
  · refine ⟨?_, fun _ => hafter.1⟩
    rcases hlog with ⟨rfl, -⟩ | ⟨-, -, rfl⟩
    · exact (h.past x hin n hn).1
    · rcases List.mem_append.1 hin with hin | hin
      · exact (h.past x hin n hn).1
      · rw [List.mem_singleton.1 hin] at hn
        exact Nat.le_of_eq (Option.some.inj hn).symm
  · rw [hafter.2.1] at hlease
    cases hlease

/-- The way back into the loop leads to the next attempt. -/
theorem attempt_lt_reacquire (w : World) (a : Answer) {reason : String}
    (hpoint : w.handler.point = .reacquire reason)
    (hahead : (w.handle a).handler.point.ahead = true) :
    w.handler.attempt < (w.handle a).handler.attempt := by
  have heq : w.handle a = w.reacquire a reason := by simp only [World.handle, hpoint]
  rw [heq] at hahead ⊢
  rw [World.reacquire] at hahead ⊢
  dsimp only at hahead ⊢
  split at hahead
  · exact Nat.lt_succ_self _
  · cases hahead
  · split at hahead
    · cases hahead
    · rw [hpoint] at hahead
      cases hahead

/-- Every other step of the handler logs nothing of an attempt's course. -/
theorem Settles.beside (h : Settles w) (a : Answer) (hselect : w.handler.point ≠ .select)
    (hbind : ∀ lease, w.handler.point ≠ .bindUpstream lease)
    (hexchange : ∀ lease, w.handler.point ≠ .exchange lease)
    (hsettle : ∀ result, w.handler.point ≠ .settle result) : Settles (w.handle a) := by
  have hlog : w.CourseKept (w.handle a) := by
    rcases w.handle_log a with heq | ⟨x, hnotes, heq⟩
    · intro y _
      rw [heq]
    · refine courseKept_of_append ?_ heq
      cases hnotes with
      | started => rfl
      | unselected hpoint => exact absurd hpoint hselect
      | begun lease hpoint => exact absurd hpoint (hbind lease)
      | ended lease hpoint => exact absurd hpoint (hexchange lease)
      | recorded result hpoint => exact absurd hpoint (hsettle result)
      | uncertain => rfl
  have hpoint' (result : AttemptResult) : (w.handle a).handler.point ≠ .settle result := by
    rcases w.handle_leads a with heq | hleads
    · rw [heq]
      exact hsettle result
    · intro hto
      rw [hto] at hleads
      rcases hleads.settle with hpoint | ⟨lease, hpoint⟩
      · exact hselect hpoint
      · exact hexchange lease hpoint
  refine h.of_kept hlog ?_ (fun hahead => ?_) (fun hlease => ?_)
    (fun result hin => absurd hin (hsettle result)) (fun result hin => absurd hin (hpoint' result))
  · rcases w.handle_attempt a with heq | ⟨-, heq, -⟩
    · exact Nat.le_of_eq heq.symm
    · rw [heq]
      exact Nat.le_succ _
  · rcases w.handle_leads a with heq | hleads
    · rw [heq] at hahead
      exact .inl hahead
    · refine (hleads.ahead hahead).imp And.left fun hreacquire => ?_
      obtain ⟨reason, hpoint⟩ := hreacquire
      exact w.attempt_lt_reacquire a hpoint hahead
  · have hnew : (w.handle a).handler.point ≠ .loop := by
      intro hloop
      rw [hloop] at hlease
      cases hlease
    refine ⟨?_, (w.handle_attempt a).resolve_right fun hmoved => hnew hmoved.2.2⟩
    rcases w.handle_leads a with heq | hleads
    · rwa [heq] at hlease
    · exact (hleads.lease hlease).resolve_left hselect

theorem Settles.handle (h : Settles w) (a : Answer) (hown : w.settlesOwn (.handler a) = true) :
    Settles (w.handle a) := by
  by_cases hselect : w.handler.point = .select
  · have heq : w.handle a = w.select a := by simp only [World.handle, hselect]
    rw [heq]
    exact h.select a hselect hown
  by_cases hbind : ∃ lease, w.handler.point = .bindUpstream lease
  · obtain ⟨lease, hpoint⟩ := hbind
    have heq : w.handle a = w.bindUpstream a lease := by simp only [World.handle, hpoint]
    rw [heq]
    exact h.bindUpstream a hpoint
  by_cases hexchange : ∃ lease, w.handler.point = .exchange lease
  · obtain ⟨lease, hpoint⟩ := hexchange
    have heq : w.handle a = w.exchange a lease := by simp only [World.handle, hpoint]
    rw [heq]
    exact h.exchange a hpoint hown
  by_cases hsettle : ∃ result, w.handler.point = .settle result
  · obtain ⟨result, hpoint⟩ := hsettle
    have heq : w.handle a = w.settle a result := by simp only [World.handle, hpoint]
    rw [heq]
    exact h.settle a hpoint
  exact h.beside a hselect (fun lease hpoint => hbind ⟨lease, hpoint⟩)
    (fun lease hpoint => hexchange ⟨lease, hpoint⟩) (fun result hpoint => hsettle ⟨result, hpoint⟩)

/-! ## Runs -/

theorem Settles.step (h : Settles w) (event : Event) (hown : w.settlesOwn event = true) :
    Settles (w.step event) := by
  by_cases hevent : ∃ answer, event = .handler answer
  · obtain ⟨answer, rfl⟩ := hevent
    exact h.handle answer hown
  · have hout := w.step_outside event fun answer heq => hevent ⟨answer, heq⟩
    have hlog : w.CourseKept (w.step event) := by
      rcases hout.log with heq | heq
      · intro x _
        rw [heq]
      · exact courseKept_of_append rfl heq
    refine h.of_kept hlog ?_ (fun hahead => ?_) (fun hlease => ?_) (fun _ _ => hout.handler)
      (fun _ _ => hout.handler)
    · rw [hout.handler]
    · rw [hout.handler] at hahead
      exact .inl hahead
    · rw [hout.handler] at hlease ⊢
      exact ⟨hlease, rfl⟩

theorem settles_start (request : Request) (config : Config) (governance : Governance.Manager)
    (pool : Upstream.Pool) : Settles (start request config governance pool) where
  only n usage hin := by cases hin
  always n target result hin := by cases hin
  apart n hin := by cases hin
  past x hin := by cases hin
  leased hlease := by cases hlease
  pending result hpoint := by cases hpoint

/-- **Attempts are settled exactly**, in every state of a run that settles an
attempt by what is its own. -/
theorem settled_exactly (request : Request) (config : Config) (governance : Governance.Manager)
    (pool : Upstream.Pool) {events : List Event}
    (hown : Along step (fun w event => w.settlesOwn event = true)
      (start request config governance pool) events) :
    SettledExactly ((start request config governance pool).run events) :=
  (Along.invariant (fun _ event h hown => h.step event hown)
    (settles_start request config governance pool) hown).toSettledExactly

/-- A written attempt that gets no response is settled as it is. -/
theorem settled_exactly_lostResponse :
    SettledExactly ((before {} everySecond).run lostResponse) ∧
      .recorded 1 ⟨0, 0, 0, false⟩ ∈ ((before {} everySecond).run lostResponse).log :=
  ⟨settled_exactly {} everySecond _ _ (by decide +kernel), by decide +kernel⟩

/-- The second attempt found no target, and is settled all the same. -/
theorem not_settled_exactly_errorThenNone :
    ¬ SettledExactly ((before fragile everySecond).run (errorThenNone ++ stepsAt second 1)) := by
  intro h
  have hrecorded : ∃ usage, .recorded 2 usage ∈
      ((before fragile everySecond).run (errorThenNone ++ stepsAt second 1)).log :=
    ⟨⟨0, 0, 0, false⟩, by decide +kernel⟩
  obtain ⟨usage, hin⟩ := hrecorded
  obtain ⟨target, result, hended, -⟩ := h.only 2 usage hin
  have hsecond : 2 ∉ ((before fragile everySecond).run (errorThenNone ++ stepsAt second 1)).endings := by
    decide +kernel
  exact hsecond (mem_endings hended)

end World

end RelayLifeline.Proxy
