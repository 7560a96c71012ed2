import RelayLifeline.Proofs.Settlement
import RelayLifeline.Proofs.Slots

/-!
# A request holds one slot

An admission opens attempt 1, and `BeginAttempt` adds one attempt for each later
one that finds a target. `Record` takes an attempt away, and it is called for an
attempt that has something to settle. So an attempt that fails before anything
was written keeps its slot, and the next one takes another: a request holds one
slot at most where every attempt that is followed by another had something to
settle.
-/

namespace RelayLifeline.Proxy

open Lib Lifecycle Registry

/-- `BeginAttempt` has not yet added the attempt. -/
def Point.unopened : Point → Bool
  | .bindUpstream _ | .beginAttempt _ => true
  | point => point.ahead

/-- The attempt has not been sent. -/
def Point.unsent : Point → Bool
  | .exchange _ => true
  | point => point.unopened

/-- The request has no reservation yet. -/
def Point.early : Point → Bool
  | .evaluatePolicy | .admitContext => true
  | _ => false

namespace Point.Leads

variable {point point' : Point}

theorem unopened (h : point.Leads point') (hunopened : point'.unopened = true) :
    point.unopened = true ∨ ∃ reason, point = .reacquire reason := by
  cases h <;> first
    | exact Bool.noConfusion hunopened
    | exact .inr ⟨_, rfl⟩
    | exact .inl rfl

theorem unsent (h : point.Leads point') (hunsent : point'.unsent = true) :
    point.unsent = true ∨ ∃ reason, point = .reacquire reason := by
  cases h <;> first
    | exact Bool.noConfusion hunsent
    | exact .inr ⟨_, rfl⟩
    | exact .inl rfl

theorem early (h : point.Leads point') (hearly : point'.early = true) : point.early = true := by
  cases h <;> first
    | exact Bool.noConfusion hearly
    | rfl

theorem beginAttempt {lease : Nat} (h : point.Leads (.beginAttempt lease)) :
    point = .bindUpstream lease := by
  cases h with
  | rebound => rfl

theorem exchange {lease : Nat} (h : point.Leads (.exchange lease)) :
    point = .bindUpstream lease ∨ point = .beginAttempt lease := by
  cases h with
  | bound => exact .inl rfl
  | begun => exact .inr rfl

theorem reacquired {reason : String} (h : (Point.reacquire reason).Leads point')
    (hunsent : point'.unsent = true) : point'.ahead = true := by
  cases h <;> first
    | rfl
    | exact Bool.noConfusion hunsent

end Point.Leads

theorem Point.unsent_of_unopened {point : Point} (h : point.unopened = true) :
    point.unsent = true := by
  cases point <;> first | rfl | exact Bool.noConfusion h

theorem attemptName_inj {n k : Nat} (h : attemptName n = attemptName k) : n = k := by
  have hchars : (toString n).toList = (toString k).toList := by
    have hlist := congrArg String.toList h
    rw [attemptName, attemptName, String.toList_append, String.toList_append] at hlist
    exact List.append_cancel_left hlist
  rw [Nat.toString_eq_repr, Nat.repr, String.toList_ofList, Nat.toString_eq_repr, Nat.repr,
    String.toList_ofList] at hchars
  have hdigits := congrArg (Nat.ofDigitChars 10 · 0) hchars
  simpa using hdigits

namespace World

/-- The attempt was sent, and has something to settle. -/
def accounted (w : World) (n : Nat) : Bool :=
  w.log.any fun
    | .ended m _ result => m = n && result.accountable
    | _ => false

theorem accounted_iff {w : World} {n : Nat} : w.accounted n = true ↔
    ∃ target result, .ended n target result ∈ w.log ∧ result.accountable = true := by
  rw [accounted, List.any_eq_true]
  constructor
  · rintro ⟨x, hin, hx⟩
    cases x with
    | ended m target result =>
      simp only [Bool.and_eq_true, decide_eq_true_eq] at hx
      obtain ⟨rfl, hx⟩ := hx
      exact ⟨target, result, hin, hx⟩
    | _ => cases hx
  · rintro ⟨target, result, hin, haccountable⟩
    exact ⟨_, hin, by simp [haccountable]⟩

/-- The handler's reservation, as the manager has it. -/
def ownReservation (w : World) : Option Governance.ReservationState :=
  w.handler.reservation.bind w.governance.reservations.get?

/-- Its attempts. -/
def reserved (w : World) : List Governance.AttemptState :=
  match w.ownReservation with
  | some reservation => reservation.attempts.items
  | none => []

/-- Those that hold a slot. -/
def outstanding (w : World) : List Governance.AttemptState :=
  w.reserved.filter Governance.AttemptState.outstanding

/-- The handler is about to call `BeginAttempt`, or has called it and the
attempt is about to be added. -/
def begins (w : World) : Bool :=
  match w.handler.point with
  | .bindUpstream _ => w.handler.reservation.isSome && decide (w.handler.attempt ≠ 1)
  | .beginAttempt _ => true
  | _ => false

/-- A step that leaves no slot behind: where an attempt has found a target, each
earlier one that the reservation has was sent and had something to settle; and a
settlement is written down where the manager enforces. An enforcing handler may
find that it was not, of an attempt that had a target, since it stops there. -/
def keepsOneSlot (w : World) : Event → Bool
  | .handler _ =>
      match w.handler.point with
      | .bindUpstream _ => (List.range w.handler.attempt).all fun n =>
          w.reserved.all (fun attempt => decide (attempt.id ≠ attemptName n)) || w.accounted n
      | .settle result =>
          w.handler.reservation.isNone || !result.accountable ||
            w.handler.cfg.enforcing && decide (.unselected w.handler.attempt ∉ w.log) ||
            decide ((attemptName w.handler.attempt).utf8ByteSize ≤ 128) &&
              (!w.governance.enforcing || w.governance.takes 2)
      | _ => true
  | _ => true

theorem mem_reserved {w : World} {id : String} {reservation : Governance.ReservationState}
    (hid : w.handler.reservation = some id)
    (hget : w.governance.reservations.get? id = some reservation) :
    w.reserved = reservation.attempts.items := by
  rw [reserved, ownReservation, hid, Option.bind_some, hget]

/-- What is known of the reservation the handler has. -/
structure Occupies (w : World) (id : String) : Prop where
  tidy : w.governance.Tidy id
  begun : ∀ name, w.governance.Busy id name → ∃ n, name = attemptName n ∧ 1 ≤ n ∧
    n ≤ w.handler.attempt ∧ (n = w.handler.attempt → w.handler.point.unopened = true → n = 1)
  one : ∀ name name', w.governance.Busy id name → w.governance.Busy id name' → name = name'
  /-- What is sent holds the slot, if anything does. -/
  own : (∃ lease, w.handler.point = .exchange lease) ∨
      (∃ result, w.handler.point = .settle result) ∧ .unselected w.handler.attempt ∉ w.log →
    ∀ name, w.governance.Busy id name → name = attemptName w.handler.attempt
  free : ∀ lease, w.handler.point = .beginAttempt lease → ∀ name, ¬ w.governance.Busy id name
  /-- What has something to settle is settled before the handler goes on. -/
  unsettled : ∀ n target result, .ended n target result ∈ w.log → result.accountable = true →
    w.governance.Busy id (attemptName n) → n = w.handler.attempt ∧
      (w.handler.point = .settle result ∨ w.handler.point.exiting = true)

structure Single (w : World) : Prop where
  positive : 1 ≤ w.handler.attempt
  early : w.handler.point.early = true → w.handler.attempt = 1 ∧ w.handler.reservation = none
  sent : ∀ n target result, .ended n target result ∈ w.log →
    n ≤ w.handler.attempt ∧ (n = w.handler.attempt → w.handler.point.unsent = false)
  held : ∀ id, w.handler.reservation = some id → w.Occupies id

variable {w w' : World}

/-! ## Steps that begin and settle nothing -/

/-- No more attempts have ended. -/
def SlotsKept (w w' : World) : Prop :=
  ∀ n target result, .ended n target result ∈ w'.log → .ended n target result ∈ w.log

/-- The ways a step may take that begins and settles nothing. -/
structure GoesOn (w w' : World) : Prop where
  attempt : w'.handler.attempt = w.handler.attempt ∨
    w.handler.attempt < w'.handler.attempt ∧ w.handler.point.exiting = false ∧
      (∀ result, w.handler.point ≠ .settle result)
  unopened : w'.handler.point.unopened = true →
    w.handler.point.unopened = true ∨ w.handler.attempt < w'.handler.attempt
  unsent : w'.handler.point.unsent = true →
    w.handler.point.unsent = true ∨ w.handler.attempt < w'.handler.attempt
  early : w'.handler.point.early = true →
    w.handler.point.early = true ∧ w'.handler.attempt = w.handler.attempt
  beginAttempt : ∀ lease, w'.handler.point = .beginAttempt lease →
    w.handler.point = .beginAttempt lease ∧ w'.handler.attempt = w.handler.attempt
  exchange : ∀ lease, w'.handler.point = .exchange lease →
    w.handler.point = .exchange lease ∧ w'.handler.attempt = w.handler.attempt
  settle : ∀ result, w'.handler.point = .settle result →
    w.handler.point = .settle result ∧ w'.handler.attempt = w.handler.attempt ∧
        (.unselected w'.handler.attempt ∉ w'.log → .unselected w.handler.attempt ∉ w.log) ∨
      .unselected w'.handler.attempt ∈ w'.log
  settled : ∀ result, w.handler.point = .settle result → w'.handler.point = .settle result
  exiting : w.handler.point.exiting = true → w'.handler.point.exiting = true

theorem GoesOn.attempt_le (h : GoesOn w w') : w.handler.attempt ≤ w'.handler.attempt := by
  rcases h.attempt with heq | ⟨hlt, -⟩
  · exact Nat.le_of_eq heq.symm
  · exact Nat.le_of_lt hlt

theorem Occupies.of_kept {id : String} (h : w.Occupies id) (hlog : SlotsKept w w')
    (hgoes : GoesOn w w')
    (hbusy : ∀ name, w'.governance.Busy id name → w.governance.Busy id name)
    (htidy : w'.governance.Tidy id) : w'.Occupies id where
  tidy := htidy
  begun name hname := by
    obtain ⟨n, rfl, hpos, hle, hunopened⟩ := h.begun name (hbusy name hname)
    have hattempt := hgoes.attempt_le
    refine ⟨n, rfl, hpos, Nat.le_trans hle hattempt, fun heq hto => ?_⟩
    rcases hgoes.unopened hto with hold | hlt
    · exact hunopened (Nat.le_antisymm hle (heq ▸ hattempt)) hold
    · omega
  one name name' hname hname' := h.one name name' (hbusy name hname) (hbusy name' hname')
  own hpoint name hname := by
    rcases hpoint with ⟨lease, hpoint⟩ | ⟨⟨result, hpoint⟩, hselected⟩
    · obtain ⟨hold, heq⟩ := hgoes.exchange lease hpoint
      rw [heq]
      exact h.own (.inl ⟨lease, hold⟩) name (hbusy name hname)
    · rcases hgoes.settle result hpoint with ⟨hold, heq, hselected'⟩ | hunselected
      · rw [heq]
        exact h.own (.inr ⟨⟨result, hold⟩, hselected' hselected⟩) name (hbusy name hname)
      · exact absurd hunselected hselected
  free lease hpoint := by
    obtain ⟨hold, -⟩ := hgoes.beginAttempt lease hpoint
    exact fun name hname => h.free lease hold name (hbusy name hname)
  unsettled n target result hin haccountable hname := by
    obtain ⟨heq, hpoint⟩ := h.unsettled n target result (hlog n target result hin)
      haccountable (hbusy _ hname)
    have hsame : w'.handler.attempt = w.handler.attempt := by
      rcases hgoes.attempt with hsame | ⟨-, hexiting, hsettle⟩
      · exact hsame
      · rcases hpoint with hpoint | hpoint
        · exact absurd hpoint (hsettle result)
        · rw [hexiting] at hpoint
          cases hpoint
    rw [hsame]
    exact ⟨heq, hpoint.imp (hgoes.settled result) hgoes.exiting⟩

theorem Single.of_kept (h : Single w) (hlog : SlotsKept w w') (hgoes : GoesOn w w')
    (hreservation : ∀ id, w'.handler.reservation = some id → w.handler.reservation = some id ∧
      (∀ name, w'.governance.Busy id name → w.governance.Busy id name) ∧
      (w.governance.Tidy id → w'.governance.Tidy id)) : Single w' where
  positive := Nat.le_trans h.positive hgoes.attempt_le
  early hearly := by
    obtain ⟨hold, heq⟩ := hgoes.early hearly
    obtain ⟨hone, hnone⟩ := h.early hold
    refine ⟨heq.trans hone, ?_⟩
    by_contra hsome
    obtain ⟨id, hid⟩ := Option.ne_none_iff_exists'.1 hsome
    rw [(hreservation id hid).1] at hnone
    cases hnone
  sent n target result hin := by
    obtain ⟨hle, hunsent⟩ := h.sent n target result (hlog n target result hin)
    have hattempt := hgoes.attempt_le
    refine ⟨Nat.le_trans hle hattempt, fun heq => ?_⟩
    by_contra hto
    rw [Bool.not_eq_false] at hto
    rcases hgoes.unsent hto with hold | hlt
    · rw [hunsent (Nat.le_antisymm hle (heq ▸ hattempt))] at hold
      cases hold
    · omega
  held id hid := by
    obtain ⟨hold, hbusy, htidy⟩ := hreservation id hid
    have hheld := h.held id hold
    exact hheld.of_kept hlog hgoes hbusy (htidy hheld.tidy)

/-! ## A step of the handler -/

/-- Where the handler neither admits, binds, begins nor settles, it releases its
reservation or leaves it alone. -/
theorem handle_reservation (w : World) (a : Answer) (hadmits : w.handler.point ≠ .admitContext)
    (hbind : ∀ lease, w.handler.point ≠ .bindUpstream lease)
    (hbegin : ∀ lease, w.handler.point ≠ .beginAttempt lease)
    (hsettle : ∀ result, w.handler.point ≠ .settle result) (id : String)
    (hid : (w.handle a).handler.reservation = some id) :
    w.handler.reservation = some id ∧ ((w.handle a).governance = w.governance ∨
      (w.handle a).governance = (w.governance.release a.clock id).1) := by
  revert hid
  refine attempt_elim (motive := fun w' => w'.handler.reservation = some id →
    w.handler.reservation = some id ∧ (w'.governance = w.governance ∨
      w'.governance = (w.governance.release a.clock id).1)) w a
    (fun hbeside hid => ⟨hbeside.reservation ▸ hid, .inl hbeside.governance⟩)
    (fun hpoint => absurd hpoint hadmits) (fun hpoint => ?_) (fun hpoint => ?_)
    (fun lease hpoint => absurd hpoint (hbind lease))
    (fun lease hpoint => absurd hpoint (hbegin lease))
    (fun lease reason hpoint hid => ⟨hid, .inl rfl⟩) (fun lease hpoint hid => ⟨hid, .inl rfl⟩)
    (fun result hpoint => absurd hpoint (hsettle result)) (fun result hpoint => ?_)
    (fun result hpoint => ?_) (fun result hpoint => ?_) (fun reason hpoint => ?_)
    (fun hpoint => ?_)
  case refine_1 =>
    rw [World.attemptStarted]
    dsimp only
    split
    · exact fun hid => ⟨hid, .inl rfl⟩
    · exact fun hid => ⟨hid, .inl rfl⟩
  case refine_2 =>
    obtain ⟨pool, log, point, heq, -⟩ := w.select_cases a
    rw [heq]
    exact fun hid => ⟨hid, .inl rfl⟩
  case refine_3 =>
    rw [World.judge]
    dsimp only
    split
    · exact fun hid => ⟨hid, .inl rfl⟩
    split
    · exact fun hid => ⟨hid, .inl rfl⟩
    · exact fun hid => ⟨hid, .inl rfl⟩
  case refine_4 =>
    rw [World.releaseReservation]
    split
    · exact fun hid => ⟨hid, .inl rfl⟩
    next own hown =>
      dsimp only
      split
      · intro hid
        obtain rfl := Option.some.inj (hown.symm.trans hid)
        exact ⟨hown, .inr rfl⟩
      · intro hid
        cases hid
  case refine_5 =>
    rw [World.classify]
    split
    · exact fun hid => ⟨hid, .inl rfl⟩
    split
    · exact fun hid => ⟨hid, .inl rfl⟩
    · exact fun hid => ⟨hid, .inl rfl⟩
  case refine_6 =>
    rw [World.reacquire]
    dsimp only
    split
    · exact fun hid => ⟨hid, .inl rfl⟩
    · exact fun hid => ⟨hid, .inl rfl⟩
    split
    · exact fun hid => ⟨hid, .inl rfl⟩
    · exact fun hid => ⟨hid, .inl rfl⟩
  case refine_7 =>
    rw [World.releaseDeferred]
    split
    · exact fun hid => ⟨hid, .inl rfl⟩
    next own hown =>
      intro hid
      obtain rfl := Option.some.inj (hown.symm.trans hid)
      exact ⟨hown, .inr rfl⟩

theorem slotsKept_handle (w : World) (a : Answer)
    (hexchange : ∀ lease, w.handler.point ≠ .exchange lease) : SlotsKept w (w.handle a) := by
  intro n target result hin
  rcases w.handle_log a with heq | ⟨x, hnotes, heq⟩
  · rwa [heq] at hin
  · rw [heq, List.mem_append, List.mem_singleton] at hin
    refine hin.resolve_right ?_
    rintro rfl
    cases hnotes with
    | ended lease hpoint => exact hexchange lease hpoint

/-- A selection that leads to a settlement has failed. -/
theorem unselected_of_settle (w : World) (a : Answer) (hpoint : w.handler.point = .select)
    {result : AttemptResult} (hto : (w.handle a).handler.point = .settle result) :
    .unselected (w.handle a).handler.attempt ∈ (w.handle a).log := by
  have heq : w.handle a = w.select a := by simp only [World.handle, hpoint]
  rw [heq] at hto ⊢
  obtain ⟨pool, log, point, hselect, ⟨-, rfl, -⟩ | ⟨-, lease, rfl⟩⟩ := w.select_cases a
  · rw [hselect]
    exact List.mem_append_right _ List.mem_cons_self
  · rw [hselect] at hto
    cases hto

/-- The way into the loop again is the only one that leads to another attempt. -/
theorem goesOn_handle (w : World) (a : Answer)
    (hbind : ∀ lease, w.handler.point ≠ .bindUpstream lease)
    (hbegin : ∀ lease, w.handler.point ≠ .beginAttempt lease)
    (hexchange : ∀ lease, w.handler.point ≠ .exchange lease)
    (hsettle : ∀ result, w.handler.point ≠ .settle result) : GoesOn w (w.handle a) := by
  have hattempt := w.handle_attempt a
  have hleads := w.handle_leads a
  have hsame (hto : (w.handle a).handler.point ≠ .loop) :
      (w.handle a).handler.attempt = w.handler.attempt :=
    hattempt.resolve_right fun hmoved => hto hmoved.2.2
  have hnext {reason : String} (hpoint : w.handler.point = .reacquire reason)
      (hleads : w.handler.point.Leads (w.handle a).handler.point)
      (hunsent : (w.handle a).handler.point.unsent = true) :
      w.handler.attempt < (w.handle a).handler.attempt := by
    rw [hpoint] at hleads
    exact w.attempt_lt_reacquire a hpoint (hleads.reacquired hunsent)
  refine ⟨?_, fun hto => ?_, fun hto => ?_, fun hto => ?_, fun lease hto => ?_, fun lease hto => ?_,
    fun result hto => ?_, fun result hpoint => absurd hpoint (hsettle result), fun hexiting => ?_⟩
  · refine hattempt.imp_right fun hmoved => ?_
    obtain ⟨⟨reason, hpoint⟩, heq, -⟩ := hmoved
    rw [heq, hpoint]
    exact ⟨Nat.lt_succ_self _, rfl, fun _ => Point.noConfusion⟩
  · rcases hleads with heq | hleads
    · rw [heq] at hto
      exact .inl hto
    · refine (hleads.unopened hto).imp_right fun hreacquire => ?_
      obtain ⟨reason, hpoint⟩ := hreacquire
      exact hnext hpoint hleads (Point.unsent_of_unopened hto)
  · rcases hleads with heq | hleads
    · rw [heq] at hto
      exact .inl hto
    · refine (hleads.unsent hto).imp_right fun hreacquire => ?_
      obtain ⟨reason, hpoint⟩ := hreacquire
      exact hnext hpoint hleads hto
  · refine ⟨?_, hsame fun hloop => ?_⟩
    · rcases hleads with heq | hleads
      · rwa [heq] at hto
      · exact hleads.early hto
    · rw [hloop] at hto
      cases hto
  · rcases hleads with heq | hleads
    · exact absurd (heq.symm.trans hto) (hbegin lease)
    · rw [hto] at hleads
      exact absurd hleads.beginAttempt (hbind lease)
  · rcases hleads with heq | hleads
    · exact absurd (heq.symm.trans hto) (hexchange lease)
    · rw [hto] at hleads
      rcases hleads.exchange with hpoint | hpoint
      · exact absurd hpoint (hbind lease)
      · exact absurd hpoint (hbegin lease)
  · rcases hleads with heq | hleads
    · exact absurd (heq.symm.trans hto) (hsettle result)
    · have hsource := hto ▸ hleads
      rcases hsource.settle with hpoint | ⟨lease, hpoint⟩
      · exact .inr (w.unselected_of_settle a hpoint hto)
      · exact absurd hpoint (hexchange lease)
  · rcases hleads with heq | hleads
    · rwa [heq]
    · exact hleads.exiting hexiting

theorem Single.admitContext (h : Single w) (a : Answer) (hpoint : w.handler.point = .admitContext) :
    Single (w.admitContext a) := by
  obtain ⟨hattempt, hnone⟩ := h.early (by rw [hpoint]; rfl)
  have hsent : ∀ n target result, .ended n target result ∈ w.log → n < w.handler.attempt := by
    intro n target result hin
    obtain ⟨hle, hunsent⟩ := h.sent n target result hin
    rw [hpoint] at hunsent
    exact Nat.lt_of_le_of_ne hle fun heq => Bool.noConfusion (hunsent heq)
  have hrefused {w' : World} (hlog : w'.log = w.log)
      (hsame : w'.handler.attempt = w.handler.attempt)
      (hto : w'.handler.point.early = false) (hreservation : w'.handler.reservation = none) :
      Single w' := by
    refine ⟨hsame ▸ h.positive, fun hearly => ?_, fun n target result hin => ?_, fun id hid => ?_⟩
    · rw [hto] at hearly
      cases hearly
    · rw [hlog] at hin
      rw [hsame]
      have hlt := hsent n target result hin
      exact ⟨Nat.le_of_lt hlt, fun heq => absurd heq (Nat.ne_of_lt hlt)⟩
    · rw [hreservation] at hid
      cases hid
  rw [World.admitContext]
  dsimp only
  split
  next hok =>
    obtain ⟨-, htidy⟩ := @Governance.Manager.busy_admitWithContext w.governance "" a.clock
      a.requestCanceled a.reservationID _ hok
    refine ⟨h.positive, fun hearly => Bool.noConfusion hearly, fun n target result hin => ?_,
      fun id hid => ?_⟩
    · have hlt := hsent n target result hin
      exact ⟨Nat.le_of_lt hlt, fun heq => absurd heq (Nat.ne_of_lt hlt)⟩
    · obtain rfl := Option.some.inj hid
      have hname (name : String) (hbusy : (w.governance.admitWithContext a.clock
          a.requestCanceled a.reservationID _).1.Busy (trimSpace a.reservationID) name) :
          name = attemptName 1 :=
        (Governance.Manager.busy_admitWithContext hok).1 hbusy
      refine ⟨htidy, fun name hbusy => ?_, fun name name' hbusy hbusy' => ?_, fun hto => ?_,
        fun lease hto => Point.noConfusion hto, fun n target result hin _ hbusy => ?_⟩
      · exact ⟨1, hname name hbusy, Nat.le_refl 1, h.positive, fun _ _ => rfl⟩
      · rw [hname name hbusy, hname name' hbusy']
      · rcases hto with ⟨lease, hto⟩ | ⟨⟨result, hto⟩, -⟩
        · exact Point.noConfusion hto
        · exact Point.noConfusion hto
      · have hlt := hsent n target result hin
        obtain rfl := attemptName_inj (hname _ hbusy)
        omega
  next error _ =>
    split
    · exact hrefused rfl rfl rfl hnone
    · exact hrefused rfl rfl rfl hnone

/-- With a reservation, a binding is asked for, and `BeginAttempt` is called
for every attempt but the first. -/
theorem bindUpstream_slots (w : World) (a : Answer) (lease : Nat) {id : String}
    (hid : w.handler.reservation = some id) :
    ∃ governance log point, w.bindUpstream a lease =
        { w with governance := governance, log := log, handler.point := point } ∧
      (governance = w.governance ∨ governance =
        (w.governance.bindUpstreamWithDecision a.clock id (w.target lease).id).1) ∧
      (log = w.log ∧ w.handler.attempt = 1 ∧ point ≠ .beginAttempt lease ∨
        w.handler.attempt ≠ 1 ∧ log = w.log ++ [.begun w.handler.attempt]) ∧
      (point = .exchange lease ∨ point = .beginAttempt lease ∨
        ∃ reason, point = .refused lease reason) := by
  rw [World.bindUpstream, hid]
  dsimp only
  split
  next hone =>
    generalize w.governance.bindUpstreamWithDecision a.clock id (w.target lease).id = bound
    obtain ⟨point, heq, hpoint⟩ :=
      governed_cases { w with governance := bound.1 } lease bound.2.1 bound.2.2
    refine ⟨_, _, point, heq, .inr rfl, .inl ⟨rfl, hone, ?_⟩, hpoint.imp_right .inr⟩
    rcases hpoint with rfl | ⟨reason, rfl⟩
    · exact Point.noConfusion
    · exact Point.noConfusion
  next hlater =>
    generalize hbound : w.governance.bindUpstreamWithDecision a.clock id (w.target lease).id = bound
    have hbound' : (w.note (.begun w.handler.attempt)).governance.bindUpstreamWithDecision a.clock
        id ((w.note (.begun w.handler.attempt)).target lease).id = bound := hbound
    rw [hbound']
    split
    · exact ⟨_, _, _, rfl, .inl rfl, .inr ⟨hlater, rfl⟩, .inr (.inl rfl)⟩
    split
    · exact ⟨_, _, _, rfl, .inr rfl, .inr ⟨hlater, rfl⟩, .inr (.inl rfl)⟩
    next error _ =>
      obtain ⟨point, heq, hpoint⟩ :=
        governed_cases { w.note (.begun w.handler.attempt) with governance := bound.1 } lease
          { allowed := false, reason := some .upstream } (some error)
      exact ⟨_, _, _, heq, .inr rfl, .inr ⟨hlater, rfl⟩, hpoint.imp_right .inr⟩

/-- Where a later attempt has found a target, no slot is taken. -/
theorem Occupies.vacant {id : String} (h : w.Occupies id) (hid : w.handler.reservation = some id)
    (a : Answer) {lease : Nat} (hpoint : w.handler.point = .bindUpstream lease)
    (hlater : w.handler.attempt ≠ 1) (hkeeps : w.keepsOneSlot (.handler a) = true) (name : String) :
    ¬ w.governance.Busy id name := by
  intro hbusy
  obtain ⟨n, rfl, hpos, hle, hunopened⟩ := h.begun name hbusy
  have hlt : n < w.handler.attempt := by
    refine Nat.lt_of_le_of_ne hle fun heq => ?_
    have hone := hunopened heq (by rw [hpoint]; rfl)
    omega
  simp only [keepsOneSlot, hpoint, List.all_eq_true, List.mem_range, Bool.or_eq_true,
    decide_eq_true_eq] at hkeeps
  have haccounted : w.accounted n = true := by
    refine (hkeeps n hlt).resolve_left fun hnot => ?_
    obtain ⟨reservation, hget, attempt, hin, heq, -⟩ := hbusy
    rw [mem_reserved hid hget] at hnot
    exact hnot attempt hin heq
  obtain ⟨target, result, hended, haccountable⟩ := accounted_iff.1 haccounted
  obtain ⟨heq, -⟩ := h.unsettled n target result hended haccountable hbusy
  omega

theorem Single.bindUpstream (h : Single w) (a : Answer) {lease : Nat}
    (hpoint : w.handler.point = .bindUpstream lease) (hkeeps : w.keepsOneSlot (.handler a) = true) :
    Single (w.bindUpstream a lease) := by
  have hsent : ∀ n target result, .ended n target result ∈ w.log → n < w.handler.attempt := by
    intro n target result hin
    obtain ⟨hle, hunsent⟩ := h.sent n target result hin
    rw [hpoint] at hunsent
    exact Nat.lt_of_le_of_ne hle fun heq => Bool.noConfusion (hunsent heq)
  cases hid : w.handler.reservation with
  | none =>
    have heq : w.bindUpstream a lease = w.goto (.exchange lease) := by
      rw [World.bindUpstream, hid]
    rw [heq]
    refine ⟨h.positive, fun hearly => Bool.noConfusion hearly, fun n target result hin => ?_,
      fun id hsome => ?_⟩
    · have hlt := hsent n target result hin
      exact ⟨Nat.le_of_lt hlt, fun heq => absurd heq (Nat.ne_of_lt hlt)⟩
    · exact absurd (hid.symm.trans hsome) (Option.some_ne_none id).symm
  | some id =>
    have hheld := h.held id hid
    obtain ⟨governance, log, point, heq, hgovernance, hlog, hto⟩ := w.bindUpstream_slots a lease hid
    have hbusy {name : String} (hname : governance.Busy id name) : w.governance.Busy id name := by
      rcases hgovernance with rfl | rfl
      · exact hname
      · exact (w.governance.busy_bindUpstream a.clock id _ hheld.tidy).1 hname
    have htidy : governance.Tidy id := by
      rcases hgovernance with rfl | rfl
      · exact hheld.tidy
      · exact (@Governance.Manager.busy_bindUpstream "" w.governance a.clock id _ hheld.tidy).2
    have hended {n : Nat} {target : Upstream.Target} {result : AttemptResult}
        (hin : .ended n target result ∈ log) : .ended n target result ∈ w.log := by
      rcases hlog with ⟨rfl, -⟩ | ⟨-, rfl⟩
      · exact hin
      · simpa using hin
    have hvacant (hlater : w.handler.attempt ≠ 1) (name : String) : ¬ governance.Busy id name :=
      fun hname => hheld.vacant hid a hpoint hlater hkeeps name (hbusy hname)
    have hearly : point.early = false ∧ ∀ result, point ≠ .settle result := by
      rcases hto with rfl | rfl | ⟨reason, rfl⟩
      · exact ⟨rfl, fun _ => Point.noConfusion⟩
      · exact ⟨rfl, fun _ => Point.noConfusion⟩
      · exact ⟨rfl, fun _ => Point.noConfusion⟩
    rw [heq]
    refine ⟨h.positive, fun hto => absurd (hearly.1.symm.trans hto) Bool.false_ne_true,
      fun n target result hin => ?_, fun id' hid' => ?_⟩
    · have hlt := hsent n target result (hended hin)
      exact ⟨Nat.le_of_lt hlt, fun heq => absurd heq (Nat.ne_of_lt hlt)⟩
    · obtain rfl := Option.some.inj (hid.symm.trans hid')
      refine ⟨htidy, fun name hname => ?_,
        fun name name' hname hname' => hheld.one name name' (hbusy hname) (hbusy hname'),
        fun hat name hname => ?_, fun lease' hat => ?_,
        fun n target result hin haccountable hname => ?_⟩
      · obtain ⟨n, rfl, hpos, hle, hunopened⟩ := hheld.begun name (hbusy hname)
        exact ⟨n, rfl, hpos, hle, fun heq _ => hunopened heq (by rw [hpoint]; rfl)⟩
      · -- what is sent without a second call is the first attempt
        by_cases hone : w.handler.attempt = 1
        · obtain ⟨n, rfl, hpos, hle, -⟩ := hheld.begun name (hbusy hname)
          rw [hone] at hle ⊢
          rw [Nat.le_antisymm hle hpos]
        · exact absurd hname (hvacant hone name)
      · rcases hlog with ⟨-, -, hnot⟩ | ⟨hlater, rfl⟩
        · rcases hto with rfl | rfl | ⟨reason, rfl⟩
          · cases hat
          · exact absurd rfl hnot
          · cases hat
        · exact hvacant hlater
      · have hlt := hsent n target result (hended hin)
        obtain ⟨heq, -⟩ := hheld.unsettled n target result (hended hin) haccountable
          (hbusy hname)
        omega

theorem Single.beginAttempt (h : Single w) (a : Answer) {lease : Nat}
    (hpoint : w.handler.point = .beginAttempt lease) : Single (w.beginAttempt a lease) := by
  have hsent : ∀ n target result, .ended n target result ∈ w.log → n < w.handler.attempt := by
    intro n target result hin
    obtain ⟨hle, hunsent⟩ := h.sent n target result hin
    rw [hpoint] at hunsent
    exact Nat.lt_of_le_of_ne hle fun heq => Bool.noConfusion (hunsent heq)
  obtain ⟨governance, point, heq, hgovernance, hto⟩ : ∃ governance point, w.beginAttempt a lease =
      { w with governance := governance, handler.point := point } ∧
      (∀ id, w.handler.reservation = some id → governance =
        (w.governance.begin a.clock id (trimSpace (attemptName w.handler.attempt))).1) ∧
      (point = .exchange lease ∨ ∃ reason, point = .refused lease reason) := by
    rw [World.beginAttempt]
    split
    next hnone =>
      exact ⟨_, _, rfl, fun id hid => absurd (hnone.symm.trans hid) (Option.some_ne_none id).symm,
        .inl rfl⟩
    next id hid =>
      dsimp only
      generalize hbegun : w.governance.begin a.clock id
        (trimSpace (attemptName w.handler.attempt)) = begun
      obtain ⟨point, heq, hpoint⟩ :=
        governed_cases { w with governance := begun.1 } lease begun.2.1 begun.2.2
      refine ⟨_, point, heq, fun id' hid' => ?_, hpoint⟩
      obtain rfl := Option.some.inj (hid.symm.trans hid')
      rw [hbegun]
  have hafter : point.early = false ∧ point.unopened = false ∧
      (∀ lease, point ≠ .beginAttempt lease) ∧ ∀ result, point ≠ .settle result := by
    rcases hto with rfl | ⟨reason, rfl⟩
    · exact ⟨rfl, rfl, fun _ => Point.noConfusion, fun _ => Point.noConfusion⟩
    · exact ⟨rfl, rfl, fun _ => Point.noConfusion, fun _ => Point.noConfusion⟩
  rw [heq]
  refine ⟨h.positive, fun hto => absurd (hafter.1.symm.trans hto) Bool.false_ne_true,
    fun n target result hin => ?_, fun id hid => ?_⟩
  · have hlt := hsent n target result hin
    exact ⟨Nat.le_of_lt hlt, fun heq => absurd heq (Nat.ne_of_lt hlt)⟩
  · have hheld := h.held id hid
    have hfree := hheld.free lease hpoint
    have hgoverns := hgovernance id hid
    have hne : trimSpace (attemptName w.handler.attempt) ≠ "" := by
      rw [trimSpace_attemptName]
      exact attemptName_ne_empty _
    -- nothing was outstanding, so nothing but the new attempt is
    have hname {name : String} (hbusy : governance.Busy id name) :
        name = attemptName w.handler.attempt := by
      rw [hgoverns] at hbusy
      rcases (w.governance.busy_begin a.clock id _ hne hheld.tidy).1 hbusy with hold | hnew
      · exact absurd hold (hfree name)
      · rw [hnew, trimSpace_attemptName]
    refine ⟨?_, fun name hbusy => ?_, fun name name' hbusy hbusy' => ?_, fun _ name => hname,
      fun lease' hat => absurd hat (hafter.2.2.1 lease'), fun n target result hin _ hbusy => ?_⟩
    · rw [hgoverns]
      exact (@Governance.Manager.busy_begin "" w.governance a.clock id _ hne hheld.tidy).2
    · refine ⟨w.handler.attempt, hname hbusy, h.positive, Nat.le_refl _, fun _ hunopened => ?_⟩
      exact absurd (hafter.2.1.symm.trans hunopened) Bool.false_ne_true
    · rw [hname hbusy, hname hbusy']
    · have hlt := hsent n target result hin
      have heq := attemptName_inj (hname hbusy)
      omega

theorem Single.exchange (h : Single w) (a : Answer) {lease : Nat}
    (hpoint : w.handler.point = .exchange lease) : Single (w.exchange a lease) := by
  simp only [World.exchange, goto, note]
  generalize runAttemptForTarget (w.target lease) a.exchange = result
  refine ⟨h.positive, fun hearly => Bool.noConfusion hearly, fun n target other hin => ?_,
    fun id hid => ?_⟩
  · rcases List.mem_append.1 hin with hin | hin
    · exact ⟨(h.sent n target other hin).1, fun _ => rfl⟩
    · obtain ⟨rfl, -⟩ := Happening.ended.inj (List.mem_singleton.1 hin)
      exact ⟨Nat.le_refl _, fun _ => rfl⟩
  · have hheld := h.held id hid
    refine ⟨hheld.tidy, fun name hbusy => ?_, hheld.one,
      fun _ name hbusy => hheld.own (.inl ⟨lease, hpoint⟩) name hbusy,
      fun lease' hat => Point.noConfusion hat, fun n target other hin haccountable hbusy => ?_⟩
    · obtain ⟨n, rfl, hpos, hle, -⟩ := hheld.begun name hbusy
      exact ⟨n, rfl, hpos, hle, fun _ hunopened => Bool.noConfusion hunopened⟩
    · rcases List.mem_append.1 hin with hin | hin
      · obtain ⟨-, hat⟩ := hheld.unsettled n target other hin haccountable hbusy
        rw [hpoint] at hat
        rcases hat with hat | hat
        · cases hat
        · cases hat
      · obtain ⟨rfl, -, rfl⟩ := Happening.ended.inj (List.mem_singleton.1 hin)
        exact ⟨rfl, .inl rfl⟩

/-- A settlement that is called for, and what comes of its failure. -/
theorem settle_slots (w : World) (a : Answer) {result : AttemptResult} {id : String}
    (hid : w.handler.reservation = some id) (haccountable : result.accountable = true)
    {recorded : Governance.Manager × Int64 × Option Governance.Error}
    (hrecorded : w.governance.record a.clock id (attemptName w.handler.attempt) result.usage =
      recorded) :
    ∃ point, w.settle a result =
        { w with
          governance := recorded.1
          log := w.log ++ [.recorded w.handler.attempt result.usage]
          handler.point := point } ∧
      (point = .judge result ∧ (recorded.2.2.isSome = true → w.handler.cfg.enforcing = false) ∨
        point = .fail persistenceUnavailable) := by
  have heq : w.settle a result =
      let w' := { w.note (.recorded w.handler.attempt result.usage) with governance := recorded.1 }
      if recorded.2.2.isSome && w.handler.cfg.enforcing then
        w'.goto (.fail persistenceUnavailable)
      else w'.goto (.judge result) := by
    rw [World.settle, hid]
    simp only [haccountable, if_true, hrecorded]
    rfl
  rw [heq]
  dsimp only
  split
  next => exact ⟨_, rfl, .inr rfl⟩
  next hnot =>
    refine ⟨_, rfl, .inl ⟨rfl, fun hsome => ?_⟩⟩
    rw [hsome, Bool.true_and, Bool.not_eq_true] at hnot
    exact hnot

theorem Occupies.settle {id : String} (h : w.Occupies id) (hpositive : 1 ≤ w.handler.attempt)
    (hid : w.handler.reservation = some id) (a : Answer) {result : AttemptResult}
    (hpoint : w.handler.point = .settle result) (hkeeps : w.keepsOneSlot (.handler a) = true) :
    (w.settle a result).Occupies id := by
  have hgone (hat : w.handler.point = .settle result ∨ w.handler.point.exiting = true)
      {other : AttemptResult} (hother : w.handler.point = .settle other ∨
        w.handler.point.exiting = true) : other = result := by
    rcases hother with hother | hother
    · exact (Point.settle.inj (hpoint.symm.trans hother)).symm
    · rw [hpoint] at hother
      cases hother
  by_cases haccountable : result.accountable = true
  swap
  · -- nothing is settled, and nothing has to be
    have heq : w.settle a result = w.goto (.judge result) := by
      rw [World.settle, hid]
      dsimp only
      rw [if_neg haccountable]
    rw [heq]
    refine ⟨h.tidy, fun name hbusy => ?_, h.one, fun hto => ?_,
      fun lease hto => Point.noConfusion hto, fun n target other hin hother hbusy => ?_⟩
    · obtain ⟨n, rfl, hpos, hle, -⟩ := h.begun name hbusy
      exact ⟨n, rfl, hpos, hle, fun _ hunopened => Bool.noConfusion hunopened⟩
    · rcases hto with ⟨lease, hto⟩ | ⟨⟨other, hto⟩, -⟩
      · exact Point.noConfusion hto
      · exact Point.noConfusion hto
    · obtain ⟨-, hat⟩ := h.unsettled n target other hin hother hbusy
      rw [hgone (.inl hpoint) hat] at hother
      exact absurd hother haccountable
  obtain ⟨point, heq, hto⟩ := w.settle_slots a hid haccountable rfl
  have htidy := (@Governance.Manager.busy_record "" w.governance a.clock id
    (attemptName w.handler.attempt) result.usage h.tidy).2
  have hrecord {name : String} := (@Governance.Manager.busy_record name w.governance a.clock id
    (attemptName w.handler.attempt) result.usage h.tidy).1
  rw [trimSpace_attemptName] at hrecord
  generalize w.governance.record a.clock id (attemptName w.handler.attempt) result.usage = recorded
    at heq hto htidy hrecord
  simp only [keepsOneSlot, hpoint, hid, haccountable, Option.isNone_some, Bool.not_true,
    Bool.false_or, Bool.or_eq_true, Bool.and_eq_true, decide_eq_true_eq,
    Bool.not_eq_true'] at hkeeps
  -- what stays outstanding makes the handler stop
  have hlost (hbusy : recorded.1.Busy id (attemptName w.handler.attempt)) :
      .unselected w.handler.attempt ∉ w.log ∧ point.exiting = true := by
    obtain ⟨herror, hwhy⟩ := (hrecord hbusy).2 rfl
    rcases hkeeps with ⟨henforcing, hselected⟩ | ⟨hfits, hwrites⟩
    · refine ⟨hselected, ?_⟩
      rcases hto with ⟨-, hpasses⟩ | rfl
      · rw [hpasses herror] at henforcing
        cases henforcing
      · rfl
    · obtain ⟨henforcing, htakes⟩ := hwhy (attemptName_ne_empty _) hfits
      rcases hwrites with hobserves | hwrites
      · rw [henforcing] at hobserves
        cases hobserves
      · rw [htakes] at hwrites
        cases hwrites
  have hold {name : String} (hne : name ≠ attemptName w.handler.attempt)
      (hbusy : recorded.1.Busy id name) : w.governance.Busy id name :=
    (hrecord hbusy).1.resolve_right hne
  have hafter : point.unopened = false ∧ (∀ lease, point ≠ .exchange lease) ∧
      (∀ lease, point ≠ .beginAttempt lease) ∧ ∀ other, point ≠ .settle other := by
    rcases hto with ⟨rfl, -⟩ | rfl
    · exact ⟨rfl, fun _ => Point.noConfusion, fun _ => Point.noConfusion,
        fun _ => Point.noConfusion⟩
    · exact ⟨rfl, fun _ => Point.noConfusion, fun _ => Point.noConfusion,
        fun _ => Point.noConfusion⟩
  -- beside the attempt itself there is another only where it had no target
  have hown {name : String} (hbusy : recorded.1.Busy id (attemptName w.handler.attempt))
      (hname : recorded.1.Busy id name) : name = attemptName w.handler.attempt := by
    by_contra hne
    exact hne (h.own (.inr ⟨⟨result, hpoint⟩, (hlost hbusy).1⟩) name (hold hne hname))
  rw [heq]
  refine ⟨htidy, fun name hbusy => ?_, fun name name' hbusy hbusy' => ?_, fun hat => ?_,
    fun lease hat => absurd hat (hafter.2.2.1 lease), fun n target other hin hother hbusy => ?_⟩
  · by_cases hne : name = attemptName w.handler.attempt
    · subst hne
      exact ⟨_, rfl, hpositive, Nat.le_refl _,
        fun _ hunopened => absurd (hafter.1.symm.trans hunopened) Bool.false_ne_true⟩
    · obtain ⟨n, rfl, hpos, hle, -⟩ := h.begun name (hold hne hbusy)
      exact ⟨n, rfl, hpos, hle,
        fun _ hunopened => absurd (hafter.1.symm.trans hunopened) Bool.false_ne_true⟩
  · by_cases hne : name = attemptName w.handler.attempt
    · subst hne
      exact (hown hbusy hbusy').symm
    by_cases hne' : name' = attemptName w.handler.attempt
    · subst hne'
      exact hown hbusy' hbusy
    · exact h.one name name' (hold hne hbusy) (hold hne' hbusy')
  · rcases hat with ⟨lease, hat⟩ | ⟨⟨other, hat⟩, -⟩
    · exact absurd hat (hafter.2.1 lease)
    · exact absurd hat (hafter.2.2.2 other)
  · have hended : .ended n target other ∈ w.log := by simpa using hin
    by_cases hne : n = w.handler.attempt
    · subst hne
      exact ⟨rfl, .inr (hlost hbusy).2⟩
    · obtain ⟨hsame, -⟩ := h.unsettled n target other hended hother
        (hold (fun heq => hne (attemptName_inj heq)) hbusy)
      exact absurd hsame hne

theorem Single.settle (h : Single w) (a : Answer) {result : AttemptResult}
    (hpoint : w.handler.point = .settle result) (hkeeps : w.keepsOneSlot (.handler a) = true) :
    Single (w.settle a result) := by
  obtain ⟨governance, log, point, heq, hlog, hto⟩ := w.settle_recorded a result
  have hended {n : Nat} {target : Upstream.Target} {other : AttemptResult}
      (hin : .ended n target other ∈ log) : .ended n target other ∈ w.log := by
    rcases hlog with ⟨rfl, -⟩ | ⟨-, -, rfl⟩
    · exact hin
    · simpa using hin
  have hafter : point.early = false ∧ point.unsent = false := by
    rcases hto with rfl | rfl
    · exact ⟨rfl, rfl⟩
    · exact ⟨rfl, rfl⟩
  have hheld (id : String) (hid : w.handler.reservation = some id) :
      (w.settle a result).Occupies id :=
    (h.held id hid).settle h.positive hid a hpoint hkeeps
  rw [heq] at hheld ⊢
  exact ⟨h.positive, fun hearly => absurd (hafter.1.symm.trans hearly) Bool.false_ne_true,
    fun n target other hin => ⟨(h.sent n target other (hended hin)).1, fun _ => hafter.2⟩, hheld⟩

theorem Single.handle (h : Single w) (a : Answer) (hkeeps : w.keepsOneSlot (.handler a) = true) :
    Single (w.handle a) := by
  by_cases hadmits : w.handler.point = .admitContext
  · have heq : w.handle a = w.admitContext a := by simp only [World.handle, hadmits]
    rw [heq]
    exact h.admitContext a hadmits
  by_cases hbind : ∃ lease, w.handler.point = .bindUpstream lease
  · obtain ⟨lease, hpoint⟩ := hbind
    have heq : w.handle a = w.bindUpstream a lease := by simp only [World.handle, hpoint]
    rw [heq]
    exact h.bindUpstream a hpoint hkeeps
  by_cases hbegin : ∃ lease, w.handler.point = .beginAttempt lease
  · obtain ⟨lease, hpoint⟩ := hbegin
    have heq : w.handle a = w.beginAttempt a lease := by simp only [World.handle, hpoint]
    rw [heq]
    exact h.beginAttempt a hpoint
  by_cases hexchange : ∃ lease, w.handler.point = .exchange lease
  · obtain ⟨lease, hpoint⟩ := hexchange
    have heq : w.handle a = w.exchange a lease := by simp only [World.handle, hpoint]
    rw [heq]
    exact h.exchange a hpoint
  by_cases hsettle : ∃ result, w.handler.point = .settle result
  · obtain ⟨result, hpoint⟩ := hsettle
    have heq : w.handle a = w.settle a result := by simp only [World.handle, hpoint]
    rw [heq]
    exact h.settle a hpoint hkeeps
  simp only [not_exists] at hbind hbegin hexchange hsettle
  refine h.of_kept (w.slotsKept_handle a hexchange)
    (w.goesOn_handle a hbind hbegin hexchange hsettle) fun id hid => ?_
  obtain ⟨hold, hgovernance⟩ := w.handle_reservation a hadmits hbind hbegin hsettle id hid
  refine ⟨hold, fun name hbusy => ?_, fun htidy => ?_⟩
  · rcases hgovernance with heq | heq
    · rwa [heq] at hbusy
    · rw [heq] at hbusy
      exact (w.governance.busy_release a.clock id (h.held id hold).tidy).1 hbusy
  · rcases hgovernance with heq | heq
    · rwa [heq]
    · rw [heq]
      exact (@Governance.Manager.busy_release "" w.governance a.clock id htidy).2

/-! ## Runs -/

theorem Single.step (h : Single w) (event : Event) (hkeeps : w.keepsOneSlot event = true) :
    Single (w.step event) := by
  by_cases hevent : ∃ answer, event = .handler answer
  · obtain ⟨answer, rfl⟩ := hevent
    exact h.handle answer hkeeps
  have hout := w.step_outside event fun answer heq => hevent ⟨answer, heq⟩
  have hkept : SlotsKept w (w.step event) := by
    intro n target result hin
    rcases hout.log with heq | heq
    · rwa [heq] at hin
    · rw [heq] at hin
      simpa using hin
  have hgoes : GoesOn w (w.step event) := by
    have hselected (hto : .unselected (w.step event).handler.attempt ∉ (w.step event).log) :
        .unselected w.handler.attempt ∉ w.log := by
      rw [hout.handler] at hto
      exact fun hin => hto (hout.log_subset hin)
    rw [hout.handler] at hselected
    refine ⟨.inl ?_, ?_, ?_, ?_, ?_, ?_, fun result hto => .inl ⟨?_, ?_, ?_⟩, ?_, ?_⟩
    all_goals rw [hout.handler] at *
    · exact .inl
    · exact .inl
    · exact fun hto => ⟨hto, rfl⟩
    · exact fun _ hto => ⟨hto, rfl⟩
    · exact fun _ hto => ⟨hto, rfl⟩
    · exact hto
    · exact hselected
    · exact fun _ => id
    · exact id
  refine h.of_kept hkept hgoes fun id hid => ?_
  rw [hout.handler] at hid
  -- no one else names the handler's reservation
  have hget : (w.step event).governance.reservations.get? id =
      w.governance.reservations.get? id := by
    rcases hout.governance with heq | ⟨action, rfl, hother, heq⟩
    · rw [heq]
    · rw [heq]
      match action with
      | .step (.call op) =>
          refine (w.governance.perform_transition op).get?_of_ne fun hown => ?_
          simp [ownCall, hid, hown] at hother
      | .step (.compact clk stamp cutoff rewrite) =>
          have haccounts := (w.governance.compact_rest clk stamp cutoff rewrite).2
          exact congrArg (fun accounts => accounts.reservations.get? id) haccounts
      | .apply cfg => rfl
  exact ⟨hid, fun name => (Governance.Manager.busy_congr hget).1,
    (Governance.Manager.tidy_congr hget).2⟩

theorem single_start (request : Request) (config : Config) (governance : Governance.Manager)
    (pool : Upstream.Pool) : Single (start request config governance pool) where
  positive := Nat.le_refl 1
  early _ := ⟨rfl, rfl⟩
  sent n target result hin := by cases hin
  held id hid := by cases hid

/-- Where the handler is about to call `BeginAttempt`, or has, nothing is
outstanding. -/
theorem Single.outstanding_begins (h : Single w) (a : Answer)
    (hkeeps : w.keepsOneSlot (.handler a) = true) (hbegins : w.begins = true) :
    w.outstanding = [] := by
  rw [outstanding, List.filter_eq_nil_iff]
  intro attempt hin hout
  cases hid : w.handler.reservation with
  | none =>
    rw [reserved, ownReservation, hid] at hin
    cases hin
  | some id =>
    cases hget : w.governance.reservations.get? id with
    | none =>
      rw [reserved, ownReservation, hid, Option.bind_some, hget] at hin
      cases hin
    | some reservation =>
      rw [mem_reserved hid hget] at hin
      have hbusy : w.governance.Busy id attempt.id := ⟨reservation, hget, attempt, hin, rfl, hout⟩
      have hheld := h.held id hid
      rw [begins] at hbegins
      split at hbegins
      next lease hpoint =>
        rw [Bool.and_eq_true, decide_eq_true_eq] at hbegins
        exact hheld.vacant hid a hpoint hbegins.2 hkeeps _ hbusy
      next lease hpoint => exact hheld.free lease hpoint _ hbusy
      next => cases hbegins

/-- At most one attempt is outstanding. -/
theorem Single.outstanding_length (h : Single w) : w.outstanding.length ≤ 1 := by
  cases hid : w.handler.reservation with
  | none => simp [outstanding, reserved, ownReservation, hid]
  | some id =>
    cases hget : w.governance.reservations.get? id with
    | none => simp [outstanding, reserved, ownReservation, hid, hget]
    | some reservation =>
      rw [outstanding, mem_reserved hid hget]
      have hone := (h.held id hid).one
      have hnodup : (reservation.attempts.items.filter
          Governance.AttemptState.outstanding).Nodup :=
        (List.Nodup.of_map _ reservation.attempts.nodup).filter _
      by_contra hmany
      obtain ⟨x, y, rest, heq⟩ : ∃ x y rest, reservation.attempts.items.filter
          Governance.AttemptState.outstanding = x :: y :: rest := by
        match hlist : reservation.attempts.items.filter Governance.AttemptState.outstanding with
        | [] | [_] => simp [hlist] at hmany
        | x :: y :: rest => exact ⟨x, y, rest, rfl⟩
      have hx := List.mem_filter.1 (heq ▸ List.mem_cons_self : x ∈ _)
      have hy := List.mem_filter.1 (heq ▸ List.mem_cons_of_mem _ List.mem_cons_self : y ∈ _)
      have hsame := hone x.id y.id ⟨reservation, hget, x, hx.1, rfl, hx.2⟩
        ⟨reservation, hget, y, hy.1, rfl, hy.2⟩
      obtain rfl := Table.key_injOn reservation.attempts.nodup hx.1 hy.1 hsame
      rw [heq] at hnodup
      simp at hnodup

/-- No key has more of the request's attempts than are outstanding. -/
theorem activeFor_le_outstanding {reservation : Governance.ReservationState}
    (h : w.ownReservation = some reservation) (key : String) :
    reservation.activeFor key ≤ w.outstanding.length := by
  have hreserved : w.reserved = reservation.attempts.items := by rw [reserved, h]
  rw [outstanding, hreserved, ← List.countP_eq_length_filter,
    Governance.ReservationState.activeFor]
  exact List.countP_mono_left fun attempt _ hboth => (Bool.and_eq_true _ _ ▸ hboth).1

/-- **One slot for each request.** In a run whose steps leave no slot behind,
nothing is outstanding where `BeginAttempt` is called, and at most one attempt
is at any time, under whatever key. -/
theorem one_slot (request : Request) (config : Config) (governance : Governance.Manager)
    (pool : Upstream.Pool) {events : List Event}
    (hkeeps : Along step (fun w event => w.keepsOneSlot event = true)
      (start request config governance pool) events) :
    (∀ front answer rest, events = front ++ .handler answer :: rest →
      ((start request config governance pool).run front).begins = true →
      ((start request config governance pool).run front).outstanding = []) ∧
    ((start request config governance pool).run events).outstanding.length ≤ 1 ∧
    ∀ reservation,
      ((start request config governance pool).run events).ownReservation = some reservation →
      ∀ key, reservation.activeFor key ≤ 1 := by
  have hrun {events : List Event}
      (hkeeps : Along step (fun w event => w.keepsOneSlot event = true)
        (start request config governance pool) events) :
      Single ((start request config governance pool).run events) :=
    Along.invariant (fun _ event h hkeeps => h.step event hkeeps)
      (single_start request config governance pool) hkeeps
  refine ⟨fun front answer rest heq hbegins => ?_, (hrun hkeeps).outstanding_length,
    fun reservation hown key =>
      Nat.le_trans (activeFor_le_outstanding hown key) (hrun hkeeps).outstanding_length⟩
  subst heq
  obtain ⟨hfront, hstep, -⟩ := Along.append.1 hkeeps
  exact (hrun hfront).outstanding_begins answer hstep hbegins

/-- The first attempt gets an error in response, and a second one is begun. -/
def errorThenAnother : List Event :=
  usual 10 ++ [.handler { exchange := .answered true ⟨500, 0⟩ [] {} }] ++ usual 7 ++ stepsAt second 11

/-- The second attempt takes the slot that the first one has given back. -/
theorem one_slot_errorThenAnother :
    ((before {} everySecond).run errorThenAnother).outstanding.length ≤ 1 ∧
      .begun 2 ∈ ((before {} everySecond).run errorThenAnother).log ∧
      ((before {} everySecond).run errorThenAnother).outstanding.map (·.id) = ["attempt-2"] :=
  ⟨(one_slot {} everySecond _ _ (by decide +kernel)).2.1, by decide +kernel, by decide +kernel⟩

/-- The first attempt is never written, and is outstanding when the second is
begun, and beside it then. -/
theorem two_slots_unwritten :
    ((before {} everySecond).run (usual 18 ++ stepsAt second 9)).begins = true ∧
      ((before {} everySecond).run (usual 18 ++ stepsAt second 9)).outstanding.map (·.id) = ["attempt-1"] ∧
      ((before {} everySecond).run (usual 18 ++ stepsAt second 11)).outstanding.map (·.id) = ["attempt-1", "attempt-2"] ∧
      ((before {} everySecond).run (usual 18 ++ stepsAt second 11)).ownReservation.map
        (·.activeFor (Governance.canonicalBudgetKey "principal" "client")) = some 2 := by
  decide +kernel

end World

end RelayLifeline.Proxy
