import Mathlib.Data.List.Count
import RelayLifeline.Admin.Login

/-!
# Guessing keys

Only so many wrong keys of a client should be compared within a minute before
its logins are refused for the cooldown. A call that has found its logins not
refused is not counted before its failure is recorded, so any number of calls
may get as far as their keys at once. Where no more are let through than there
are failures left, the failures and the calls under way bound each other: every
wrong key that may still count is either recorded or about to be.

A key is dated by the reading of its call. What is recorded is right as long as
the calls go by in the order of their readings, and a session forgets failures
that have run out only.
-/

namespace RelayLifeline.Admin

open Lib

variable {cfg : ManagementSecurity} {auth : Authenticator}

/-! ## What should hold -/

/-- The wrong keys of the minute up to `t`. -/
def recentWrong (evaluated : List Evaluation) (t : Int) : Nat :=
  evaluated.countP fun e => !e.accepted && (t - minute < e.now && e.now ≤ t)

/-- As many keys as are allowed were wrong in the minute up to this wrong one. -/
def Trips (cfg : ManagementSecurity) (evaluated : List Evaluation) (f : Evaluation) : Prop :=
  f.accepted = false ∧ cfg.loginFailuresPerMinute ≤ recentWrong evaluated f.now

instance (evaluated : List Evaluation) (f : Evaluation) : Decidable (Trips cfg evaluated f) :=
  inferInstanceAs (Decidable (_ ∧ _))

/-- A key may be compared: every cooldown that the keys before it led to is over,
and so is the one that is recorded. -/
def Admissible (cfg : ManagementSecurity) (e : Evaluation) (before : List Evaluation) : Prop :=
  (∀ f ∈ before, Trips cfg before f → f.now + cfg.loginCooldown ≤ e.now) ∧ e.cooldownUntil ≤ e.now

instance (e : Evaluation) (before : List Evaluation) : Decidable (Admissible cfg e before) :=
  inferInstanceAs (Decidable (_ ∧ _))

/-- Every key was compared when it might be. -/
structure Throttled (cfg : ManagementSecurity) (evaluated : List Evaluation) : Prop where
  admissible : ∀ e before, e :: before <:+ evaluated → Admissible cfg e before

theorem throttled_nil : Throttled cfg [] :=
  ⟨fun _ _ hsuffix => absurd (List.suffix_nil.1 hsuffix) (List.cons_ne_nil _ _)⟩

theorem throttled_cons {e : Evaluation} {before : List Evaluation} :
    Throttled cfg (e :: before) ↔ Admissible cfg e before ∧ Throttled cfg before := by
  constructor
  · intro h
    exact ⟨h.admissible e before (List.suffix_refl _),
      ⟨fun f rest hsuffix => h.admissible f rest (hsuffix.trans (List.suffix_cons e before))⟩⟩
  · rintro ⟨hadmissible, hbefore⟩
    refine ⟨fun f rest hsuffix => ?_⟩
    rcases List.suffix_cons_iff.1 hsuffix with heq | hsuffix
    · cases heq
      exact hadmissible
    · exact hbefore.admissible f rest hsuffix

instance decideThrottled : ∀ evaluated, Decidable (Throttled cfg evaluated)
  | [] => .isTrue throttled_nil
  | e :: before =>
      have := decideThrottled before
      decidable_of_iff (Admissible cfg e before ∧ Throttled cfg before) throttled_cons.symm

/-! ## When it does -/

/-- The key of the call is wrong. -/
def Authenticator.wrong (auth : Authenticator) (u : LoginCall) : Bool :=
  (auth.authenticateKey u.key).isNone

namespace LoginStage

/-- Between the look at the cooldown and the end. -/
def underWay : LoginStage → Bool
  | checked | failed | accepted | created => true
  | _ => false

/-- Under way, and not with a wrong key as far as is known. -/
def holding : LoginStage → Bool
  | checked | accepted | created => true
  | _ => false

/-- The key has been compared and the call has not returned. -/
def compared : LoginStage → Bool
  | failed | accepted | created => true
  | _ => false

end LoginStage

namespace Client

/-- The recorded failures from a minute before `t` on. -/
def recent (c : Client) (t : Int) : Nat :=
  c.failure.attempts.countP fun attempt => t - minute < attempt

/-- The failures from a minute before `t` on that sessions have deleted. -/
def lapsed (c : Client) (t : Int) : Nat :=
  c.forgotten.countP fun attempt => t - minute < attempt

/-- How many calls with a wrong key are under way. -/
def wrongs (c : Client) (auth : Authenticator) : Nat :=
  c.calls.countP fun u => u.stage.underWay && auth.wrong u

/-- How many calls with a right key are under way. -/
def rights (c : Client) (auth : Authenticator) : Nat :=
  c.calls.countP fun u => u.stage.underWay && !auth.wrong u

/-- So many calls may be under way: none with a wrong key; or a single one, with
nothing forgotten; or the failures stay within the limit, and below it where a
right key would miss the cooldown or what is forgotten keeps it away. -/
def Room (cfg : ManagementSecurity) (c : Client) (wrongs rights : Nat) (t : Int) : Prop :=
  wrongs = 0 ∨ wrongs + rights ≤ 1 ∧ c.lapsed t = 0 ∨
    (c.recent t + c.lapsed t + wrongs + (if rights = 0 ∧ c.lapsed t = 0 then 0 else 1) : Nat) ≤
      cfg.loginFailuresPerMinute

instance (c : Client) (wrongs rights : Nat) (t : Int) : Decidable (c.Room cfg wrongs rights t) :=
  inferInstanceAs (Decidable (_ ∨ _ ∧ _ ∨ _))

/-- There is room for the call beside those under way. -/
def RoomFor (cfg : ManagementSecurity) (auth : Authenticator) (c : Client) (call : LoginCall)
    (t : Int) : Prop :=
  c.Room cfg (c.wrongs auth + if auth.wrong call then 1 else 0)
    (c.rights auth + if auth.wrong call then 0 else 1) t

instance (c : Client) (call : LoginCall) (t : Int) : Decidable (c.RoomFor cfg auth call t) :=
  inferInstanceAs (Decidable (c.Room cfg _ _ t))

/-- The condition on a step: a call is let through in the order of the readings,
and while there is room for it; and failures are recorded in the order of the
readings. -/
def Orderly (cfg : ManagementSecurity) (auth : Authenticator) (c : Client) : LoginAct → Prop
  | .check id => ∀ call ∈ c.calls[id]?, call.stage = .begun → c.failure.cooldownUntil ≤ call.now →
      (∀ e ∈ c.evaluated, e.now ≤ call.now) ∧ c.RoomFor cfg auth call call.now ∧
      ∀ u ∈ c.calls, u.stage.underWay → u.now ≤ call.now ∧ c.RoomFor cfg auth call u.now
  | .record id => ∀ call ∈ c.calls[id]?, call.stage = .failed →
      ∀ u ∈ c.calls, u.stage.underWay → call.now ≤ u.now
  | _ => True

instance (c : Client) (act : LoginAct) : Decidable (c.Orderly cfg auth act) := by
  cases act <;> unfold Orderly <;> infer_instance

/-! ## The invariant -/

/-- The wrong keys of the minute up to `t` that are not recorded yet. -/
def failing (c : Client) (t : Int) : Nat :=
  c.calls.countP fun u => u.stage = .failed && (t - minute < u.now && u.now ≤ t)

/-- The calls whose keys have been compared went on by how that ended. -/
def Keyed (auth : Authenticator) (c : Client) : Prop :=
  ∀ u ∈ c.calls, u.stage.compared → (u.stage = .failed ↔ auth.wrong u)

/-- A reading that a call may yet go by. -/
def Ahead (c : Client) (t : Int) : Prop :=
  (∃ u ∈ c.calls, u.stage.underWay = true ∧ u.now ≤ t) ∨ ∀ e ∈ c.evaluated, e.now ≤ t

/-- A wrong key with the reading is not recorded yet. -/
def Pending (c : Client) (t : Int) : Prop := ∃ v ∈ c.calls, v.stage = .failed ∧ v.now = t

/-- Every reading yet to come is as late. -/
def Behind (c : Client) (t : Int) : Prop := ∀ r, c.Ahead r → t ≤ r

/-- No call is let through before. -/
def Closed (c : Client) (t : Int) : Prop :=
  t ≤ c.failure.cooldownUntil ∨ ∃ e ∈ c.evaluated, t ≤ e.now

structure Sound (cfg : ManagementSecurity) (auth : Authenticator) (c : Client) : Prop where
  nonneg : ∀ u ∈ c.calls, 0 ≤ u.now
  keyed : c.Keyed auth
  logged : ∀ u ∈ c.calls, u.stage.compared → ∃ e ∈ c.evaluated, e.now = u.now
  settled : ∀ e ∈ c.evaluated, e.accepted = false → c.Pending e.now ∨ c.Behind e.now
  counted : ∀ t, c.Ahead t →
    recentWrong c.evaluated t ≤ c.recent t + c.lapsed t + c.failing t
  bounded : ∀ u ∈ c.calls, u.stage.underWay → c.Room cfg (c.wrongs auth) (c.rights auth) u.now
  tripped : ∀ f ∈ c.evaluated, Trips cfg c.evaluated f →
    c.Pending f.now ∨ c.Behind f.now ∧ c.Closed (f.now + cfg.loginCooldown)
  free : ∀ u ∈ c.calls, u.stage.holding → c.failure.cooldownUntil ≤ u.now ∧
    ∀ f ∈ c.evaluated, Trips cfg c.evaluated f → f.now + cfg.loginCooldown ≤ u.now
  throttled : Throttled cfg c.evaluated

theorem sound_start : ({} : Client).Sound cfg auth where
  nonneg := fun _ hu => absurd hu List.not_mem_nil
  keyed := fun _ hu => absurd hu List.not_mem_nil
  logged := fun _ hu => absurd hu List.not_mem_nil
  settled := fun _ he => absurd he List.not_mem_nil
  counted := fun _ _ => Nat.le_refl _
  bounded := fun _ hu => absurd hu List.not_mem_nil
  tripped := fun _ hf => absurd hf List.not_mem_nil
  free := fun _ hu => absurd hu List.not_mem_nil
  throttled := throttled_nil

variable {c : Client} {id : Nat} {call : LoginCall}

/-! ## A call gets to another stage -/

section Move

variable (hcall : c.calls[id]? = some call) (stage : LoginStage)

include hcall

theorem mem_of_turn : call ∈ c.calls := List.mem_of_getElem? hcall

theorem mem_move : { call with stage := stage } ∈ (c.move id call stage).calls :=
  List.mem_set (List.getElem?_eq_some_iff.1 hcall).1 _

/-- A call that is not the one stays. -/
theorem mem_move_of_ne {u : LoginCall} (hu : u ∈ c.calls) (hne : u ≠ call) :
    u ∈ (c.move id call stage).calls := by
  obtain ⟨i, hi⟩ := List.getElem?_of_mem hu
  have hother : id ≠ i := by
    rintro rfl
    rw [hcall] at hi
    exact hne (Option.some.inj hi).symm
  refine List.mem_of_getElem? (i := i) ?_
  rw [move, List.getElem?_set_ne hother]
  exact hi

theorem countP_move (p : LoginCall → Bool) :
    (c.move id call stage).calls.countP p + (if p call then 1 else 0) =
      c.calls.countP p + if p { call with stage := stage } then 1 else 0 := by
  obtain ⟨hlt, hget⟩ := List.getElem?_eq_some_iff.1 hcall
  rw [move, List.countP_set hlt, hget]
  by_cases hp : p call
  · have hpos : 0 < c.calls.countP p := List.countP_pos_iff.2 ⟨call, mem_of_turn hcall, hp⟩
    rw [if_pos hp]
    omega
  · rw [if_neg hp]
    omega

end Move

theorem mem_calls_of_move {u : LoginCall} {stage : LoginStage}
    (hu : u ∈ (c.move id call stage).calls) : u ∈ c.calls ∨ u = { call with stage := stage } :=
  List.mem_or_eq_of_mem_set hu

theorem Behind.of_ahead {d : Client} {t : Int} (h : c.Behind t)
    (hahead : ∀ r, d.Ahead r → c.Ahead r) : d.Behind t :=
  fun r hr => h r (hahead r hr)

/-- A stage that is not under way any more, or still is, opens no reading. -/
theorem ahead_of_move (hcall : c.calls[id]? = some call) (stage : LoginStage)
    (hunder : stage.underWay = true → call.stage.underWay = true) {t : Int}
    (h : (c.move id call stage).Ahead t) : c.Ahead t := by
  rcases h with ⟨u, hu, hstage, hle⟩ | hall
  · rcases mem_calls_of_move hu with hold | rfl
    · exact .inl ⟨u, hold, hstage, hle⟩
    · exact .inl ⟨call, mem_of_turn hcall, hunder hstage, hle⟩
  · exact .inr hall

theorem underWay_move_le (hcall : c.calls[id]? = some call) {stage : LoginStage}
    (hunder : stage.underWay = true → call.stage.underWay = true) (p : LoginCall → Bool)
    (hp : p { call with stage := stage } = p call) :
    ((c.move id call stage).calls.countP fun u => u.stage.underWay && p u) ≤
      c.calls.countP fun u => u.stage.underWay && p u := by
  have hcount := countP_move hcall stage fun u => u.stage.underWay && p u
  rw [hp] at hcount
  by_cases hstage : stage.underWay = true
  · rw [hunder hstage, hstage] at hcount
    exact Nat.le_of_add_le_add_right (Nat.le_of_eq hcount)
  · rw [eq_false_of_ne_true hstage] at hcount
    exact Nat.le_trans (Nat.le_add_right _ _) (Nat.le_of_eq hcount)

/-- The failures that others still have to record. -/
theorem pending_move (hcall : c.calls[id]? = some call) {stage : LoginStage}
    (hold : call.stage ≠ .failed) {t : Int} (h : c.Pending t) :
    (c.move id call stage).Pending t := by
  obtain ⟨v, hv, hfailed, hnow⟩ := h
  exact ⟨v, mem_move_of_ne hcall stage hv fun heq => hold (heq ▸ hfailed), hfailed, hnow⟩

theorem failing_move (hcall : c.calls[id]? = some call) {stage : LoginStage}
    (hold : call.stage ≠ .failed) (hnew : stage ≠ .failed) {t : Int} :
    (c.move id call stage).failing t = c.failing t := by
  have hcount := countP_move hcall stage fun u =>
    u.stage = .failed && (t - minute < u.now && u.now ≤ t)
  rw [if_neg (by simp [hold]), if_neg (by simp [hnew])] at hcount
  exact hcount

theorem Sound.nonneg_move (h : c.Sound cfg auth) (hcall : c.calls[id]? = some call)
    {stage : LoginStage} : ∀ u ∈ (c.move id call stage).calls, 0 ≤ u.now := by
  intro u hu
  rcases mem_calls_of_move hu with hu | rfl
  · exact h.nonneg u hu
  · exact h.nonneg call (mem_of_turn hcall)

theorem Keyed.move (h : c.Keyed auth) {stage : LoginStage}
    (hkeyed : stage.compared = true → (stage = .failed ↔ auth.wrong call)) :
    (c.move id call stage).Keyed auth := by
  intro u hu hstage
  rcases mem_calls_of_move hu with hu | rfl
  · exact h u hu hstage
  · exact hkeyed hstage

theorem Sound.logged_move (h : c.Sound cfg auth) (hcall : c.calls[id]? = some call)
    {stage : LoginStage} (hcompared : stage.compared = true → call.stage.compared = true) :
    ∀ u ∈ (c.move id call stage).calls, u.stage.compared → ∃ e ∈ c.evaluated, e.now = u.now := by
  intro u hu hstage
  rcases mem_calls_of_move hu with hu | rfl
  · exact h.logged u hu hstage
  · exact h.logged call (mem_of_turn hcall) (hcompared hstage)

theorem Room.mono {wrongs rights wrongs' rights' : Nat} {t : Int}
    (h : c.Room cfg wrongs rights t) (hwrongs : wrongs' ≤ wrongs) (hrights : rights' ≤ rights) :
    c.Room cfg wrongs' rights' t := by
  rcases h with hnone | ⟨hone, hlapsed⟩ | hfits
  · exact .inl (by omega)
  · exact .inr (.inl ⟨by omega, hlapsed⟩)
  · refine .inr (.inr ?_)
    split at hfits <;> split <;> omega

/-- A call that leaves with less than it had still leaves room. -/
theorem Sound.bounded_move (h : c.Sound cfg auth) (hcall : c.calls[id]? = some call)
    (stage : LoginStage) (hunder : stage.underWay = true → call.stage.underWay = true) :
    ∀ u ∈ (c.move id call stage).calls, u.stage.underWay →
      c.Room cfg ((c.move id call stage).wrongs auth) ((c.move id call stage).rights auth)
        u.now := by
  intro u hu hstage
  have hroom : c.Room cfg (c.wrongs auth) (c.rights auth) u.now := by
    rcases mem_calls_of_move hu with hold | rfl
    · exact h.bounded u hold hstage
    · exact h.bounded call (mem_of_turn hcall) (hunder hstage)
  exact hroom.mono (underWay_move_le hcall hunder _ rfl) (underWay_move_le hcall hunder _ rfl)

/-- A turn that tells nothing about a key. -/
theorem Sound.quiet (h : c.Sound cfg auth) (hcall : c.calls[id]? = some call) {stage : LoginStage}
    (hold : call.stage ≠ .failed) (hnew : stage ≠ .failed)
    (hunder : stage.underWay = true → call.stage.underWay = true)
    (hholding : stage.holding = true → call.stage.holding = true)
    (hcompared : stage.compared = true → call.stage.compared = true) :
    (c.move id call stage).Sound cfg auth := by
  have hahead : ∀ t, (c.move id call stage).Ahead t → c.Ahead t :=
    fun _ ht => ahead_of_move hcall stage hunder ht
  have hpending : ∀ t, c.Pending t → (c.move id call stage).Pending t :=
    fun _ => pending_move hcall hold
  have hright : call.stage.compared = true → ¬auth.wrong call = true :=
    fun hstage hwrong => hold ((h.keyed call (mem_of_turn hcall) hstage).2 hwrong)
  refine ⟨fun u hu => ?_, h.keyed.move fun hstage => ?_, fun u hu hstage => ?_,
    fun e he hwrong => ?_, fun t ht => ?_, h.bounded_move hcall stage hunder,
    fun f hf htrips => ?_, fun u hu hstage => ?_, h.throttled⟩
  · exact h.nonneg_move hcall u hu
  · exact iff_of_false hnew (hright (hcompared hstage))
  · exact h.logged_move hcall hcompared u hu hstage
  · exact (h.settled e he hwrong).imp (hpending _) fun hbehind => hbehind.of_ahead hahead
  · rw [failing_move hcall hold hnew]
    exact h.counted t (hahead t ht)
  · exact (h.tripped f hf htrips).imp (hpending _) fun hpast =>
      ⟨hpast.1.of_ahead hahead, hpast.2⟩
  · rcases mem_calls_of_move hu with hu | rfl
    · exact h.free u hu hstage
    · exact h.free call (mem_of_turn hcall) (hholding hstage)

/-! ## A login begins -/

theorem Sound.begin (h : c.Sound cfg auth) {clock : Int} (hclock : 0 ≤ clock) (key : String) :
    (c.enter clock key).Sound cfg auth := by
  have hmem : ∀ u ∈ (c.enter clock key).calls, u ∈ c.calls ∨ u.stage = .begun ∧ u.now = clock := by
    intro u hu
    rcases List.mem_append.1 hu with hu | hu
    · exact .inl hu
    · rw [List.mem_singleton.1 hu]
      exact .inr ⟨rfl, rfl⟩
  have hahead : ∀ t, (c.enter clock key).Ahead t → c.Ahead t := by
    rintro t (⟨u, hu, hstage, hle⟩ | hall)
    · rcases hmem u hu with hu | ⟨hbegun, -⟩
      · exact .inl ⟨u, hu, hstage, hle⟩
      · rw [hbegun] at hstage
        cases hstage
    · exact .inr hall
  have hpending : ∀ t, c.Pending t → (c.enter clock key).Pending t := by
    rintro t ⟨v, hv, hfailed⟩
    exact ⟨v, List.mem_append_left _ hv, hfailed⟩
  have hsame (p : LoginCall → Bool) :
      ((c.enter clock key).calls.countP fun u => u.stage.underWay && p u) =
        c.calls.countP fun u => u.stage.underWay && p u := by
    rw [enter, List.countP_append]
    rfl
  refine ⟨fun u hu => ?_, fun u hu hstage => ?_, fun u hu hstage => ?_, fun e he hwrong => ?_,
    fun t ht => ?_, fun u hu hstage => ?_, fun f hf htrips => ?_, fun u hu hstage => ?_,
    h.throttled⟩
  · rcases hmem u hu with hu | ⟨-, hnow⟩
    · exact h.nonneg u hu
    · rw [hnow]
      exact hclock
  · rcases hmem u hu with hu | ⟨hbegun, -⟩
    · exact h.keyed u hu hstage
    · rw [hbegun] at hstage
      cases hstage
  · rcases hmem u hu with hu | ⟨hbegun, -⟩
    · exact h.logged u hu hstage
    · rw [hbegun] at hstage
      cases hstage
  · exact (h.settled e he hwrong).imp (hpending _) fun hbehind => hbehind.of_ahead hahead
  · have hfailing : (c.enter clock key).failing t = c.failing t := by
      rw [failing, enter, List.countP_append]
      rfl
    rw [hfailing]
    exact h.counted t (hahead t ht)
  · rcases hmem u hu with hu | ⟨hbegun, -⟩
    · rw [wrongs, rights, hsame, hsame]
      exact h.bounded u hu hstage
    · rw [hbegun] at hstage
      cases hstage
  · exact (h.tripped f hf htrips).imp (hpending _) fun hpast =>
      ⟨hpast.1.of_ahead hahead, hpast.2⟩
  · rcases hmem u hu with hu | ⟨hbegun, -⟩
    · exact h.free u hu hstage
    · rw [hbegun] at hstage
      cases hstage

/-! ## A call is let through -/

theorem countP_after_anti {t r : Int} (h : t ≤ r) (attempts : List Int) :
    (attempts.countP fun attempt => r - minute < attempt) ≤
      attempts.countP fun attempt => t - minute < attempt :=
  List.countP_mono_left fun a _ ha => by
    rw [decide_eq_true_eq] at ha ⊢
    omega

theorem Keyed.wrong_of_failing {u : LoginCall} {t : Int} (h : c.Keyed auth) (hu : u ∈ c.calls)
    (hin : (u.stage = .failed && (t - minute < u.now && u.now ≤ t)) = true) :
    (u.stage.underWay && auth.wrong u) = true := by
  simp only [Bool.and_eq_true, decide_eq_true_eq] at hin
  rw [(h u hu (by rw [hin.1]; rfl)).1 hin.1, hin.1]
  rfl

theorem failing_le_wrongs (hkeyed : c.Keyed auth) (t : Int) : c.failing t ≤ c.wrongs auth :=
  List.countP_mono_left fun _ => hkeyed.wrong_of_failing

/-- A call under way that is not with a wrong key yet comes on top of those that
are. -/
theorem failing_lt {u : LoginCall}
    (hkeyed : c.Keyed auth)
    (hu : u ∈ c.calls) (hholding : u.stage.holding = true) (t : Int) :
    c.failing t < c.wrongs auth + if c.rights auth = 0 then 0 else 1 := by
  have hunder : u.stage.underWay = true := by
    cases hstage : u.stage <;> simp_all [LoginStage.holding, LoginStage.underWay]
  cases hwrong : auth.wrong u with
  | false =>
      have hright : 0 < c.rights auth :=
        List.countP_pos_iff.2 ⟨u, hu, by rw [hunder, hwrong]; rfl⟩
      have hle := failing_le_wrongs hkeyed t
      rw [if_neg (by omega)]
      omega
  | true =>
      have hlt : ((c.calls.filter fun v => v.stage.underWay && auth.wrong v).countP fun v =>
          v.stage = .failed && (t - minute < v.now && v.now ≤ t)) <
          (c.calls.filter fun v => v.stage.underWay && auth.wrong v).length := by
        refine List.countP_lt_length_iff.2 ⟨u, List.mem_filter.2 ⟨hu, ?_⟩, ?_⟩
        · rw [hunder, hwrong]
          rfl
        · cases hstage : u.stage <;> simp_all [LoginStage.holding]
      rw [List.countP_filter, ← List.countP_eq_length_filter] at hlt
      refine Nat.lt_of_lt_of_le (Nat.lt_of_le_of_lt ?_ hlt) (Nat.le_add_right _ _)
      refine List.countP_mono_left fun v hv hin => ?_
      exact Bool.and_eq_true_iff.2 ⟨hin, hkeyed.wrong_of_failing hv hin⟩

/-- A wrong key and a call that goes on: the failures are below the limit. -/
theorem Room.failing_lt {u : LoginCall} {r s : Int}
    (hkeyed : c.Keyed auth)
    (hu : u ∈ c.calls) (hholding : u.stage.holding = true)
    (hroom : c.Room cfg (c.wrongs auth) (c.rights auth) r) (hfailing : 0 < c.failing s) (t : Int) :
    (c.recent r + c.lapsed r + c.failing t : Nat) < cfg.loginFailuresPerMinute := by
  have hone := failing_le_wrongs hkeyed s
  have hmore := Client.failing_lt hkeyed hu hholding s
  have hbelow := Client.failing_lt hkeyed hu hholding t
  rcases hroom with hnone | ⟨hfew, -⟩ | hfits
  · omega
  · split at hmore <;> omega
  · split at hfits <;> split at hbelow <;> omega

theorem Sound.pass (h : c.Sound cfg auth) (hcall : c.calls[id]? = some call)
    (hbegun : call.stage = .begun)
    (hcooldown : c.failure.cooldownUntil ≤ call.now) (hlog : ∀ e ∈ c.evaluated, e.now ≤ call.now)
    (hself : c.RoomFor cfg auth call call.now)
    (hroom : ∀ u ∈ c.calls, u.stage.underWay → c.RoomFor cfg auth call u.now) :
    (c.move id call .checked).Sound cfg auth := by
  have hahead : ∀ t, (c.move id call .checked).Ahead t → c.Ahead t := by
    rintro t (⟨u, hu, hstage, hle⟩ | hall)
    · rcases mem_calls_of_move hu with hu | rfl
      · exact .inl ⟨u, hu, hstage, hle⟩
      · exact .inr fun e he => Int.le_trans (hlog e he) hle
    · exact .inr hall
  have hpending : ∀ t, c.Pending t → (c.move id call .checked).Pending t :=
    fun _ => pending_move hcall (by rw [hbegun]; decide)
  have hfailing : ∀ t, (c.move id call .checked).failing t = c.failing t :=
    fun _ => failing_move hcall (by rw [hbegun]; decide) (by decide)
  have hwrongs : (c.move id call .checked).wrongs auth =
      c.wrongs auth + if auth.wrong call then 1 else 0 := by
    have hcount := countP_move hcall .checked fun u => u.stage.underWay && auth.wrong u
    rw [hbegun] at hcount
    exact hcount
  have hrights : (c.move id call .checked).rights auth =
      c.rights auth + if auth.wrong call then 0 else 1 := by
    have hcount := countP_move hcall .checked fun u => u.stage.underWay && !auth.wrong u
    rw [hbegun] at hcount
    refine Eq.trans hcount (congrArg _ ?_)
    show (if (!auth.wrong call) = true then 1 else 0) = _
    cases auth.wrong call <;> rfl
  have hkeyed : (c.move id call .checked).Keyed auth := h.keyed.move (by nofun)
  -- every cooldown the wrong keys led to is recorded, or over
  have hover : ∀ f ∈ c.evaluated, Trips cfg c.evaluated f →
      f.now + cfg.loginCooldown ≤ call.now := by
    intro f hf htrips
    rcases h.tripped f hf htrips with ⟨v, hv, hfailed, hnow⟩ | ⟨-, hclosed | ⟨e, he, hle⟩⟩
    · have hone : 0 < c.failing f.now := by
        refine List.countP_pos_iff.2 ⟨v, hv, ?_⟩
        simp [hfailed, hnow, minute]
      have hfits : (c.move id call .checked).Room cfg ((c.move id call .checked).wrongs auth)
          ((c.move id call .checked).rights auth) f.now := by
        rw [hwrongs, hrights, ← hnow]
        exact hroom v hv (by rw [hfailed]; rfl)
      have hbelow : (c.recent f.now + c.lapsed f.now + (c.move id call .checked).failing f.now :
          Nat) < cfg.loginFailuresPerMinute :=
        hfits.failing_lt hkeyed (mem_move hcall .checked) rfl (by rw [hfailing]; exact hone) f.now
      have hcount := h.counted f.now (.inl ⟨v, hv, by rw [hfailed]; rfl, Int.le_of_eq hnow⟩)
      have hmany := htrips.2
      rw [hfailing] at hbelow
      omega
    · exact Int.le_trans hclosed hcooldown
    · exact Int.le_trans hle (hlog e he)
  refine ⟨fun u hu => ?_, hkeyed, fun u hu hstage => ?_, fun e he hwrong => ?_, fun t ht => ?_,
    fun u hu hstage => ?_, fun f hf htrips => ?_, fun u hu hstage => ?_, h.throttled⟩
  · exact h.nonneg_move hcall u hu
  · exact h.logged_move hcall (by nofun) u hu hstage
  · exact (h.settled e he hwrong).imp (hpending _) fun hbehind => hbehind.of_ahead hahead
  · rw [hfailing]
    exact h.counted t (hahead t ht)
  · rw [hwrongs, hrights]
    rcases mem_calls_of_move hu with hu | rfl
    · exact hroom u hu hstage
    · exact hself
  · exact (h.tripped f hf htrips).imp (hpending _) fun hpast =>
      ⟨hpast.1.of_ahead hahead, hpast.2⟩
  · rcases mem_calls_of_move hu with hu | rfl
    · exact h.free u hu hstage
    · exact ⟨hcooldown, hover⟩

/-! ## A key is compared -/

theorem recentWrong_cons (e : Evaluation) (evaluated : List Evaluation) (t : Int) :
    recentWrong (e :: evaluated) t = recentWrong evaluated t +
      if !e.accepted && (t - minute < e.now && e.now ≤ t) then 1 else 0 :=
  List.countP_cons ..

/-- The key may be compared. -/
theorem Sound.admissible (h : c.Sound cfg auth) (hcall : c.calls[id]? = some call)
    (hchecked : call.stage = .checked) (accepted : Bool) :
    Admissible cfg ⟨call.now, accepted, c.failure.cooldownUntil⟩ c.evaluated := by
  obtain ⟨hcooldown, hover⟩ := h.free call (mem_of_turn hcall) (by rw [hchecked]; rfl)
  exact ⟨hover, hcooldown⟩

theorem ahead_of_cons {e : Evaluation} {t : Int}
    (h : ({ c with evaluated := e :: c.evaluated } : Client).Ahead t) : c.Ahead t :=
  h.imp_right fun hall other hother => hall other (List.mem_cons_of_mem _ hother)

theorem Closed.cons {e : Evaluation} {t : Int} (h : c.Closed t) :
    ({ c with evaluated := e :: c.evaluated } : Client).Closed t :=
  h.imp_right fun ⟨other, hother, hle⟩ => ⟨other, List.mem_cons_of_mem _ hother, hle⟩

theorem Sound.accept (h : c.Sound cfg auth) (hcall : c.calls[id]? = some call)
    (hchecked : call.stage = .checked) (hright : ¬auth.wrong call = true) :
    ({ c.move id call .accepted with
      evaluated := ⟨call.now, true, c.failure.cooldownUntil⟩ :: c.evaluated } :
        Client).Sound cfg auth := by
  have hahead : ∀ t, ({ c.move id call .accepted with
      evaluated := ⟨call.now, true, c.failure.cooldownUntil⟩ :: c.evaluated } : Client).Ahead t →
      c.Ahead t :=
    fun t ht => ahead_of_move hcall _ (fun _ => by rw [hchecked]; rfl) (ahead_of_cons ht)
  have hpending : ∀ t, c.Pending t → (c.move id call .accepted).Pending t :=
    fun _ => pending_move hcall (by rw [hchecked]; decide)
  have hsame : ∀ t, recentWrong (⟨call.now, true, c.failure.cooldownUntil⟩ :: c.evaluated) t =
      recentWrong c.evaluated t := fun t => by
    rw [recentWrong_cons]
    rfl
  have hold : ∀ f ∈ (⟨call.now, true, c.failure.cooldownUntil⟩ :: c.evaluated : List Evaluation),
      f.accepted = false → f ∈ c.evaluated := by
    intro f hf hwrong
    rcases List.mem_cons.1 hf with rfl | hf
    · cases hwrong
    · exact hf
  have htripped : ∀ f, Trips cfg (⟨call.now, true, c.failure.cooldownUntil⟩ :: c.evaluated) f →
      Trips cfg c.evaluated f := by
    intro f htrips
    rw [Trips, hsame] at htrips
    exact htrips
  refine ⟨fun u hu => ?_, h.keyed.move fun _ => iff_of_false (by decide) hright,
    fun u hu hstage => ?_, fun e he hwrong => ?_, fun t ht => ?_,
    h.bounded_move hcall _ fun _ => by rw [hchecked]; rfl, fun f hf htrips => ?_,
    fun u hu hstage => ?_, throttled_cons.2 ⟨h.admissible hcall hchecked true, h.throttled⟩⟩
  · exact h.nonneg_move hcall u hu
  · rcases mem_calls_of_move hu with hu | rfl
    · obtain ⟨e, he, hnow⟩ := h.logged u hu hstage
      exact ⟨e, List.mem_cons_of_mem _ he, hnow⟩
    · exact ⟨_, List.mem_cons_self, rfl⟩
  · exact (h.settled e (hold e he hwrong) hwrong).imp (hpending _)
      fun hbehind => hbehind.of_ahead hahead
  · have hfailing : (c.move id call .accepted).failing t = c.failing t :=
      failing_move hcall (by rw [hchecked]; decide) (by decide)
    have hcount := h.counted t (hahead t ht)
    rw [← hfailing] at hcount
    rw [hsame]
    exact hcount
  · exact (h.tripped f (hold f hf htrips.1) (htripped f htrips)).imp (hpending _) fun hpast =>
      ⟨hpast.1.of_ahead hahead, hpast.2.cons⟩
  · have hfree : c.failure.cooldownUntil ≤ u.now ∧
        ∀ f ∈ c.evaluated, Trips cfg c.evaluated f → f.now + cfg.loginCooldown ≤ u.now := by
      rcases mem_calls_of_move hu with hu | rfl
      · exact h.free u hu hstage
      · exact h.free call (mem_of_turn hcall) (by rw [hchecked]; rfl)
    exact ⟨hfree.1, fun f hf htrips => hfree.2 f (hold f hf htrips.1) (htripped f htrips)⟩

theorem Sound.reject (h : c.Sound cfg auth) (hcall : c.calls[id]? = some call)
    (hchecked : call.stage = .checked) (hkey : auth.wrong call = true) :
    ({ c.move id call .failed with
      evaluated := ⟨call.now, false, c.failure.cooldownUntil⟩ :: c.evaluated } :
        Client).Sound cfg auth := by
  have hahead : ∀ t, ({ c.move id call .failed with
      evaluated := ⟨call.now, false, c.failure.cooldownUntil⟩ :: c.evaluated } : Client).Ahead t →
      c.Ahead t :=
    fun t ht => ahead_of_move hcall _ (fun _ => by rw [hchecked]; rfl) (ahead_of_cons ht)
  have hpending : ∀ t, c.Pending t → (c.move id call .failed).Pending t :=
    fun _ => pending_move hcall (by rw [hchecked]; decide)
  have hmine : (c.move id call .failed).Pending call.now := ⟨_, mem_move hcall .failed, rfl, rfl⟩
  have hself : c.Ahead call.now :=
    .inl ⟨call, mem_of_turn hcall, by rw [hchecked]; rfl, Int.le_refl _⟩
  have hkeyed : (c.move id call .failed).Keyed auth := h.keyed.move fun _ => iff_of_true rfl hkey
  have hbounded := h.bounded_move hcall .failed fun _ => by rw [hchecked]; rfl
  -- the key counts among the wrong ones as it does among those to be recorded
  have hcounted : ∀ t, c.Ahead t →
      recentWrong (⟨call.now, false, c.failure.cooldownUntil⟩ :: c.evaluated) t ≤
        c.recent t + c.lapsed t + (c.move id call .failed).failing t := by
    intro t ht
    have hcount := countP_move hcall .failed fun u =>
      u.stage = .failed && (t - minute < u.now && u.now ≤ t)
    rw [if_neg (by simp [hchecked])] at hcount
    have hfailing : (c.move id call .failed).failing t = c.failing t +
        if !false && (t - minute < call.now && call.now ≤ t) then 1 else 0 := hcount
    have hwrong : recentWrong (⟨call.now, false, c.failure.cooldownUntil⟩ :: c.evaluated) t =
        recentWrong c.evaluated t +
          if !false && (t - minute < call.now && call.now ≤ t) then 1 else 0 :=
      recentWrong_cons ..
    have hbefore := h.counted t ht
    omega
  -- a wrong key from before counts this one only if it is not earlier
  have hnew : ∀ f, ¬Trips cfg c.evaluated f →
      Trips cfg (⟨call.now, false, c.failure.cooldownUntil⟩ :: c.evaluated) f →
        call.now ≤ f.now := by
    intro f hnot htrips
    rw [Trips, recentWrong_cons] at htrips
    split at htrips
    · next hin =>
        simp only [Bool.not_false, Bool.true_and, Bool.and_eq_true, decide_eq_true_eq] at hin
        exact hin.2
    · exact absurd htrips hnot
  refine ⟨fun u hu => ?_, hkeyed, fun u hu hstage => ?_, fun e he hwrong => ?_,
    fun t ht => hcounted t (hahead t ht), hbounded, fun f hf htrips => ?_,
    fun u hu hstage => ?_, throttled_cons.2 ⟨h.admissible hcall hchecked false, h.throttled⟩⟩
  · exact h.nonneg_move hcall u hu
  · rcases mem_calls_of_move hu with hu | rfl
    · obtain ⟨e, he, hnow⟩ := h.logged u hu hstage
      exact ⟨e, List.mem_cons_of_mem _ he, hnow⟩
    · exact ⟨_, List.mem_cons_self, rfl⟩
  · rcases List.mem_cons.1 he with rfl | he
    · exact .inl hmine
    · exact (h.settled e he hwrong).imp (hpending _) fun hbehind => hbehind.of_ahead hahead
  · rcases List.mem_cons.1 hf with rfl | hf
    · exact .inl hmine
    · by_cases hbefore : Trips cfg c.evaluated f
      · exact (h.tripped f hf hbefore).imp (hpending _) fun hpast =>
          ⟨hpast.1.of_ahead hahead, hpast.2.cons⟩
      · rcases h.settled f hf htrips.1 with hold | hbehind
        · exact .inl (hpending _ hold)
        · have hnow : f.now = call.now :=
            Int.le_antisymm (hbehind _ hself) (hnew f hbefore htrips)
          exact .inl (hnow ▸ hmine)
  · have hold : u ∈ c.calls := by
      rcases mem_calls_of_move hu with hu | rfl
      · exact hu
      · cases hstage
    obtain ⟨hcooldown, hover⟩ := h.free u hold hstage
    refine ⟨hcooldown, fun f hf htrips => ?_⟩
    by_cases hbefore : Trips cfg c.evaluated f ∧ f ∈ c.evaluated
    · exact hover f hbefore.2 hbefore.1
    · -- there is room for the call that is under way, so no cooldown is due
      have hle : call.now ≤ f.now := by
        rcases List.mem_cons.1 hf with rfl | hf
        · exact Int.le_refl _
        · exact hnew f (fun hold => hbefore ⟨hold, hf⟩) htrips
      have hone : 0 < (c.move id call .failed).failing call.now := by
        refine List.countP_pos_iff.2 ⟨_, mem_move hcall .failed, ?_⟩
        simp [minute]
      have hroom : (c.move id call .failed).Room cfg ((c.move id call .failed).wrongs auth)
          ((c.move id call .failed).rights auth) call.now :=
        hbounded { call with stage := .failed } (mem_move hcall .failed) rfl
      have hbelow : (c.recent call.now + c.lapsed call.now +
          (c.move id call .failed).failing f.now : Nat) < cfg.loginFailuresPerMinute :=
        hroom.failing_lt hkeyed hu hstage hone f.now
      have hcount := hcounted f.now (.inl ⟨call, mem_of_turn hcall, by rw [hchecked]; rfl, hle⟩)
      have hrecent : c.recent f.now ≤ c.recent call.now := countP_after_anti hle c.failure.attempts
      have hlapsed : c.lapsed f.now ≤ c.lapsed call.now := countP_after_anti hle c.forgotten
      have hmany : cfg.loginFailuresPerMinute ≤
          recentWrong (⟨call.now, false, c.failure.cooldownUntil⟩ :: c.evaluated) f.now := htrips.2
      omega

theorem Sound.evaluate (h : c.Sound cfg auth) (hcall : c.calls[id]? = some call)
    (hchecked : call.stage = .checked) : (c.evaluate auth id call).Sound cfg auth := by
  rw [Client.evaluate]
  cases hkey : auth.authenticateKey call.key with
  | some role => exact h.accept hcall hchecked (by rw [Authenticator.wrong, hkey]; nofun)
  | none => exact h.reject hcall hchecked (by rw [Authenticator.wrong, hkey]; rfl)

/-! ## A failure is recorded -/

/-- The failures that are dropped are a minute old for every reading from then on. -/
theorem recent_record (cfg : ManagementSecurity) (failure : LoginFailures) {now t : Int}
    (h : now ≤ t) :
    ((failure.record cfg now).attempts.countP fun attempt => t - minute < attempt) =
      (failure.attempts.countP fun attempt => t - minute < attempt) +
        if t - minute < now then 1 else 0 := by
  rw [LoginFailures.record, List.countP_append, List.countP_filter]
  congr 1
  · refine List.countP_congr fun attempt _ => ?_
    rw [Bool.and_eq_true, decide_eq_true_eq, decide_eq_true_eq]
    omega
  · by_cases hlt : t - minute < now
    · simp [hlt]
    · simp [hlt]

theorem length_record (cfg : ManagementSecurity) (failure : LoginFailures) (now : Int) :
    (failure.record cfg now).attempts.length =
      (failure.attempts.countP fun attempt => now - minute < attempt) + 1 := by
  rw [LoginFailures.record, List.length_append, List.countP_eq_length_filter]
  rfl

theorem Sound.record (h : c.Sound cfg auth) (hcall : c.calls[id]? = some call)
    (hfailed : call.stage = .failed)
    (horder : ∀ u ∈ c.calls, u.stage.underWay → call.now ≤ u.now) :
    ({ c.move id call .returned with failure := c.failure.record cfg call.now } : Client).Sound
      cfg auth := by
  have hlater : ∀ t, ({ c.move id call .returned with
      failure := c.failure.record cfg call.now } : Client).Ahead t → call.now ≤ t := by
    rintro t (⟨u, hu, hstage, hle⟩ | hall)
    · rcases mem_calls_of_move hu with hu | rfl
      · exact Int.le_trans (horder u hu hstage) hle
      · cases hstage
    · obtain ⟨e, he, hnow⟩ := h.logged call (mem_of_turn hcall) (by rw [hfailed]; rfl)
      exact hnow ▸ hall e he
  have hahead : ∀ t, ({ c.move id call .returned with
      failure := c.failure.record cfg call.now } : Client).Ahead t → c.Ahead t := fun t ht =>
    ahead_of_move hcall .returned (fun hstage => by cases hstage) ht
  have hself : c.Ahead call.now :=
    .inl ⟨call, mem_of_turn hcall, by rw [hfailed]; rfl, Int.le_refl _⟩
  have hpending : ∀ t, c.Pending t → (c.move id call .returned).Pending t ∨ t = call.now := by
    rintro t ⟨v, hv, hstage, hnow⟩
    by_cases hmine : v = call
    · exact .inr (by rw [← hnow, hmine])
    · exact .inl ⟨v, mem_move_of_ne hcall .returned hv hmine, hstage, hnow⟩
  have hfailing : ∀ t, (c.move id call .returned).failing t +
      (if t - minute < call.now && call.now ≤ t then 1 else 0) = c.failing t := by
    intro t
    have hcount := countP_move hcall .returned fun u =>
      u.stage = .failed && (t - minute < u.now && u.now ≤ t)
    rw [hfailed] at hcount
    exact hcount
  have hkey : auth.wrong call = true :=
    (h.keyed call (mem_of_turn hcall) (by rw [hfailed]; rfl)).1 hfailed
  have hwrongs : (c.move id call .returned).wrongs auth + 1 = c.wrongs auth := by
    have hcount := countP_move hcall .returned fun u => u.stage.underWay && auth.wrong u
    rw [hfailed, hkey] at hcount
    exact hcount
  have hrights : (c.move id call .returned).rights auth ≤ c.rights auth :=
    underWay_move_le hcall (fun hstage => by cases hstage) _ rfl
  have hmine : c.Room cfg (c.wrongs auth) (c.rights auth) call.now :=
    h.bounded call (mem_of_turn hcall) (by rw [hfailed]; rfl)
  have hone : 0 < c.failing call.now := by
    refine List.countP_pos_iff.2 ⟨call, mem_of_turn hcall, ?_⟩
    simp [hfailed, minute]
  refine ⟨fun u hu => ?_, h.keyed.move (by nofun), fun u hu hstage => ?_,
    fun e he hwrong => ?_, fun t ht => ?_, fun u hu hstage => ?_,
    fun f hf htrips => ?_, fun u hu hstage => ?_, h.throttled⟩
  · exact h.nonneg_move hcall u hu
  · exact h.logged_move hcall (by nofun) u hu hstage
  · rcases h.settled e he hwrong with hold | hbehind
    · rcases hpending _ hold with hother | heq
      · exact .inl hother
      · exact .inr fun r hr => heq ▸ hlater r hr
    · exact .inr (hbehind.of_ahead hahead)
  · have hrecent := recent_record cfg c.failure (hlater t ht)
    have hmove := hfailing t
    have hcount := h.counted t (hahead t ht)
    have hin : (t - minute < call.now && call.now ≤ t) = decide (t - minute < call.now) := by
      rw [decide_eq_true (hlater t ht), Bool.and_true]
    rw [hin] at hmove
    simp only [decide_eq_true_eq] at hmove
    show recentWrong c.evaluated t ≤ ((c.failure.record cfg call.now).attempts.countP fun attempt =>
      t - minute < attempt) + c.lapsed t + (c.move id call .returned).failing t
    unfold recent at hcount
    omega
  · rcases mem_calls_of_move hu with hu | rfl
    · have hrecent := recent_record cfg c.failure (horder u hu hstage)
      rcases h.bounded u hu hstage with hnone | ⟨hfew, -⟩ | hfits
      · omega
      · exact .inl (show (c.move id call .returned).wrongs auth = 0 by omega)
      · refine .inr (.inr ?_)
        show ((((c.failure.record cfg call.now).attempts.countP fun attempt =>
          u.now - minute < attempt) + c.lapsed u.now + (c.move id call .returned).wrongs auth +
            (if (c.move id call .returned).rights auth = 0 ∧ c.lapsed u.now = 0 then 0 else 1) :
              Nat) : Int) ≤ _
        unfold recent at hfits
        split at hrecent <;> split at hfits <;> split <;> omega
    · cases hstage
  · -- the cooldown begins with the last of the failures that share its reading
    have hrecorded : c.Pending f.now → (c.move id call .returned).Pending f.now ∨
        f.now = call.now ∧ f.now + cfg.loginCooldown ≤
          (c.failure.record cfg call.now).cooldownUntil := by
      intro hold
      rcases hpending _ hold with hother | heq
      · exact .inl hother
      · by_cases hmore : (c.move id call .returned).Pending call.now
        · exact .inl (heq ▸ hmore)
        · refine .inr ⟨heq, ?_⟩
          have hnone : (c.move id call .returned).failing call.now = 0 := by
            refine List.countP_eq_zero.2 fun u hu hin => hmore ⟨u, hu, ?_⟩
            simp only [Bool.and_eq_true, decide_eq_true_eq] at hin
            refine ⟨hin.1, Int.le_antisymm hin.2.2 ?_⟩
            rcases mem_calls_of_move hu with hu | rfl
            · exact horder u hu (by rw [hin.1]; rfl)
            · exact Int.le_refl _
          have hlast := hfailing call.now
          have hcount := h.counted call.now hself
          have hlength := length_record cfg c.failure call.now
          have hmany : cfg.loginFailuresPerMinute ≤ recentWrong c.evaluated call.now :=
            heq ▸ htrips.2
          have hfull : cfg.loginFailuresPerMinute ≤
              (c.failure.record cfg call.now).attempts.length := by
            have hle := failing_le_wrongs h.keyed call.now
            unfold recent at hcount
            rcases hmine with hnone | ⟨-, hlapsed⟩ | hfits
            · omega
            · split at hlast <;> omega
            · unfold recent at hfits
              split at hlast <;> split at hfits <;> omega
          rw [heq, LoginFailures.record]
          rw [LoginFailures.record] at hfull
          exact Int.le_of_eq (if_pos hfull).symm
    rcases h.tripped f hf htrips with hold | ⟨hbehind, hclosed⟩
    · refine (hrecorded hold).imp_right fun ⟨heq, hle⟩ => ⟨fun r hr => heq ▸ hlater r hr, .inl hle⟩
    · refine .inr ⟨hbehind.of_ahead hahead, hclosed.imp_left fun hle => ?_⟩
      have hnow := hbehind _ hself
      show _ ≤ (c.failure.record cfg call.now).cooldownUntil
      rw [LoginFailures.record]
      dsimp only
      split
      · omega
      · exact hle
  · rcases mem_calls_of_move hu with hu | rfl
    · obtain ⟨hcooldown, hover⟩ := h.free u hu hstage
      refine ⟨?_, hover⟩
      -- with another call under way there was room for this failure
      have hbelow := hmine.failing_lt h.keyed hu hstage hone call.now
      have hlength := length_record cfg c.failure call.now
      have hnot : ¬cfg.loginFailuresPerMinute ≤
          (c.failure.record cfg call.now).attempts.length := by
        unfold recent at hbelow
        omega
      show (c.failure.record cfg call.now).cooldownUntil ≤ u.now
      rw [LoginFailures.record] at hnot ⊢
      rw [if_neg hnot]
      exact hcooldown
    · cases hstage

/-! ## A session forgets the failures -/

theorem Sound.forget (h : c.Sound cfg auth) (hcall : c.calls[id]? = some call)
    (hcreated : call.stage = .created) :
    ({ c.move id call .returned with
      failure := {}, forgotten := c.failure.attempts ++ c.forgotten } : Client).Sound cfg auth := by
  obtain ⟨e, he, hnow⟩ := h.logged call (mem_of_turn hcall) (by rw [hcreated]; rfl)
  obtain ⟨hcooldown, -⟩ := h.free call (mem_of_turn hcall) (by rw [hcreated]; rfl)
  have hunder : LoginStage.returned.underWay = true → call.stage.underWay = true :=
    fun hstage => by cases hstage
  have hahead : ∀ t, ({ c.move id call .returned with
      failure := {}, forgotten := c.failure.attempts ++ c.forgotten } : Client).Ahead t →
      c.Ahead t :=
    fun t ht => ahead_of_move hcall _ hunder ht
  have hpending : ∀ t, c.Pending t → (c.move id call .returned).Pending t :=
    fun _ => pending_move hcall (by rw [hcreated]; decide)
  have hlapsed : ∀ t, ((c.failure.attempts ++ c.forgotten).countP fun attempt =>
      t - minute < attempt) = c.recent t + c.lapsed t := fun _ => List.countP_append
  have hright : 0 < c.rights auth := by
    refine List.countP_pos_iff.2 ⟨call, mem_of_turn hcall, ?_⟩
    have hkey := (h.keyed call (mem_of_turn hcall) (by rw [hcreated]; rfl)).not.1
      (by rw [hcreated]; decide)
    rw [hcreated, eq_false_of_ne_true hkey]
    rfl
  have hwrongs : (c.move id call .returned).wrongs auth ≤ c.wrongs auth :=
    underWay_move_le hcall hunder _ rfl
  refine ⟨fun u hu => ?_, h.keyed.move (by nofun), fun u hu hstage => ?_,
    fun e he hwrong => ?_, fun t ht => ?_, fun u hu hstage => ?_,
    fun f hf htrips => ?_, fun u hu hstage => ?_, h.throttled⟩
  · exact h.nonneg_move hcall u hu
  · exact h.logged_move hcall (by nofun) u hu hstage
  · exact (h.settled e he hwrong).imp (hpending _) fun hbehind => hbehind.of_ahead hahead
  · have hfailing : (c.move id call .returned).failing t = c.failing t :=
      failing_move hcall (by rw [hcreated]; decide) (by decide)
    have hcount := h.counted t (hahead t ht)
    show recentWrong c.evaluated t ≤ 0 + ((c.failure.attempts ++ c.forgotten).countP fun attempt =>
      t - minute < attempt) + (c.move id call .returned).failing t
    rw [hlapsed, hfailing]
    omega
  · -- what was recorded is forgotten, and the right key is under way no more
    rcases mem_calls_of_move hu with hu | rfl
    · rcases h.bounded u hu hstage with hnone | ⟨hfew, -⟩ | hfits
      · exact .inl (Nat.le_zero.1 (hnone ▸ hwrongs))
      · exact .inl (show (c.move id call .returned).wrongs auth = 0 by omega)
      · refine .inr (.inr ?_)
        show ((0 + ((c.failure.attempts ++ c.forgotten).countP fun attempt =>
          u.now - minute < attempt) + (c.move id call .returned).wrongs auth +
            (if _ ∧ _ then 0 else 1) : Nat) : Int) ≤ _
        rw [hlapsed]
        rw [if_neg fun hnone => absurd hnone.1 (Nat.pos_iff_ne_zero.1 hright)] at hfits
        split <;> omega
    · cases hstage
  · refine (h.tripped f hf htrips).imp (hpending _) fun ⟨hbehind, hclosed⟩ =>
      ⟨hbehind.of_ahead hahead, .inr ?_⟩
    rcases hclosed with hle | hlogged
    · exact ⟨e, he, by omega⟩
    · exact hlogged
  · rcases mem_calls_of_move hu with hu | rfl
    · exact ⟨h.nonneg u hu, (h.free u hu hstage).2⟩
    · cases hstage

/-! ## Every step -/

theorem Sound.act (h : c.Sound cfg auth) {clock : Int} (hclock : 0 ≤ clock) {act : LoginAct}
    (horderly : c.Orderly cfg auth act) : (c.act cfg auth clock act).Sound cfg auth := by
  have hturn : ∀ id act,
      (∀ call, c.calls[id]? = some call → (c.turn cfg auth id call act).Sound cfg auth) →
      (c.goOn cfg auth id act).Sound cfg auth := by
    intro id act hall
    rw [goOn]
    split
    · exact h
    · next call hcall => exact hall call hcall
  cases act with
  | begin key => exact h.begin hclock key
  | check id =>
      refine hturn id _ fun call hcall => ?_
      rw [turn]
      split
      · next hbegun =>
          split
          · exact h.quiet hcall (by rw [hbegun]; decide) (by decide) (fun hstage => by cases hstage)
              (fun hstage => by cases hstage) fun hstage => by cases hstage
          · next hopen =>
              obtain ⟨hlog, hself, hroom⟩ := horderly call hcall hbegun (Int.not_lt.1 hopen)
              exact h.pass hcall hbegun (Int.not_lt.1 hopen) hlog hself fun u hu hstage =>
                (hroom u hu hstage).2
      · exact h
  | evaluate id =>
      refine hturn id _ fun call hcall => ?_
      rw [turn]
      split
      · next hchecked => exact h.evaluate hcall hchecked
      · exact h
  | record id =>
      refine hturn id _ fun call hcall => ?_
      rw [turn]
      split
      · next hfailed => exact h.record hcall hfailed (horderly call hcall hfailed)
      · exact h
  | create id random =>
      refine hturn id _ fun call hcall => ?_
      rw [turn]
      split
      · next haccepted =>
          cases random with
          | true =>
              exact h.quiet hcall (by rw [haccepted]; decide) (by decide)
                (fun _ => by rw [haccepted]; rfl) (fun _ => by rw [haccepted]; rfl)
                fun _ => by rw [haccepted]; rfl
          | false =>
              exact h.quiet hcall (by rw [haccepted]; decide) (by decide)
                (fun hstage => by cases hstage) (fun hstage => by cases hstage)
                fun hstage => by cases hstage
      · exact h
  | forget id =>
      refine hturn id _ fun call hcall => ?_
      rw [turn]
      split
      · next hcreated => exact h.forget hcall hcreated
      · exact h

end Client

namespace Logins

/-- A step of the client's logins is orderly. -/
def Orderly (cfg : ManagementSecurity) (auth : Authenticator) (client : String) (s : Logins) :
    LoginOp → Prop
  | .advance _ => True
  | .login address act => address = client → (s.clients client).Orderly cfg auth act

instance (client : String) (s : Logins) (op : LoginOp) :
    Decidable (Orderly cfg auth client s op) := by
  cases op <;> unfold Orderly <;> infer_instance

theorem sound_step {client : String} {s : Logins} {op : LoginOp} (hclock : 0 ≤ s.clock)
    (h : (s.clients client).Sound cfg auth) (horderly : Orderly cfg auth client s op) :
    ((step cfg auth s op).clients client).Sound cfg auth := by
  cases op with
  | advance elapsed => exact h
  | login address act =>
      show (Function.update s.clients address _ client).Sound cfg auth
      rw [Function.update_apply]
      split
      · next heq =>
          rw [← heq]
          exact h.act hclock (horderly heq.symm)
      · exact h

/-- Whatever other clients do, and in whatever order the calls of this one take
their turns, as long as they do so in an orderly way. -/
theorem logins_throttled (cfg : ManagementSecurity) (auth : Authenticator) (client : String)
    (ops : List LoginOp) (h : Along (step cfg auth) (Orderly cfg auth client) {} ops) :
    Throttled cfg ((run cfg auth ops).clients client).evaluated := by
  have hsound : 0 ≤ (run cfg auth ops).clock ∧
      ((run cfg auth ops).clients client).Sound cfg auth := by
    refine Along.invariant (P := fun s => 0 ≤ s.clock ∧ (s.clients client).Sound cfg auth)
      (fun s op hs horderly => ⟨?_, sound_step hs.1 hs.2 horderly⟩)
      ⟨Int.le_refl 0, Client.sound_start⟩ h
    cases op with
    | advance elapsed =>
        show 0 ≤ s.clock + elapsed
        have := hs.1
        omega
    | login address act => exact hs.1
  exact hsound.2.throttled

/-- The limits as they are without a configuration, and keys. -/
def defaults : ManagementSecurity := ⟨5, 30 * 1000000000⟩

def keys : Authenticator := ⟨true, "", "123456789012345678901234", ""⟩

/-- A slip and then the right key, and two logins that overlap, both with a
wrong key. -/
def twoGuesses : List LoginOp :=
  [.begin "12345678901234567890123", .check 0, .evaluate 0, .record 0].map (.login "::1") ++
    .advance 1000000000 ::
      [.begin "123456789012345678901234", .check 1, .evaluate 1, .create 1 true, .forget 1,
        .begin "a", .begin "b", .check 2, .check 3, .evaluate 3, .evaluate 2, .record 2,
        .record 3].map (.login "::1")

theorem logins_throttled_twoGuesses :
    ((run defaults keys twoGuesses).clients "::1").evaluated.map (·.accepted) =
        [false, false, true, false] ∧
      Throttled defaults ((run defaults keys twoGuesses).clients "::1").evaluated := by
  have horderly : Along (step defaults keys) (Orderly defaults keys "::1") {} twoGuesses := by
    decide +kernel
  exact ⟨by decide +kernel, logins_throttled defaults keys "::1" twoGuesses horderly⟩

/-- Seven logins at once. -/
def sevenGuesses : List LoginOp :=
  (List.range 7).map (fun _ => .login "::1" (.begin "a")) ++
    (List.range 7).map (fun id => .login "::1" (.check id)) ++
    (List.range 7).map fun id => .login "::1" (.evaluate id)

/-- All of them get as far as their keys. -/
theorem not_throttled_sevenGuesses :
    ¬Throttled defaults ((run defaults keys sevenGuesses).clients "::1").evaluated := by
  decide +kernel

end Logins

end RelayLifeline.Admin
