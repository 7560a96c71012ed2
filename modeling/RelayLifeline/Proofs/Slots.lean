import RelayLifeline.Proofs.Atomicity

/-!
# The attempts outstanding under a reservation

What each operation does to the set of attempts that are outstanding under one
reservation. A call about another reservation leaves it alone; a binding moves
its attempts and leaves each outstanding; an admission opens one, beginning adds
one, settling takes one away, and a release takes all.
-/

namespace RelayLifeline.Governance

open Lib

namespace Manager

/-- An attempt of the name is outstanding under the reservation. -/
def Busy (m : Manager) (id name : String) : Prop :=
  ∃ reservation, m.reservations.get? id = some reservation ∧
    ∃ attempt ∈ reservation.attempts.items, attempt.id = name ∧ attempt.outstanding = true

/-- The reservation is well formed, if there is one. -/
def Tidy (m : Manager) (id : String) : Prop :=
  ∀ reservation, m.reservations.get? id = some reservation → reservation.WellFormed

variable {m m' : Manager} {op : Op} {e : Effect} {id name : String}

theorem busy_congr (h : m'.reservations.get? id = m.reservations.get? id) :
    m'.Busy id name ↔ m.Busy id name := by
  rw [Busy, Busy, h]

theorem tidy_congr (h : m'.reservations.get? id = m.reservations.get? id) :
    m'.Tidy id ↔ m.Tidy id := by
  rw [Tidy, Tidy, h]

/-- A well-formed reservation that was found has an attempt outstanding under a
name where it has one under it that is. -/
theorem not_busy_of_settled {reservation : ReservationState}
    (hget : m.reservations.get? id = some reservation) (h : reservation.WellFormed)
    (hlookup : (reservation.settlements.lookup name).isSome) : ¬ m.Busy id name := by
  rintro ⟨found, hfound, attempt, hin, rfl, hout⟩
  obtain rfl := Option.some.inj (hget.symm.trans hfound)
  obtain ⟨other, hother, heq, hsettled⟩ := (h.settled attempt.id).1 hlookup
  obtain rfl := Table.key_injOn reservation.attempts.nodup hother hin heq
  rw [AttemptState.outstanding, hsettled] at hout
  simp at hout

/-! ## One change -/

/-- A change reaches no reservation but its own. -/
theorem Makes.get?_of_ne (h : Makes op m e m') (hid : id ≠ op.call.id) :
    m'.reservations.get? id = m.reservations.get? id := by
  have hown : e.id = op.call.id := h.allowed.id_eq
  have hkey : id ≠ key (e.reservationAfter m.windows) := by
    rw [key_reservation, reservationAfter_id, hown]
    exact hid
  rw [h.reservations]
  cases e with
  | released reservation =>
      refine Table.get?_erase_of_ne fun heq => hid ?_
      rw [heq, ← hown]
      rfl
  | admitted => exact Table.get?_set_of_ne hkey
  | bound => exact Table.get?_set_of_ne hkey
  | began => exact Table.get?_set_of_ne hkey
  | settled => exact Table.get?_set_of_ne hkey

theorem Transition.get?_of_ne (h : Transition op m m') (hid : id ≠ op.call.id) :
    m'.reservations.get? id = m.reservations.get? id := by
  cases h with
  | quiet hq => rw [hq.reservations]
  | change hmakes => exact hmakes.get?_of_ne hid
  | beginAndSettle hbegan hsettled => rw [hsettled.get?_of_ne hid, hbegan.get?_of_ne hid]

/-- What is under the identifier after a change that is no release. -/
theorem Makes.get?_self (h : Makes op m e m') (hreleased : ∀ reservation, e ≠ .released reservation) :
    m'.reservations.get? e.id = some (e.reservationAfter m.windows) := by
  have hself := Table.get?_set_self (t := m.reservations) (a := e.reservationAfter m.windows)
  rw [key_reservation, reservationAfter_id] at hself
  rw [h.reservations]
  cases e with
  | released reservation => exact absurd rfl (hreleased reservation)
  | admitted => exact hself
  | bound => exact hself
  | began => exact hself
  | settled => exact hself

theorem Makes.busy_admitted {reservation : ReservationState} {attempt : AttemptState}
    (h : Makes op m (.admitted reservation attempt) m') :
    (m'.Busy reservation.id name → name = "attempt-1") ∧ m'.Tidy reservation.id := by
  have hget := h.get?_self (fun _ => Effect.noConfusion)
  have hallowed := h.allowed
  cases hallowed with
  | @admitted _ admission keys amounts htarget hnamed hp hfresh hcharged hreserved =>
    constructor
    · rintro ⟨found, hfound, attempt, hin, rfl, -⟩
      obtain rfl := Option.some.inj (hget.symm.trans hfound)
      have hopen : attempt ∈ [initialAttempt op.clk amounts keys] := hin
      rw [List.mem_singleton.1 hopen]
      rfl
    · intro found hfound
      obtain rfl := Option.some.inj (hget.symm.trans hfound)
      subst hcharged hreserved
      exact m.openReservation_charged op.clk _ hp

theorem Makes.busy_bound {reservation : ReservationState} {upstream : String}
    {newKeys : List String} {amounts : List AttemptReservationEvent}
    (h : Makes op m (.bound reservation upstream newKeys amounts) m')
    (htidy : m.Tidy reservation.id) :
    (m'.Busy reservation.id name → m.Busy reservation.id name) ∧ m'.Tidy reservation.id := by
  have hget := h.get?_self (fun _ => Effect.noConfusion)
  have hallowed := h.allowed
  cases hallowed with
  | bound hcall htrim hfound hnamed helse hcharged hreserved =>
    constructor
    · rintro ⟨found, hin', attempt, hin, rfl, hout⟩
      obtain rfl := Option.some.inj (hget.symm.trans hin')
      obtain ⟨old, hold, rfl⟩ := (mem_bound_attempts m.windows upstream newKeys amounts attempt).1 hin
      refine ⟨reservation, hfound, old, hold, ?_, ?_⟩
      · split <;> rfl
      · by_cases hold : old.outstanding = true
        · exact hold
        · rwa [if_neg hold] at hout
    · intro found hin'
      obtain rfl := Option.some.inj (hget.symm.trans hin')
      subst hcharged hreserved
      have hr := htidy reservation hfound
      exact bound_wellFormed _ _ hr (budgetKeys_reservationKeys _ _ hr.principal _)

theorem Makes.busy_began {reservation : ReservationState} {attempt : AttemptState}
    (h : Makes op m (.began reservation attempt) m') (htidy : m.Tidy reservation.id) :
    (m'.Busy reservation.id name → m.Busy reservation.id name ∨ name = attempt.id) ∧
      m'.Tidy reservation.id := by
  have hget := h.get?_self (fun _ => Effect.noConfusion)
  have hallowed := h.allowed
  cases hallowed with
  | began htarget hfound hnamed hfresh hreserved =>
    constructor
    · rintro ⟨found, hin', other, hin, rfl, hout⟩
      obtain rfl := Option.some.inj (hget.symm.trans hin')
      rcases Table.mem_set.1 hin with rfl | ⟨hin, -⟩
      · exact .inr rfl
      · exact .inl ⟨reservation, hfound, other, hin, rfl, hout⟩
    · intro found hin'
      obtain rfl := Option.some.inj (hget.symm.trans hin')
      subst hreserved
      have hr := htidy reservation hfound
      obtain ⟨ht, hc⟩ := m.amounts_nonneg reservation.model reservation.budgetKeys
      exact addAttempt_wellFormed hr (allowedAttempt_wellFormed op.clk hnamed hr ht hc) rfl rfl hfresh

theorem Makes.busy_settled {reservation : ReservationState} {attempt : AttemptState}
    {event : UsageRecordedEvent} (h : Makes op m (.settled reservation attempt event) m')
    (htidy : m.Tidy reservation.id) :
    (m'.Busy reservation.id name → m.Busy reservation.id name ∧ name ≠ attempt.id) ∧
      m'.Tidy reservation.id := by
  have hget := h.get?_self (fun _ => Effect.noConfusion)
  have hallowed := h.allowed
  cases hallowed with
  | settled htarget hfound hnamed hbegun hfresh =>
    constructor
    · rintro ⟨found, hin', other, hin, rfl, hout⟩
      obtain rfl := Option.some.inj (hget.symm.trans hin')
      rcases (mem_settled_attempts m.windows _ other).1 hin with rfl | ⟨hin, hne⟩
      · cases hout
      · exact ⟨⟨reservation, hfound, other, hin, rfl, hout⟩, hne⟩
    · intro found hin'
      obtain rfl := Option.some.inj (hget.symm.trans hin')
      exact settled_wellFormed _ _ (htidy reservation hfound) hbegun rfl

theorem Makes.busy_released {reservation : ReservationState}
    (h : Makes op m (.released reservation) m') : m'.reservations.get? reservation.id = none := by
  rw [h.reservations]
  exact Table.get?_erase_self

/-! ## Each operation -/

theorem Quiet.busy_iff (h : Quiet m m') : m'.Busy id name ↔ m.Busy id name :=
  busy_congr (by rw [h.reservations])

theorem Quiet.tidy_iff (h : Quiet m m') : m'.Tidy id ↔ m.Tidy id :=
  tidy_congr (by rw [h.reservations])

/-- An admission under an identifier that is taken is refused. -/
theorem admitWithContext_taken (m : Manager) (clk : Clock) (canceled : Bool) (raw : String)
    (admission : AdmissionContext) (h : (m.reservations.get? (trimSpace raw)).isSome) :
    (m.admitWithContext clk canceled raw admission).2.2 ≠ none := by
  rw [admitWithContext]
  split
  · exact Option.some_ne_none _
  dsimp only
  split
  · exact Option.some_ne_none _
  rw [admitNormalized]
  split
  · exact Option.some_ne_none _
  · exact Option.some_ne_none _

/-- An admission that succeeds opens one attempt. -/
theorem busy_admitWithContext {clk : Clock} {canceled : Bool} {raw : String}
    {admission : AdmissionContext}
    (h : (m.admitWithContext clk canceled raw admission).2.2 = none) :
    ((m.admitWithContext clk canceled raw admission).1.Busy (trimSpace raw) name →
        name = "attempt-1") ∧
      (m.admitWithContext clk canceled raw admission).1.Tidy (trimSpace raw) := by
  have hfree : ∀ reservation, m.reservations.get? (trimSpace raw) ≠ some reservation := by
    intro reservation hget
    exact m.admitWithContext_taken clk canceled raw admission (by rw [hget]; rfl) h
  have hasked := m.admitWithContext_asked clk canceled raw admission
  dsimp only at hasked
  generalize m.admitWithContext clk canceled raw admission = result at h hasked
  obtain ⟨m', decision, error⟩ := result
  dsimp only at h hasked ⊢
  subst h
  cases hasked with
  | idle nothing => cases nothing
  | @granted e d asked charged hmakes =>
    have hid : e.id = trimSpace raw := hmakes.allowed.id_eq
    have hallowed := hmakes.allowed
    cases e with
    | admitted reservation attempt =>
      rw [← hid]
      exact hmakes.busy_admitted
    | bound reservation upstream newKeys amounts => cases hallowed with | bound hcall => cases hcall
    | began reservation attempt =>
      cases hallowed with
      | began htarget hfound => exact absurd (hid ▸ hfound) (hfree reservation)
    | settled reservation attempt event => cases charged
    | released reservation => cases charged

theorem busy_bindUpstream (m : Manager) (clk : Clock) (id raw : String) (htidy : m.Tidy id) :
    ((m.bindUpstreamWithDecision clk id raw).1.Busy id name → m.Busy id name) ∧
      (m.bindUpstreamWithDecision clk id raw).1.Tidy id := by
  rw [bindUpstreamWithDecision]
  dsimp only
  split
  · exact ⟨fun h => h, htidy⟩
  next hnamed =>
    split
    · exact ⟨fun h => h, htidy⟩
    next reservation hget =>
      obtain rfl : reservation.id = id := Table.key_of_get? hget
      split
      · exact ⟨fun h => h, htidy⟩
      next helse =>
        split
        · exact ⟨fun h => h, htidy⟩
        next amounts hamounts =>
          obtain ⟨hreserved, hlimits⟩ := bindingAmounts_ok.1 hamounts
          have hallowed : Effect.Allowed m ⟨clk, .bindUpstream reservation.id raw⟩
              (.bound reservation (trimSpace raw) (m.keysAt reservation (trimSpace raw)) amounts) :=
            .bound rfl rfl hget (fun h => hnamed (.inl h)) helse rfl hreserved hlimits
          rcases happ : m.append clk reservation.id (.bound
            { principal := reservation.principal, upstream := trimSpace raw,
              budgetKeys := m.keysAt reservation (trimSpace raw),
              attemptReservations := amounts, boundAt := clk.now }) with ⟨m₁, ok⟩
          dsimp only
          split
          next hfail =>
            obtain rfl : ok = false := by simpa using hfail.1
            have hquiet : Quiet m m₁ := quiet_append happ
            exact ⟨hquiet.busy_iff.1, hquiet.tidy_iff.2 htidy⟩
          next =>
            have hmakes : Makes ⟨clk, .bindUpstream reservation.id raw⟩ m
                (.bound reservation (trimSpace raw) (m.keysAt reservation (trimSpace raw)) amounts)
                (m₁.rebound reservation (trimSpace raw) (m.keysAt reservation (trimSpace raw))
                  amounts) :=
              makes_of_append (.refl m) hallowed happ rfl rfl rfl
            exact hmakes.busy_bound htidy

theorem busy_begin (m : Manager) (clk : Clock) (id raw : String) (hid : trimSpace raw ≠ "")
    (htidy : m.Tidy id) :
    ((m.begin clk id (trimSpace raw)).1.Busy id name → m.Busy id name ∨ name = trimSpace raw) ∧
      (m.begin clk id (trimSpace raw)).1.Tidy id := by
  rw [begin]
  split
  · exact ⟨.inl, htidy⟩
  next reservation hget =>
    obtain rfl : reservation.id = id := Table.key_of_get? hget
    split
    next existing hexisting =>
      split
      · exact ⟨.inl, htidy⟩
      · exact ⟨.inl, htidy⟩
    next hfresh =>
      dsimp only
      split
      next hd =>
        have hallowed := began_allowed ⟨clk, .beginAttempt reservation.id raw⟩ rfl hget hid hfresh hd
        rcases hreserve : m.reserveAttempt clk reservation (allowedAttempt clk reservation
          (trimSpace raw) ((m.attemptDecision reservation clk.window
            reservation.budgetKeys).reservedTokens, (m.attemptDecision reservation clk.window
            reservation.budgetKeys).reservedCostMicros)) with ⟨m', error⟩
        rcases reserveAttempt_cases hallowed hreserve with ⟨rfl, hmakes⟩ | ⟨hne, hquiet⟩
        · exact hmakes.busy_began htidy
        · obtain ⟨error, rfl⟩ := Option.ne_none_iff_exists'.1 hne
          exact ⟨fun h => .inl (hquiet.busy_iff.1 h), hquiet.tidy_iff.2 htidy⟩
      next =>
        have hquiet := m.quiet_reject ((m.attemptDecision reservation clk.window
          reservation.budgetKeys).reason.getD .budgetLimit)
        exact ⟨fun h => .inl (hquiet.busy_iff.1 h), hquiet.tidy_iff.2 htidy⟩

theorem busy_release (m : Manager) (clk : Clock) (id : String) (htidy : m.Tidy id) :
    ((m.release clk id).1.Busy id name → m.Busy id name) ∧ (m.release clk id).1.Tidy id := by
  rcases m.release_cases clk id with hquiet | ⟨reservation, hmakes⟩
  · exact ⟨hquiet.busy_iff.1, hquiet.tidy_iff.2 htidy⟩
  · have hid : reservation.id = id := hmakes.allowed.id_eq
    have hnone := hmakes.busy_released
    rw [hid] at hnone
    constructor
    · rintro ⟨found, hfound, -⟩
      rw [hnone] at hfound
      cases hfound
    · intro found hfound
      rw [hnone] at hfound
      cases hfound

/-! ## A settlement -/

theorem takes_one_of_two (h : m.takes 2 = true) : m.takes 1 = true := by
  rw [takes] at h ⊢
  cases hledger : m.ledger with
  | none => rfl
  | some ledger =>
    rw [hledger, Option.all_some, Ledger.takes, Bool.and_eq_true, List.all_eq_true] at h
    rw [Option.all_some, Ledger.takes, Bool.and_eq_true, List.all_eq_true]
    exact ⟨h.1, fun b hb => h.2 b (List.take_subset_take_left _ (by decide) hb)⟩

/-- What a settlement leaves outstanding: what was, without the attempt, unless
the manager enforces and could not write it down. -/
theorem busy_settle {clk : Clock} {reservation : ReservationState} {attempt : AttemptState}
    (usage : Usage) {raw : String} (hget : m.reservations.get? reservation.id = some reservation)
    (hid : attempt.id ≠ "") (hbegun : reservation.attempts.get? attempt.id = some attempt)
    (hfresh : reservation.settlements.lookup attempt.id = none) (htidy : m.Tidy reservation.id) :
    let result := m.settle clk reservation attempt attempt.id usage
    (result.1.Busy reservation.id name → m.Busy reservation.id name ∧
      (name = attempt.id → result.2.2.isSome ∧ m.enforcing = true ∧ m.takes 1 = false)) ∧
    result.1.Tidy reservation.id := by
  have hallowed : Effect.Allowed m ⟨clk, .record reservation.id raw usage⟩
      (.settled reservation attempt (m.usageEvent clk reservation attempt attempt.id usage)) :=
    .settled rfl hget hid hbegun hfresh
  have htakes : m.takes 1 = true → (m.append clk reservation.id (.usageRecorded
      (m.usageEvent clk reservation attempt attempt.id usage))).2 = true :=
    fun h => (m.append_takes clk _ _).trans h
  rw [settle]
  dsimp only
  rcases happ : m.append clk reservation.id (.usageRecorded
    (m.usageEvent clk reservation attempt attempt.id usage)) with ⟨m₁, ok⟩
  rw [happ] at htakes
  dsimp only at htakes ⊢
  split
  next hfail =>
    obtain rfl : ok = false := by simpa using hfail.1
    have hquiet : Quiet m m₁ := quiet_append happ
    refine ⟨fun h => ⟨hquiet.busy_iff.1 h, fun _ => ⟨rfl, ?_, ?_⟩⟩, hquiet.tidy_iff.2 htidy⟩
    · rw [← hquiet.enforcing]
      exact hfail.2
    · rw [← Bool.not_eq_true]
      exact fun h => Bool.noConfusion (htakes h)
  next =>
    have hmakes : Makes ⟨clk, .record reservation.id raw usage⟩ m
        (.settled reservation attempt (m.usageEvent clk reservation attempt attempt.id usage))
        (m₁.settled reservation attempt
          (m.usageEvent clk reservation attempt attempt.id usage)) :=
      makes_of_append (.refl m) hallowed happ rfl rfl rfl
    obtain ⟨hbusy, htidy⟩ := hmakes.busy_settled htidy
    exact ⟨fun h => ⟨(hbusy h).1, fun heq => absurd heq (hbusy h).2⟩, htidy⟩

/-- Beginning an attempt takes one write. -/
theorem takes_of_began {clk : Clock} {reservation : ReservationState} {attemptID : String}
    {attempt : AttemptState}
    (h : m.beginAttemptLocked clk reservation attemptID = (m', .ok attempt))
    (htakes : m.takes 2 = true) : m'.takes 1 = true := by
  rw [beginAttemptLocked] at h
  dsimp only at h
  split at h
  next =>
    split at h
    next m₁ hreserve =>
      cases h
      rw [reserveAttempt] at hreserve
      dsimp only at hreserve
      split at hreserve
      · cases hreserve
      · obtain ⟨rfl, -⟩ := Prod.mk.inj hreserve
        exact (takes_append (takes_one_of_two htakes)).trans htakes
    next => cases h
  next => cases h

/-- What `Record` leaves outstanding: nothing new but its attempt, and that only
where it fails for the length of the name, or because the manager enforces and
could not write it down. -/
theorem busy_record (m : Manager) (clk : Clock) (id raw : String) (usage : Usage)
    (htidy : m.Tidy id) :
    let result := m.record clk id raw usage
    (result.1.Busy id name → (m.Busy id name ∨ name = trimSpace raw) ∧
      (name = trimSpace raw → result.2.2.isSome ∧
        (trimSpace raw ≠ "" → (trimSpace raw).utf8ByteSize ≤ 128 →
          m.enforcing = true ∧ m.takes 2 = false))) ∧
    result.1.Tidy id := by
  rw [record]
  dsimp only
  generalize trimSpace raw = attemptID
  split
  next hbad =>
    refine ⟨fun h => ⟨.inl h, fun _ => ⟨rfl, fun hne hfits => ?_⟩⟩, htidy⟩
    rcases hbad with hempty | hlong
    · exact absurd hempty hne
    · omega
  next hid =>
    have hne : attemptID ≠ "" := fun h => hid (.inl h)
    split
    next hnone =>
      refine ⟨?_, htidy⟩
      rintro ⟨found, hfound, -⟩
      rw [hnone] at hfound
      cases hfound
    next reservation hget =>
      obtain rfl : reservation.id = id := Table.key_of_get? hget
      split
      next cost hlookup =>
        refine ⟨fun h => ⟨.inl h, ?_⟩, htidy⟩
        rintro rfl
        exact absurd h (not_busy_of_settled hget (htidy reservation hget) (by rw [hlookup]; rfl))
      next hlookup =>
        split
        next attempt hattempt =>
          obtain rfl : attempt.id = attemptID := Table.key_of_get? hattempt
          obtain ⟨hbusy, htidy'⟩ := @busy_settle m name clk reservation attempt usage raw hget hne
            hattempt hlookup htidy
          refine ⟨fun h => ⟨.inl (hbusy h).1, fun heq => ?_⟩, htidy'⟩
          obtain ⟨herror, henforcing, htakes⟩ := (hbusy h).2 heq
          refine ⟨herror, fun _ _ => ⟨henforcing, ?_⟩⟩
          rw [← Bool.not_eq_true] at htakes ⊢
          exact fun h => htakes (takes_one_of_two h)
        next hfresh =>
          split
          next m₁ error hbegin =>
            have hquiet := quiet_beginAttemptLocked ⟨clk, .record reservation.id raw usage⟩ rfl hget
              hne hfresh hbegin
            refine ⟨fun h => ⟨.inl (hquiet.busy_iff.1 h), ?_⟩, hquiet.tidy_iff.2 htidy⟩
            rintro rfl
            obtain ⟨found, hfound, attempt, hin, heq, -⟩ := hquiet.busy_iff.1 h
            obtain rfl := Option.some.inj (hget.symm.trans hfound)
            exact absurd heq (Table.get?_eq_none.1 hfresh attempt hin)
          next m₁ attempt hbegin =>
            obtain ⟨hbegan, rfl⟩ := makes_beginAttemptLocked
              ⟨clk, .record reservation.id raw usage⟩ rfl hget hne hfresh hbegin
            obtain ⟨hbusy₁, htidy₁⟩ := hbegan.busy_began htidy
            have hget₁ := hbegan.get?_began
            rw [hget₁]
            dsimp only
            obtain ⟨hbusy, htidy'⟩ := @busy_settle m₁ name clk (reservation.addAttempt attempt)
              attempt usage raw hget₁ hne (reservation.get?_addAttempt attempt) hlookup htidy₁
            refine ⟨fun h => ⟨hbusy₁ (hbusy h).1, fun heq => ?_⟩, htidy'⟩
            obtain ⟨herror, henforcing, htakes⟩ := (hbusy h).2 heq
            rw [hbegan.enforcing] at henforcing
            refine ⟨herror, fun _ _ => ⟨henforcing, ?_⟩⟩
            rw [← Bool.not_eq_true] at htakes ⊢
            exact fun h => htakes (takes_of_began hbegin h)

end Manager

end RelayLifeline.Governance
