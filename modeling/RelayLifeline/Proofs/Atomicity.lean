import RelayLifeline.Governance.Compaction
import RelayLifeline.Proofs.Accounting

/-!
# Refused calls leave no trace

An operation of the manager checks and writes before it changes anything, so a
refused one changes nothing. Two operations are made of two others, and can be
refused half way: `BeginAttempt` at an upstream binds before it begins, and
`Record` of an attempt nobody began begins it before it settles it. What the
first half did then stays.
-/

namespace RelayLifeline.Governance

open Lib

/-- The next `n` writes to the ledger all succeed. -/
def Ledger.takes (ledger : Ledger) (n : Nat) : Bool :=
  ledger.state = .healthy && (ledger.faults.take n).all (!·)

/-- A call as a client can make it: one of the five operations, or
`BeginAttempt` at an upstream. -/
inductive Request where
  | call (op : Op)
  | beginAttemptAt (bindClk clk : Clock) (id attemptID upstream : String)

namespace Manager

def takes (m : Manager) (n : Nat) : Bool := m.ledger.all (·.takes n)

def request (m : Manager) : Request → Manager
  | .call op => m.perform op
  | .beginAttemptAt bindClk clk id attemptID upstream =>
      (m.beginAttempt bindClk clk id attemptID (some upstream)).1

/-- The error a request answers with. -/
def response (m : Manager) : Request → Option Error
  | .call op => m.answer op
  | .beginAttemptAt bindClk clk id attemptID upstream =>
      (m.beginAttempt bindClk clk id attemptID (some upstream)).2.2

/-- An attempt that may be begun: its name is in order, it is outstanding
already, or it is new, the limits allow it and the ledger takes it. -/
def Begins (m : Manager) (clk : Clock) (id attemptID : String) : Prop :=
  (∃ reservation, m.reservations.get? id = some reservation ∧
    ∃ attempt, reservation.attempts.get? (trimSpace attemptID) = some attempt ∧
      attempt.outstanding = true) ∨
    m.writes ⟨clk, .beginAttempt id attemptID⟩ = true ∧ m.takes 1 = true

/-- A request that is refused after its first half was done: the binding went
through and the attempt may not be begun, or the attempt went through and its
settlement cannot be written. -/
def Divides (m : Manager) : Request → Prop
  | .beginAttemptAt bindClk clk id attemptID upstream =>
      (trimSpace attemptID ≠ "" ∧ (trimSpace attemptID).utf8ByteSize ≤ 128) ∧
        (m.writes ⟨bindClk, .bindUpstream id upstream⟩ = true ∧ m.takes 1 = true) ∧
          ¬(m.perform ⟨bindClk, .bindUpstream id upstream⟩).Begins clk id attemptID
  | .call ⟨clk, .record id settlementID usage⟩ =>
      m.writes ⟨clk, .record id settlementID usage⟩ = true ∧
        (∀ reservation, m.reservations.get? id = some reservation →
          reservation.attempts.get? (trimSpace settlementID) = none) ∧
        m.takes 1 = true ∧ m.takes 2 = false
  | .call _ => False

/-! ## What the ledger takes -/

theorem append_takes (m : Manager) (clk : Clock) (id : String) (event : LedgerEvent) :
    (m.append clk id event).2 = m.takes 1 := by
  unfold append takes Ledger.takes
  cases hl : m.ledger with
  | none => rfl
  | some ledger =>
      simp only [Ledger.append, Option.all_some]
      cases hs : ledger.state with
      | closed => rfl
      | degraded => rfl
      | healthy =>
          cases hf : ledger.faults with
          | nil => rfl
          | cons fault faults => cases fault <;> rfl

/-- After one write that went through, the next is the second. -/
theorem takes_append {m : Manager} {clk : Clock} {id : String} {event : LedgerEvent}
    (h : m.takes 1 = true) : (m.append clk id event).1.takes 1 = m.takes 2 := by
  unfold append takes Ledger.takes at *
  cases hl : m.ledger with
  | none => rw [hl]; rfl
  | some ledger =>
      rw [hl] at h
      simp only [Ledger.append, Option.all_some] at h ⊢
      cases hs : ledger.state with
      | closed => rw [hs] at h; cases h
      | degraded => rw [hs] at h; cases h
      | healthy =>
          cases hf : ledger.faults with
          | nil => simp
          | cons fault faults =>
              cases fault with
              | true => rw [hs, hf] at h; cases h
              | false => simp

/-- A write goes through if the ledger takes it, and touches nothing but the
ledger and one counter. -/
theorem append_written (m : Manager) (clk : Clock) (id : String) (event : LedgerEvent) :
    ∃ m₁, m.append clk id event = (m₁, m.takes 1) ∧ m₁.enforcing = m.enforcing ∧
      m₁.accounts = m.accounts ∧ (m.takes 1 = true → m₁.takes 1 = m.takes 2) := by
  obtain ⟨hconfig, haccounts⟩ := append_rest m clk id event
  refine ⟨_, Prod.ext rfl (append_takes m clk id event), ?_, haccounts, takes_append⟩
  unfold enforcing
  rw [hconfig]

/-- An attempt that cannot be written down changes nothing. -/
theorem reserveAttempt_halves (m : Manager) (henf : m.enforcing = true) (clk : Clock)
    (reservation : ReservationState) (attempt : AttemptState) :
    ∃ m₁ error, m.reserveAttempt clk reservation attempt = (m₁, error) ∧
      ((m.takes 1 = true ∧ error = none ∧ m₁.enforcing = true ∧ m₁.takes 1 = m.takes 2 ∧
          m₁.reservations = m.reservations.set (reservation.addAttempt attempt)) ∨
        (m.takes 1 = false ∧ error ≠ none ∧ m₁.accounts = m.accounts)) := by
  obtain ⟨m₁, happ, henf₁, haccounts, htakes⟩ := m.append_written clk reservation.id
    (.attemptReserved
      { principal := reservation.principal, model := reservation.model, attemptID := attempt.id,
        windowStarted := attempt.windowStarted, reservedTokens := attempt.reservedTokens,
        reservedCostMicros := attempt.reservedCostMicros, budgetKeys := attempt.budgetKeys,
        reservedAt := clk.now })
  simp only [reserveAttempt, happ]
  cases htk : m.takes 1 with
  | false =>
      rw [if_pos ⟨rfl, henf₁.trans henf⟩]
      exact ⟨_, _, rfl, .inr ⟨rfl, by simp, haccounts⟩⟩
  | true =>
      rw [if_neg (by simp)]
      have hsame : m₁.reservations = m.reservations := congrArg Accounts.reservations haccounts
      refine ⟨_, _, rfl, .inl ⟨rfl, rfl, henf₁.trans henf, htakes htk, ?_⟩⟩
      rw [hsame]

/-! ## The two halves -/

/-- A binding that has to be written either goes through or changes nothing. -/
theorem bindUpstream_halves (m : Manager) (henf : m.enforcing = true) (clk : Clock)
    (id upstream : String) :
    let bound := m.bindUpstreamWithDecision clk id upstream
    (m.writes ⟨clk, .bindUpstream id upstream⟩ = true ∧ m.takes 1 = true ∧ bound.2.2 = none ∧
      (∃ before after, m.reservations.get? id = some before ∧
        bound.1.reservations.get? id = some after ∧ after.upstream ≠ before.upstream)) ∨
    (¬(m.writes ⟨clk, .bindUpstream id upstream⟩ = true ∧ m.takes 1 = true) ∧
      bound.1.accounts = m.accounts) := by
  simp only [writes, bindUpstreamWithDecision]
  generalize trimSpace upstream = upstream
  cases hget : m.reservations.get? id with
  | none =>
      refine .inr ⟨by simp, ?_⟩
      split <;> rfl
  | some reservation =>
      obtain rfl : reservation.id = id := Table.key_of_get? hget
      dsimp only
      by_cases hvalid : upstream = "" ∨ upstream.utf8ByteSize > 128
      · rw [if_pos hvalid, decide_eq_true hvalid]
        exact .inr ⟨by simp, rfl⟩
      rw [if_neg hvalid, decide_eq_false hvalid]
      by_cases hhere : reservation.upstream = upstream
      · rw [if_pos hhere, bne_eq_false_iff_eq.2 hhere]
        exact .inr ⟨by simp, rfl⟩
      rw [if_neg hhere, bne_iff_ne.2 hhere]
      cases m.bindingAmounts clk reservation (m.keysAt reservation upstream) with
      | error reason => exact .inr ⟨by simp [Except.isOk, Except.toBool], rfl⟩
      | ok amounts =>
          obtain ⟨m₁, happ, henf₁, haccounts, -⟩ := m.append_written clk reservation.id (.bound
            { principal := reservation.principal, upstream,
              budgetKeys := m.keysAt reservation upstream, attemptReservations := amounts,
              boundAt := clk.now })
          dsimp only
          rw [happ]
          cases m.takes 1 with
          | false =>
              rw [if_pos ⟨rfl, henf₁.trans henf⟩]
              exact .inr ⟨by simp, haccounts⟩
          | true =>
              rw [if_neg (by simp)]
              let after := Effect.reservationAfter m₁.windows
                (.bound reservation upstream (m.keysAt reservation upstream) amounts)
              have hid : after.id = reservation.id := reservationAfter_id _ _
              have hset : (m₁.reservations.set after).get? after.id = some after :=
                Table.get?_set_self
              rw [hid] at hset
              exact .inl ⟨rfl, rfl, rfl, reservation, after, rfl, hset, Ne.symm hhere⟩

/-- An attempt that cannot be begun is answered with an error and changes
nothing, and one that can is not. -/
theorem begin_halves (m : Manager) (henf : m.enforcing = true) (clk : Clock) (id raw : String)
    (hnamed : trimSpace raw ≠ "" ∧ (trimSpace raw).utf8ByteSize ≤ 128) :
    let begun := m.begin clk id (trimSpace raw)
    (m.Begins clk id raw ∧ begun.2.2 = none) ∨
      (¬m.Begins clk id raw ∧ begun.2.2 ≠ none ∧ begun.1.accounts = m.accounts) := by
  have hvalid : ¬(trimSpace raw = "" ∨ (trimSpace raw).utf8ByteSize > 128) :=
    fun h => h.elim hnamed.1 (Nat.not_lt.2 hnamed.2)
  simp only [Begins, writes, begin]
  generalize trimSpace raw = attemptID at hvalid
  rw [decide_eq_false hvalid]
  cases hget : m.reservations.get? id with
  | none => exact .inr ⟨by simp, by simp, rfl⟩
  | some reservation =>
      obtain rfl : reservation.id = id := Table.key_of_get? hget
      dsimp only
      cases hattempt : reservation.attempts.get? attemptID with
      | some existing =>
          dsimp only
          by_cases hout : existing.outstanding = true
          · rw [if_pos hout]
            exact .inl ⟨.inl ⟨reservation, rfl, existing, hattempt, hout⟩, rfl⟩
          · rw [if_neg hout]
            refine .inr ⟨?_, by simp, rfl⟩
            simp [hattempt, hout]
      | none =>
          dsimp only
          cases hd : (m.attemptDecision reservation clk.window reservation.budgetKeys).allowed with
          | false =>
              rw [if_neg (by simp)]
              refine .inr ⟨?_, by simp, rfl⟩
              simp [hattempt]
          | true =>
              rw [if_pos rfl]
              obtain ⟨m₁, error, hres, hcases⟩ := m.reserveAttempt_halves henf clk reservation
                (allowedAttempt clk reservation attemptID
                  ((m.attemptDecision reservation clk.window
                      reservation.budgetKeys).reservedTokens,
                    (m.attemptDecision reservation clk.window
                      reservation.budgetKeys).reservedCostMicros))
              rw [hres]
              rcases hcases with ⟨htakes, rfl, -, -, -⟩ | ⟨htakes, herror, hsame⟩
              · exact .inl ⟨.inr (by simp [htakes]), rfl⟩
              · obtain ⟨error, rfl⟩ := Option.ne_none_iff_exists'.1 herror
                refine .inr ⟨?_, by simp, hsame⟩
                simp [hattempt, htakes]

/-- A settlement that cannot be written changes nothing. -/
theorem settle_halves (m : Manager) (henf : m.enforcing = true) (clk : Clock)
    (reservation : ReservationState) (attempt : AttemptState) (settlementID : String)
    (usage : Usage) :
    let settled := m.settle clk reservation attempt settlementID usage
    (m.takes 1 = true ∧ settled.2.2 = none) ∨
      (m.takes 1 = false ∧ settled.2.2 ≠ none ∧ settled.1.accounts = m.accounts) := by
  simp only [settle]
  obtain ⟨m₁, happ, henf₁, haccounts, -⟩ := m.append_written clk reservation.id
    (.usageRecorded (m.usageEvent clk reservation attempt settlementID usage))
  rw [happ]
  cases m.takes 1 with
  | false =>
      rw [if_pos ⟨rfl, henf₁.trans henf⟩]
      exact .inr ⟨rfl, by simp, haccounts⟩
  | true =>
      rw [if_neg (by simp)]
      exact .inl ⟨rfl, rfl⟩

/-- `Record` is refused half way when it begins the attempt and then cannot
write its settlement, and otherwise not at all or wholly. -/
theorem record_halves (m : Manager) (henf : m.enforcing = true) (clk : Clock)
    (id settlementID : String) (usage : Usage) :
    let recorded := m.record clk id settlementID usage
    (m.Divides (.call ⟨clk, .record id settlementID usage⟩) ∧ recorded.2.2 ≠ none ∧
      recorded.1.accounts ≠ m.accounts) ∨
    (¬m.Divides (.call ⟨clk, .record id settlementID usage⟩) ∧
      (recorded.2.2 ≠ none → recorded.1.accounts = m.accounts)) := by
  simp only [Divides, writes, record]
  generalize trimSpace settlementID = settlementID
  cases hget : m.reservations.get? id with
  | none =>
      refine .inr ⟨by simp, fun _ => ?_⟩
      split <;> rfl
  | some reservation =>
      obtain rfl : reservation.id = id := Table.key_of_get? hget
      dsimp only
      by_cases hvalid : settlementID = "" ∨ settlementID.utf8ByteSize > 128
      · rw [if_pos hvalid, decide_eq_true hvalid]
        exact .inr ⟨by simp, fun _ => rfl⟩
      rw [if_neg hvalid, decide_eq_false hvalid]
      cases hlookup : reservation.settlements.lookup settlementID with
      | some cost => exact .inr ⟨by simp, fun _ => rfl⟩
      | none =>
          dsimp only
          cases hattempt : reservation.attempts.get? settlementID with
          | some attempt =>
              refine .inr ⟨by simp [hattempt], fun herror => ?_⟩
              rcases m.settle_halves henf clk reservation attempt settlementID usage with
                ⟨-, hnone⟩ | ⟨-, -, hsame⟩
              · exact absurd hnone herror
              · exact hsame
          | none =>
              dsimp only [beginAttemptLocked]
              cases (m.attemptDecision reservation clk.window reservation.budgetKeys).allowed with
              | false => exact .inr ⟨by simp, fun _ => rfl⟩
              | true =>
                  rw [if_pos rfl]
                  obtain ⟨m₁, error, hres, hcases⟩ := m.reserveAttempt_halves henf clk
                    reservation (allowedAttempt clk reservation settlementID
                      ((m.attemptDecision reservation clk.window
                          reservation.budgetKeys).reservedTokens,
                        (m.attemptDecision reservation clk.window
                          reservation.budgetKeys).reservedCostMicros))
                  rw [hres]
                  generalize hnew : allowedAttempt clk reservation settlementID _ = attempt at hcases
                  rcases hcases with ⟨htakes, rfl, henf₁, hnext, hset⟩ | ⟨htakes, herror, hsame⟩
                  · have hget₁ : m₁.reservations.get? reservation.id =
                        some (reservation.addAttempt attempt) :=
                      hset ▸ Table.get?_set_self (a := reservation.addAttempt attempt)
                    dsimp only
                    rw [hget₁]
                    rcases m₁.settle_halves henf₁ clk (reservation.addAttempt attempt) attempt
                      settlementID usage with ⟨hwritten, hnone⟩ | ⟨hlost, herror, hsame⟩
                    · refine .inr ⟨?_, fun h => absurd hnone h⟩
                      simp [hnext.symm.trans hwritten]
                    · refine .inl ⟨⟨by simp, ?_, htakes, hnext.symm.trans hlost⟩, herror, ?_⟩
                      · intro r hr
                        exact Option.some.inj hr ▸ hattempt
                      · intro heq
                        have hsame' : m₁.reservations = m.reservations :=
                          congrArg Accounts.reservations (hsame.symm.trans heq)
                        rw [hsame', hget] at hget₁
                        have hadded := reservation.get?_addAttempt attempt
                        rw [← Option.some.inj hget₁, ← hnew] at hadded
                        cases hattempt.symm.trans hadded
                  · obtain ⟨error, rfl⟩ := Option.ne_none_iff_exists'.1 herror
                    exact .inr ⟨by simp [htakes], fun _ => hsame⟩

/-! ## Every request -/

/-- A call that asks for places is refused as a whole. -/
theorem Asked.unchanged {op : Op} {m m' : Manager} {error : Option Error}
    (h : Asked op m m' error) (herror : error ≠ none) : m'.accounts = m.accounts := by
  cases h with
  | refused hq => exact hq.accounts
  | idle hnothing hsame => exact absurd rfl herror
  | granted hasked hcharged hmakes => exact absurd rfl herror

theorem release_unchanged (m : Manager) (henf : m.enforcing = true) (clk : Clock) (id : String)
    (herror : (m.release clk id).2 ≠ none) : (m.release clk id).1.accounts = m.accounts := by
  revert herror
  simp only [release]
  cases hget : m.reservations.get? id with
  | none => exact fun _ => rfl
  | some reservation =>
      dsimp only
      obtain ⟨m₁, happ, henf₁, haccounts, -⟩ := m.append_written clk id
        (.released { principal := reservation.principal, releasedAt := clk.now })
      rw [happ]
      cases m.takes 1 with
      | false =>
          rw [if_pos ⟨rfl, henf₁.trans henf⟩]
          exact fun _ => haccounts
      | true =>
          rw [if_neg (by simp)]
          exact fun herror => absurd rfl herror

theorem enforcing_perform (m : Manager) (op : Op) : (m.perform op).enforcing = m.enforcing := by
  unfold enforcing
  rw [show (m.perform op).config = m.config from m.run_config [op]]

/-- `BeginAttempt` at an upstream is refused half way when the binding goes
through and the attempt does not. -/
theorem beginAttemptAt_halves (m : Manager) (henf : m.enforcing = true) (bindClk clk : Clock)
    (id attemptID upstream : String) :
    let request := Request.beginAttemptAt bindClk clk id attemptID upstream
    (m.response request ≠ none → (m.request request).accounts = m.accounts) ↔
      ¬m.Divides request := by
  simp only [response, request, beginAttempt]
  by_cases hvalid : trimSpace attemptID = "" ∨ (trimSpace attemptID).utf8ByteSize > 128
  · rw [if_pos hvalid]
    exact iff_of_true (fun _ => rfl) fun h => hvalid.elim h.1.1 (Nat.not_lt.2 h.1.2)
  have hnamed : trimSpace attemptID ≠ "" ∧ (trimSpace attemptID).utf8ByteSize ≤ 128 :=
    ⟨fun h => hvalid (.inl h), Nat.not_lt.1 fun h => hvalid (.inr h)⟩
  rw [if_neg hvalid]
  by_cases hnone : trimSpace upstream = ""
  · rw [if_pos hnone]
    refine iff_of_true (fun herror => ?_) fun h => ?_
    · rcases m.begin_halves henf clk id attemptID hnamed with ⟨-, h⟩ | ⟨-, -, hsame⟩
      · exact absurd h herror
      · exact hsame
    · have hwrites := h.2.1.1
      simp only [writes, hnone] at hwrites
      split at hwrites <;> simp at hwrites
  rw [if_neg hnone]
  have henf₁ := (m.enforcing_perform ⟨bindClk, .bindUpstream id upstream⟩).trans henf
  have hbound : m.perform ⟨bindClk, .bindUpstream id upstream⟩ =
      (m.bindUpstreamWithDecision bindClk id upstream).1 := rfl
  have hhalves := m.bindUpstream_halves henf bindClk id upstream
  simp only [Divides, hbound] at henf₁ ⊢
  rcases hbind : m.bindUpstreamWithDecision bindClk id upstream with ⟨m₁, decision, error⟩
  rw [hbind] at hhalves henf₁
  rcases hhalves with ⟨hwrites, htakes, hnone, before, after, hbefore, hafter, hmoved⟩ |
    ⟨hwhole, hsame⟩
  · obtain rfl : error = none := hnone
    have hchanged : m₁.accounts ≠ m.accounts := by
      intro heq
      have hres : m₁.reservations = m.reservations := congrArg Accounts.reservations heq
      rw [show (m₁, decision, (none : Option Error)).1.reservations = _ from hres, hbefore] at hafter
      exact hmoved (congrArg ReservationState.upstream (Option.some.inj hafter)).symm
    rcases m₁.begin_halves henf₁ clk id attemptID hnamed with ⟨hbegins, hok⟩ |
      ⟨hrefused, herror, hsame⟩
    · exact iff_of_true (fun h => absurd hok h) fun h => h.2.2 hbegins
    · exact iff_of_false (fun h => hchanged (hsame.symm.trans (h herror)))
        fun h => h ⟨hnamed, ⟨hwrites, htakes⟩, hrefused⟩
  · refine iff_of_true (fun herror => ?_) fun h => hwhole h.2.1
    cases error with
    | some error => exact hsame
    | none =>
        rcases m₁.begin_halves henf₁ clk id attemptID hnamed with ⟨-, hok⟩ | ⟨-, -, hquiet⟩
        · exact absurd hok herror
        · exact hquiet.trans hsame

/-- In enforce mode a request that is refused leaves the accounts as it found
them, exactly if it is not refused half way. -/
theorem refused_unchanged_iff (m : Manager) (henf : m.enforcing = true) (request : Request) :
    (m.response request ≠ none → (m.request request).accounts = m.accounts) ↔
      ¬m.Divides request := by
  cases request with
  | call op =>
      obtain ⟨clk, call⟩ := op
      cases call with
      | admitWithContext canceled id admission =>
          exact iff_of_true (m.admitWithContext_asked clk canceled id admission).unchanged not_false
      | bindUpstream id upstream =>
          exact iff_of_true (m.bindUpstream_asked clk id upstream).unchanged not_false
      | beginAttempt id attemptID =>
          exact iff_of_true (m.beginAttempt_asked clk id attemptID).unchanged not_false
      | record id settlementID usage =>
          rcases m.record_halves henf clk id settlementID usage with
            ⟨hdivides, herror, hchanged⟩ | ⟨hwhole, hsame⟩
          · exact iff_of_false (fun h => hchanged (h herror)) (fun h => h hdivides)
          · exact iff_of_true hsame hwhole
      | release id => exact iff_of_true (m.release_unchanged henf clk id) not_false
  | beginAttemptAt bindClk clk id attemptID upstream =>
      exact m.beginAttemptAt_halves henf bindClk clk id attemptID upstream

/-- Two requests a minute. -/
def twoAMinute : Manager where
  config := { mode := .enforce, requestsPerMinute := 2 }

/-- One client has used both: its first request is answered and about to be
retried, its second is under way. -/
def usedUp : List Op :=
  [⟨{ now := minute, stamp := 0 }, .admitWithContext false "a" { principal := "alice" }⟩,
   ⟨{ now := minute, stamp := 0 }, .record "a" "attempt-1" { totalTokens := 2, known := true }⟩,
   ⟨{ now := minute, stamp := 0 }, .admitWithContext false "b" { principal := "alice" }⟩]

/-- A third is refused, and leaves nothing. -/
theorem refused_unchanged_third :
    let third := Request.call
      ⟨{ now := minute, stamp := 0 }, .admitWithContext false "c" { principal := "alice" }⟩
    (twoAMinute.run usedUp).response third = some .rateLimit ∧
      ((twoAMinute.run usedUp).request third).accounts = (twoAMinute.run usedUp).accounts := by
  intro third
  have hrefused : (twoAMinute.run usedUp).response third = some .rateLimit := by decide +kernel
  exact ⟨hrefused, (refused_unchanged_iff (twoAMinute.run usedUp) (by decide +kernel) third).2
    not_false (by rw [hrefused]; simp)⟩

/-- The retry at another upstream is refused as well, but the reservation has
moved there. -/
theorem not_refused_unchanged_retry :
    ¬ ∀ m : Manager, m.Fresh → m.enforcing = true → ∀ (ops : List Op) (request : Request),
      (m.run ops).response request ≠ none →
        ((m.run ops).request request).accounts = (m.run ops).accounts := by
  intro h
  let retry := Request.beginAttemptAt { now := minute, stamp := 0 } { now := minute, stamp := 0 }
    "a" "attempt-2" "east"
  have hsame := h twoAMinute ⟨rfl, rfl, rfl, rfl⟩ rfl usedUp retry (by decide +kernel)
  have hupstream := congrArg (fun a => (a.reservations.get? "a").map ReservationState.upstream) hsame
  revert hupstream
  decide +kernel

end Manager

end RelayLifeline.Governance
