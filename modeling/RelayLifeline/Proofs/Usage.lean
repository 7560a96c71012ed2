import RelayLifeline.Proofs.Accounting

/-!
# Recorded usage only grows

Within one window a key's recorded tokens and cost never go down: settling
adds, with saturation, an amount that is not negative, and everything else
touches the reserved amounts and the request count only. So a key that is once
over its limit stays over it until the minute ends, and a call that would
charge it is refused as long as the sum the check forms is the sum it means.

That last condition is not idle. What is recorded stops at the top of the
signed range; the check then adds what is reserved and what is asked for with
plain `+`, and a sum past the top wraps to a negative number, which no limit
refuses.
-/

namespace RelayLifeline.Governance

open Lib Lib.Word

/-! ## Pointwise relations

A relation between the states of one slot and window before and after a change
is proved of the four functions a change applies there, and of nothing else. -/

section Pointwise

variable {R : UsageState → UsageState → Prop}

/-- Every slot and window is related to what it was. -/
def Windows.Rel (R : UsageState → UsageState → Prop) (w w' : Windows) : Prop :=
  ∀ slot window, R (w slot window) (w' slot window)

/-- A relation releasing respects. -/
structure RespectsRelease (R : UsageState → UsageState → Prop) : Prop where
  refl : ∀ s, R s s
  trans : ∀ {s s' s''}, R s s' → R s' s'' → R s s''
  release : ∀ s tokens cost, R s (s.release tokens cost)

/-- A relation settling and releasing respect. -/
structure RespectsSettling (R : UsageState → UsageState → Prop) : Prop
    extends RespectsRelease R where
  applyUsage : ∀ s event, R s (s.applyUsage event)

/-- A relation the four functions respect. -/
structure Respects (R : UsageState → UsageState → Prop) : Prop extends RespectsSettling R where
  reserve : ∀ s {tokens cost : Int64}, 0 ≤ tokens.toInt → 0 ≤ cost.toInt →
    R s (s.reserve tokens cost)
  unreserve : ∀ s tokens cost, R s (s.unreserve tokens cost)

namespace Windows

theorem Rel.modifySlot (hrefl : ∀ s, R s s) {f : UsageState → UsageState} (hf : ∀ s, R s (f s))
    (w : Windows) (slot : Slot) (window : Int) : w.Rel R (w.modifySlot slot window f) := by
  intro slot' window'
  unfold Windows.modifySlot
  split
  · exact hf _
  · exact hrefl _

theorem Rel.foldl {α : Type*} (hrefl : ∀ s, R s s)
    (htrans : ∀ {s s' s''}, R s s' → R s' s'' → R s s'') {step : Windows → α → Windows}
    {l : List α} (hstep : ∀ w : Windows, ∀ a ∈ l, w.Rel R (step w a)) (w : Windows) :
    w.Rel R (l.foldl step w) := by
  induction l generalizing w with
  | nil => exact fun _ _ => hrefl _
  | cons a l ih =>
      have hhead := hstep w a (by simp)
      have htail := ih (fun w b hb => hstep w b (List.mem_cons_of_mem _ hb)) (step w a)
      exact fun slot window => htrans (hhead slot window) (htail slot window)

theorem Rel.charge (h : RespectsRelease R) {f : UsageState → UsageState} (hf : ∀ s, R s (f s))
    (w : Windows) (keys : List String) (window : Int) : w.Rel R (w.charge keys window f) :=
  Rel.foldl h.refl h.trans (fun w _ _ => Rel.modifySlot h.refl hf w _ window) w

theorem Rel.applyAttemptReservation (h : Respects R) (w : Windows) {attempt : AttemptState}
    (ht : 0 ≤ attempt.reservedTokens.toInt) (hc : 0 ≤ attempt.reservedCostMicros.toInt) :
    w.Rel R (w.applyAttemptReservation attempt) := by
  unfold Windows.applyAttemptReservation
  split
  · exact fun _ _ => h.refl _
  · exact Rel.charge h.toRespectsRelease (fun s => h.reserve s ht hc) w _ _

theorem Rel.unapplyAttemptReservation (h : Respects R) (w : Windows) (attempt : AttemptState) :
    w.Rel R (w.unapplyAttemptReservation attempt) :=
  Rel.charge h.toRespectsRelease (fun s => h.unreserve s _ _) w _ _

theorem Rel.recordUsage (h : RespectsSettling R) (w : Windows) (keys : List String) (window : Int)
    (event : UsageRecordedEvent) : w.Rel R (w.recordUsage keys window event) := by
  intro slot window'
  exact h.trans (Rel.modifySlot h.refl (fun s => h.applyUsage s event) w _ window slot window')
    (Rel.charge h.toRespectsRelease (fun s => h.applyUsage s event) _ _ window slot window')

theorem Rel.releaseAttempt (h : RespectsRelease R) (w : Windows) (attempt : AttemptState) :
    w.Rel R (w.releaseAttempt attempt) := by
  unfold Windows.releaseAttempt
  split
  · exact fun _ _ => h.refl _
  · split
    · exact Rel.charge h (fun s => h.release s _ _) w _ _
    · exact fun _ _ => h.refl _

end Windows

theorem windowsAfter_settled_rel (h : RespectsSettling R) (w : Windows)
    (reservation : ReservationState) (attempt : AttemptState) (event : UsageRecordedEvent) :
    w.Rel R ((Effect.settled reservation attempt event).windowsAfter w) :=
  fun slot window => h.trans (Windows.Rel.releaseAttempt h.toRespectsRelease _ _ slot window)
    (Windows.Rel.recordUsage h _ _ _ _ slot window)

theorem windowsAfter_released_rel (h : RespectsRelease R) (w : Windows)
    (reservation : ReservationState) :
    w.Rel R ((Effect.released reservation).windowsAfter w) :=
  Windows.Rel.foldl h.refl h.trans (fun w attempt _ => Windows.Rel.releaseAttempt h w attempt) _

/-- What the four functions respect, every change respects. -/
theorem windowsAfter_rel (h : Respects R) {m : Manager} {op : Op} {e : Effect}
    (he : e.Allowed m op) :
    m.windows.Rel R (e.windowsAfter m.windows) := by
  cases he with
  | admitted htarget hnamed hp hfresh hcharged hreserved hlimits =>
      subst hreserved
      obtain ⟨ht, hc⟩ := m.amounts_nonneg _ _
      exact Windows.Rel.applyAttemptReservation h _ ht hc
  | @bound reservation raw upstream newKeys amounts hcall htrim hfound hnamed helse hcharged
      hreserved hlimits =>
      subst hreserved
      obtain ⟨ht, hc⟩ := m.amounts_nonneg reservation.model newKeys
      have hmoved : ∀ w : Windows, ∀ attempt ∈ reservation.outstandingAttempts,
          w.Rel R ((w.unapplyAttemptReservation attempt).applyAttemptReservation
            (attempt.rebind newKeys (m.attemptReservations reservation newKeys))) := by
        intro w attempt ha slot window
        obtain ⟨hin, ho⟩ := List.mem_filter.1 ha
        rw [rebind_attemptReservations m newKeys hin ho]
        refine h.trans (Windows.Rel.unapplyAttemptReservation h w attempt slot window) ?_
        refine Windows.Rel.applyAttemptReservation h _ ?_ ?_ slot window
        · exact ht
        · exact hc
      rw [windowsAfter_bound]
      exact Windows.Rel.foldl h.refl h.trans hmoved _
  | began htarget hfound hnamed hfresh hreserved hlimits =>
      subst hreserved
      obtain ⟨ht, hc⟩ := m.amounts_nonneg _ _
      exact Windows.Rel.applyAttemptReservation h _ ht hc
  | settled htarget hfound hnamed hbegun hfresh =>
      exact windowsAfter_settled_rel h.toRespectsSettling _ _ _ _
  | released hcall hfound => exact windowsAfter_released_rel h.toRespectsRelease _ _

/-- What the four functions respect, every call respects. -/
theorem perform_rel (h : Respects R) (m : Manager) (op : Op) :
    m.windows.Rel R (m.perform op).windows := by
  have hmakes : ∀ {m m' : Manager} {e : Effect}, Manager.Makes op m e m' →
      m.windows.Rel R m'.windows := by
    intro m m' e hm
    rw [hm.windows]
    exact windowsAfter_rel h hm.allowed
  cases m.perform_transition op with
  | quiet hq =>
      rw [hq.windows]
      exact fun _ _ => h.refl _
  | change hm => exact hmakes hm
  | beginAndSettle hb hs =>
      exact fun slot window => h.trans (hmakes hb slot window) (hmakes hs slot window)

/-- And every run. -/
theorem Manager.run_rel (h : Respects R) (m : Manager) (ops : List Op) :
    m.windows.Rel R (m.run ops).windows := by
  induction ops generalizing m with
  | nil => exact fun _ _ => h.refl _
  | cons op ops ih =>
      exact fun slot window => h.trans (perform_rel h m op slot window)
        (ih (m.perform op) slot window)

end Pointwise

/-! ## Amounts that only grow -/

/-- No amount of a state is negative. -/
structure UsageState.Nonneg (s : UsageState) : Prop where
  tokens : 0 ≤ s.tokens.toInt
  costMicros : 0 ≤ s.costMicros.toInt
  reservedTokens : 0 ≤ s.reservedTokens.toInt
  reservedCostMicros : 0 ≤ s.reservedCostMicros.toInt

/-- From a state without negative amounts to another, with no less recorded. -/
def UsageState.Grows (s s' : UsageState) : Prop :=
  s.Nonneg → s'.Nonneg ∧ s.tokens.toInt ≤ s'.tokens.toInt ∧
    s.costMicros.toInt ≤ s'.costMicros.toInt

theorem le_safeAdd64 {a b : Int64} (hb : 0 ≤ b.toInt) : a.toInt ≤ (safeAdd64 a b).toInt := by
  have := toInt_le_top a
  rw [toInt_safeAdd64 hb]
  omega

theorem respects_grows : Respects UsageState.Grows where
  refl s h := ⟨h, Int.le_refl _, Int.le_refl _⟩
  trans h h' hs := by
    obtain ⟨hs', ht, hc⟩ := h hs
    obtain ⟨hs'', ht', hc'⟩ := h' hs'
    exact ⟨hs'', ht.trans ht', hc.trans hc'⟩
  reserve s tokens cost ht hc h :=
    ⟨⟨h.tokens, h.costMicros, safeAdd64_nonneg h.reservedTokens ht,
      safeAdd64_nonneg h.reservedCostMicros hc⟩, Int.le_refl _, Int.le_refl _⟩
  release s tokens cost h :=
    ⟨⟨h.tokens, h.costMicros, max64_zero_nonneg _, max64_zero_nonneg _⟩,
      Int.le_refl _, Int.le_refl _⟩
  unreserve s tokens cost h :=
    ⟨⟨h.tokens, h.costMicros, max64_zero_nonneg _, max64_zero_nonneg _⟩,
      Int.le_refl _, Int.le_refl _⟩
  applyUsage s event h := by
    have ht := max64_zero_nonneg event.totalTokens
    have hc := max64_zero_nonneg event.costMicros
    unfold UsageState.applyUsage
    split
    · exact ⟨⟨safeAdd64_nonneg h.tokens ht, safeAdd64_nonneg h.costMicros hc, h.reservedTokens,
        h.reservedCostMicros⟩, le_safeAdd64 ht, le_safeAdd64 hc⟩
    · exact ⟨⟨h.tokens, h.costMicros, h.reservedTokens, h.reservedCostMicros⟩,
        Int.le_refl _, Int.le_refl _⟩

namespace UsageState

variable {s : UsageState}

theorem unreserve_nonneg (h : s.Nonneg) (tokens cost : Int64) :
    (s.unreserve tokens cost).Nonneg := (respects_grows.unreserve s tokens cost h).1

theorem reserve_nonneg (h : s.Nonneg) {tokens cost : Int64} (ht : 0 ≤ tokens.toInt)
    (hc : 0 ≤ cost.toInt) : (s.reserve tokens cost).Nonneg :=
  (respects_grows.reserve s ht hc h).1

theorem move_nonneg {amounts : Int64 × Int64} (was is : Bool) (attempt : AttemptState)
    (h : s.Nonneg) (ht : 0 ≤ amounts.1.toInt) (hc : 0 ≤ amounts.2.toInt) :
    (s.move was is amounts attempt).Nonneg := by
  cases was <;> cases is
  · exact h
  · exact reserve_nonneg h ht hc
  · exact unreserve_nonneg h _ _
  · exact reserve_nonneg (unreserve_nonneg h _ _) ht hc

end UsageState

theorem Manager.run_nonneg {m : Manager} (hfresh : m.Fresh) (ops : List Op) (slot : Slot)
    (window : Int) : ((m.run ops).windows slot window).Nonneg := by
  refine (m.run_rel respects_grows ops slot window ?_).1
  rw [hfresh.windows]
  exact ⟨Int.le_refl _, Int.le_refl _, Int.le_refl _, Int.le_refl _⟩

/-! ## What a granted call was checked against -/

/-- The tokens a key would hold with a demand granted, as an integer. -/
def Demand.tokensAt (d : Demand) (state : UsageState) : Int :=
  state.tokens.toInt + state.reservedTokens.toInt + d.count * d.tokens.toInt

/-- The cost a key would hold with a demand granted, as an integer. -/
def Demand.costAt (d : Demand) (state : UsageState) : Int :=
  state.costMicros.toInt + state.reservedCostMicros.toInt + d.count * d.costMicros.toInt

theorem toInt_add_add {a b c : Int64} (ha : 0 ≤ a.toInt) (hb : 0 ≤ b.toInt) (hc : 0 ≤ c.toInt)
    (hfits : a.toInt + b.toInt + c.toInt < 2 ^ 63) :
    (a + b + c).toInt = a.toInt + b.toInt + c.toInt := by
  have hab : (a + b).toInt = a.toInt + b.toInt := toInt_add_of_fits (by omega) (by omega)
  rw [toInt_add_of_fits (by omega) (by omega), hab]

theorem toInt_add_addTimes {a b c : Int64} {n : Nat} (ha : 0 ≤ a.toInt) (hb : 0 ≤ b.toInt)
    (hc : 0 ≤ c.toInt) (hfits : a.toInt + b.toInt + n * c.toInt < 2 ^ 63) :
    (a + addTimes c n b).toInt = a.toInt + b.toInt + n * c.toInt := by
  have hn : 0 ≤ (n : Int) * c.toInt := Int.mul_nonneg (Int.natCast_nonneg n) hc
  have hsum : (addTimes c n b).toInt = b.toInt + n * c.toInt := toInt_addTimes hb hc (by omega)
  rw [toInt_add_of_fits (by omega) (by omega), hsum]
  omega

/-- The sums a granted call passed the limits of a key with. They are the
integers they stand for wherever those fit. -/
structure Demand.Checked (d : Demand) (m : Manager) (window : Int) (key : String)
    (tokens costMicros : Int64) : Prop where
  allows : ∃ active, (m.config.budgetForKey key).Allows (m.windows.get key window).unknownUsage
    active ((m.windows.get key window).requests + d.count) tokens costMicros
  tokens : (m.windows.get key window).Nonneg → d.tokensAt (m.windows.get key window) < 2 ^ 63 →
    tokens.toInt = d.tokensAt (m.windows.get key window)
  costMicros : (m.windows.get key window).Nonneg → d.costAt (m.windows.get key window) < 2 ^ 63 →
    costMicros.toInt = d.costAt (m.windows.get key window)

theorem checked_of_limitReason {m : Manager} {window : Int} {keys : List String}
    {tokens cost : Int64} {exclude : Option String} {key : String} (ht : 0 ≤ tokens.toInt)
    (hc : 0 ≤ cost.toInt) (h : m.limitReason window tokens cost 1 exclude key = none) :
    ∃ t c, (Demand.mk keys 1 tokens cost).Checked m window key t c := by
  refine ⟨_, _, ⟨_, Manager.limitReason_eq_none.1 h⟩, fun hn hfits => ?_, fun hn hfits => ?_⟩
  · simp only [Demand.tokensAt, Nat.cast_one, Int.one_mul] at hfits ⊢
    exact toInt_add_add hn.tokens hn.reservedTokens ht hfits
  · simp only [Demand.costAt, Nat.cast_one, Int.one_mul] at hfits ⊢
    exact toInt_add_add hn.costMicros hn.reservedCostMicros hc hfits

theorem checked_of_allowed {m : Manager} {op : Op} {e : Effect} {d : Demand} {key : String}
    (hallowed : e.Allowed m op) (hdemand : e.demand m op.clk = some d) (henf : m.enforcing)
    (hkey : key ∈ d.keys) : ∃ t c, d.Checked m op.clk.window key t c := by
  cases hallowed with
  | @admitted id admission keys amounts htarget hnamed hp hfresh hcharged hreserved hlimits =>
      subst hreserved
      obtain ⟨ht, hc⟩ := m.amounts_nonneg admission.model keys
      cases hdemand
      exact checked_of_limitReason ht hc (hlimits henf key hkey)
  | @bound reservation raw upstream newKeys amounts hcall htrim hfound hnamed helse hcharged
      hreserved hlimits =>
      subst hreserved
      obtain ⟨ht, hc⟩ := m.amounts_nonneg reservation.model newKeys
      cases hdemand
      exact ⟨_, _, ⟨_, Manager.bindingReason_eq_none.1 (hlimits henf key hkey)⟩,
        fun hn hfits => toInt_add_addTimes hn.tokens hn.reservedTokens ht hfits,
        fun hn hfits => toInt_add_addTimes hn.costMicros hn.reservedCostMicros hc hfits⟩
  | @began reservation attemptID amounts htarget hfound hnamed hfresh hreserved hlimits =>
      subst hreserved
      obtain ⟨ht, hc⟩ := m.amounts_nonneg reservation.model reservation.budgetKeys
      cases hdemand
      exact checked_of_limitReason ht hc (hlimits henf key hkey)
  | settled htarget hfound hnamed hbegun hfresh => cases hdemand
  | released hcall hfound => cases hdemand

theorem Manager.amount_of_demand {m : Manager} {op : Op} {d : Demand} (h : m.demand op = some d) :
    0 ≤ d.tokens.toInt ∧ 0 ≤ d.costMicros.toInt := by
  unfold demand at h
  split at h
  · cases h
    exact m.amounts_nonneg _ _
  · split at h
    · cases h
    · split at h
      · cases h
      · cases h
        exact m.amounts_nonneg _ _
  · split at h
    · cases h
    · split at h
      · cases h
      · cases h
        exact m.amounts_nonneg _ _
  · cases h

namespace Manager

/-- More tokens recorded under a key than its limit allows. -/
def OverTokens (m : Manager) (window : Int) (key : String) : Prop :=
  0 < (m.config.budgetForKey key).tokenLimit.toInt ∧
    (m.config.budgetForKey key).tokenLimit.toInt < (m.windows.get key window).tokens.toInt

/-- More cost recorded under a key than its limit allows. -/
def OverCost (m : Manager) (window : Int) (key : String) : Prop :=
  0 < (m.config.budgetForKey key).costLimitMicros.toInt ∧
    (m.config.budgetForKey key).costLimitMicros.toInt < (m.windows.get key window).costMicros.toInt

/-- A key over its limit refuses whatever would charge it, if the sum it
checks fits; and a refused call changes no account. -/
theorem refused_of_over {m : Manager} {op : Op} {d : Demand} {key : String} (henf : m.enforcing)
    (hn : (m.windows.get key op.clk.window).Nonneg) (hasked : m.demand op = some d)
    (hkey : key ∈ d.keys)
    (hover : m.OverTokens op.clk.window key ∧
        d.tokensAt (m.windows.get key op.clk.window) < 2 ^ 63 ∨
      m.OverCost op.clk.window key ∧ d.costAt (m.windows.get key op.clk.window) < 2 ^ 63) :
    m.answer op ≠ none ∧ (m.perform op).accounts = m.accounts := by
  have h := asked_of_demand hasked
  revert h
  generalize m.answer op = error
  rintro (hq | ⟨hnothing, _⟩ | ⟨hasked', hcharged, hmakes⟩)
  · exact ⟨nofun, hq.accounts⟩
  · rw [hasked] at hnothing
    cases hnothing
  · rw [hasked] at hasked'
    cases hasked'
    obtain ⟨ht, hc⟩ := amount_of_demand hasked
    have hdt : 0 ≤ (d.count : Int) * d.tokens.toInt := Int.mul_nonneg (Int.natCast_nonneg _) ht
    have hdc : 0 ≤ (d.count : Int) * d.costMicros.toInt := Int.mul_nonneg (Int.natCast_nonneg _) hc
    obtain ⟨t, c, ⟨active, hallows⟩, htokens, hcost⟩ :=
      checked_of_allowed hmakes.allowed hcharged henf hkey
    exfalso
    rcases hover with ⟨⟨hpos, hlt⟩, hfits⟩ | ⟨⟨hpos, hlt⟩, hfits⟩
    · have hle := Int64.le_iff_toInt_le.1 (hallows.token (pos_iff.2 hpos))
      have := hn.reservedTokens
      rw [htokens hn hfits, Demand.tokensAt] at hle
      omega
    · have hle := Int64.le_iff_toInt_le.1 (hallows.cost (pos_iff.2 hpos))
      have := hn.reservedCostMicros
      rw [hcost hn hfits, Demand.costAt] at hle
      omega

/-- A key once over a limit stays over it for the rest of the window. -/
theorem over_mono {m : Manager} (hn : ∀ slot window, (m.windows slot window).Nonneg)
    (later : List Op) (window : Int) (key : String) :
    (m.OverTokens window key → (m.run later).OverTokens window key) ∧
      (m.OverCost window key → (m.run later).OverCost window key) := by
  obtain ⟨-, ht, hc⟩ := m.run_rel respects_grows later (slotOf key) (truncateMinute window)
    (hn _ _)
  unfold OverTokens OverCost
  rw [run_config]
  exact ⟨fun h => ⟨h.1, h.2.trans_le ht⟩, fun h => ⟨h.1, h.2.trans_le hc⟩⟩

theorem run_append (m : Manager) (ops later : List Op) :
    m.run (ops ++ later) = (m.run ops).run later := List.foldl_append

/-- Once a key is over a limit in a window, every later call that would charge
it in that window is refused, as long as the sum it is checked with fits. -/
theorem refused_once_over (m : Manager) (hfresh : m.Fresh) (henf : m.enforcing)
    (ops later : List Op) (op : Op) (d : Demand) (key : String)
    (hasked : (m.run (ops ++ later)).demand op = some d) (hkey : key ∈ d.keys)
    (hover :
      let state := (m.run (ops ++ later)).windows.get key op.clk.window
      (m.run ops).OverTokens op.clk.window key ∧ d.tokensAt state < 2 ^ 63 ∨
        (m.run ops).OverCost op.clk.window key ∧ d.costAt state < 2 ^ 63) :
    (m.run (ops ++ later)).answer op ≠ none ∧
      ((m.run (ops ++ later)).perform op).accounts = (m.run (ops ++ later)).accounts := by
  obtain ⟨htokens, hcost⟩ := over_mono (run_nonneg hfresh ops) later op.clk.window key
  rw [← run_append] at htokens hcost
  refine refused_of_over ?_ (run_nonneg hfresh _ _ _) hasked hkey
    (hover.imp (And.imp_left htokens) (And.imp_left hcost))
  unfold Manager.enforcing
  rw [run_config]
  exact henf

/-! Five tokens a minute, and one upstream answer that reports the given
total. -/

theorem five_nonneg : 0 ≤ (5 : Int64).toInt := by decide

def fiveTokens : Manager where
  config := { mode := .enforce, tokenLimit := 5, token_nonneg := five_nonneg }

def reportedRun (totalTokens : Int64) : List Op :=
  let clk : Clock := { now := minute, stamp := 0 }
  [⟨clk, .admitWithContext false "a" { principal := "alice" }⟩,
   ⟨clk, .record "a" "attempt-1" { totalTokens, known := true }⟩]

def secondAdmission : Op :=
  ⟨{ now := minute, stamp := 0 }, .admitWithContext false "b" { principal := "alice" }⟩

theorem fiveTokens_fresh : fiveTokens.Fresh := ⟨rfl, rfl, rfl, rfl⟩

/-- With six tokens reported the next admission is refused. -/
theorem refused_after_six_tokens :
    (fiveTokens.run (reportedRun 6)).answer secondAdmission ≠ none ∧
      ((fiveTokens.run (reportedRun 6)).perform secondAdmission).accounts =
        (fiveTokens.run (reportedRun 6)).accounts :=
  refused_once_over fiveTokens fiveTokens_fresh rfl (reportedRun 6) [] secondAdmission
    ⟨[Scope.principal.key "alice"], 1, 1, 0⟩ (Scope.principal.key "alice") (by rfl) (by simp)
    (.inl ⟨by unfold OverTokens; decide +kernel, by decide +kernel⟩)

/-- With as many tokens reported as a word holds it is let in: the one token
it asks for wraps the sum. -/
theorem admitted_after_top_tokens :
    ¬ ∀ m : Manager, m.Fresh → m.enforcing → ∀ (ops later : List Op) (op : Op) (d : Demand)
      (key : String), (m.run (ops ++ later)).demand op = some d → key ∈ d.keys →
        (m.run ops).OverTokens op.clk.window key ∨ (m.run ops).OverCost op.clk.window key →
          (m.run (ops ++ later)).answer op ≠ none := by
  intro h
  refine h fiveTokens fiveTokens_fresh rfl (reportedRun maxInt64Value) [] secondAdmission
    ⟨[Scope.principal.key "alice"], 1, 1, 0⟩ (Scope.principal.key "alice") (by rfl) (by simp)
    (.inl (by unfold OverTokens; decide +kernel)) ?_
  decide +kernel

end Manager

end RelayLifeline.Governance
