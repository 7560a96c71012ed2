import RelayLifeline.Proofs.Outstanding

/-!
# What a binding checks and what it does

`bindingAmountsLocked` decides on one sum for every new key: what the key holds
now, plus the reservation's attempts of this minute with their new amounts.
`rebindReservationLocked` then installs another: it takes every outstanding
attempt off its old keys first. The two differ in three places.

A key the reservation is charged under already holds its attempts, and the
check counts them a second time. An attempt of an earlier minute takes a place
under the new keys, and the check does not count it. And the check adds with
plain `+`, where what is installed stops at the top of a word.

So a key has to have room: for the older attempts where it has room for the
newer ones, and for what it holds of the attempts already, a second time. Where
every new key has, a binding is decided as its outcome deserves.
-/

namespace RelayLifeline.Governance

open Lib Lib.Word

namespace UsageState

/-- Moving attempts touches requests and reserved amounts only. -/
theorem foldl_move_rest (was is : Bool) (amounts : Int64 × Int64) (l : List AttemptState)
    (s : UsageState) :
    let moved := l.foldl (move was is amounts) s
    moved.unknownUsage = s.unknownUsage ∧ moved.tokens = s.tokens ∧
      moved.costMicros = s.costMicros := by
  refine List.foldlRecOn (motive := fun (moved : UsageState) => moved.unknownUsage = s.unknownUsage ∧
    moved.tokens = s.tokens ∧ moved.costMicros = s.costMicros) l _ ⟨rfl, rfl, rfl⟩ ?_
  intro moved h attempt _
  cases was <;> cases is <;> exact h

/-- What a move makes of one amount of a key. -/
def shift (was : Bool) (amount : Int64) (sum held : Int64) : Int64 :=
  safeAdd64 (if was then max64 (sum - held) 0 else sum) amount

theorem reserved_foldl_move (was : Bool) (amounts : Int64 × Int64) (l : List AttemptState)
    (s : UsageState) :
    let moved := l.foldl (move was true amounts) s
    moved.reservedTokens =
        (l.map AttemptState.reservedTokens).foldl (shift was amounts.1) s.reservedTokens ∧
      moved.reservedCostMicros =
        (l.map AttemptState.reservedCostMicros).foldl (shift was amounts.2)
          s.reservedCostMicros := by
  induction l generalizing s with
  | nil => exact ⟨rfl, rfl⟩
  | cons attempt l ih =>
      obtain ⟨ht, hc⟩ := ih (s.move was true amounts attempt)
      cases was
      · exact ⟨ht, hc⟩
      · exact ⟨ht, hc⟩

/-- Amounts that are moved come to no more than if they were added on top, and
to less by no more than what was held of them. -/
theorem foldl_shift_bounds (was : Bool) {amount : Int64} (ha : 0 ≤ amount.toInt) {l : List Int64}
    (hl : ∀ held ∈ l, 0 ≤ held.toInt) {sum : Int64} (hs : 0 ≤ sum.toInt)
    (hfits : sum.toInt + l.length * amount.toInt < 2 ^ 63) :
    (l.foldl (shift was amount) sum).toInt ≤ sum.toInt + l.length * amount.toInt ∧
      sum.toInt + l.length * amount.toInt - (if was then (l.map Int64.toInt).sum else 0) ≤
        (l.foldl (shift was amount) sum).toInt := by
  induction l generalizing sum with
  | nil => simp
  | cons held l ih =>
      have hheld := hl held List.mem_cons_self
      have hn : 0 ≤ (l.length : Int) * amount.toInt := Int.mul_nonneg (Int.natCast_nonneg _) ha
      have hlength : ((held :: l).length : Int) * amount.toInt =
          l.length * amount.toInt + amount.toInt := by
        rw [List.length_cons, Nat.cast_succ, Int.add_mul, Int.one_mul]
      rw [hlength] at hfits ⊢
      have hone : (shift was amount sum held).toInt =
          (if was then max (sum.toInt - held.toInt) 0 else sum.toInt) + amount.toInt := by
        rw [shift, toInt_safeAdd64 ha]
        cases was
        · simp only [Bool.false_eq_true, if_false]
          exact min_eq_right (by simp only [top]; omega)
        · simp only [if_true, toInt_max64_sub hs hheld]
          exact min_eq_right (by simp only [top]; omega)
      have hnonneg : 0 ≤ (shift was amount sum held).toInt := by
        rw [hone]
        split <;> omega
      have hle : (shift was amount sum held).toInt ≤ sum.toInt + amount.toInt := by
        rw [hone]
        split <;> omega
      obtain ⟨hhigh, hlow⟩ := ih (fun h hmem => hl h (List.mem_cons_of_mem _ hmem)) hnonneg
        (by omega)
      refine ⟨by rw [List.foldl_cons]; omega, ?_⟩
      rw [List.foldl_cons, List.map_cons, List.sum_cons]
      cases was
      · simp only [Bool.false_eq_true, if_false] at hone hlow ⊢
        omega
      · simp only [if_true] at hone hlow ⊢
        omega

/-- Attempts new to a key are counted, each of them. -/
theorem requests_foldl_move_new (amounts : Int64 × Int64) (l : List AttemptState)
    (s : UsageState) :
    (l.foldl (move false true amounts) s).requests = s.requests + l.length := by
  induction l generalizing s with
  | nil => rfl
  | cons attempt l ih =>
      rw [List.foldl_cons, ih, List.length_cons]
      show s.requests + 1 + l.length = _
      omega

/-- Attempts a key has counted leave its count alone. -/
theorem requests_foldl_move_same (amounts : Int64 × Int64) {l : List AttemptState}
    {s : UsageState} (h : l.length ≤ s.requests) :
    (l.foldl (move true true amounts) s).requests = s.requests := by
  induction l generalizing s with
  | nil => rfl
  | cons attempt l ih =>
      rw [List.length_cons] at h
      have hkept : (s.move true true amounts attempt).requests = s.requests := by
        show s.requests - 1 + 1 = s.requests
        omega
      rw [List.foldl_cons, ih (by omega), hkept]

end UsageState

/-- Nothing a key holds is over a limit of its, amounts being the integers they
stand for. -/
structure BudgetLimits.Carries (limits : BudgetLimits) (unknownUsage active requests : Nat)
    (tokens costMicros : Int) : Prop where
  unknown : limits.unknownUsageDeny = true → unknownUsage = 0
  concurrent : 0 < limits.maxConcurrent → active ≤ limits.maxConcurrent
  rate : 0 < limits.requestsPerMinute → requests ≤ limits.requestsPerMinute
  token : 0 < limits.tokenLimit.toInt → tokens ≤ limits.tokenLimit.toInt
  cost : 0 < limits.costLimitMicros.toInt → costMicros ≤ limits.costLimitMicros.toInt

instance (limits : BudgetLimits) (unknownUsage active requests : Nat) (tokens costMicros : Int) :
    Decidable (limits.Carries unknownUsage active requests tokens costMicros) :=
  decidable_of_iff
    ((limits.unknownUsageDeny = true → unknownUsage = 0) ∧
      (0 < limits.maxConcurrent → active ≤ limits.maxConcurrent) ∧
      (0 < limits.requestsPerMinute → requests ≤ limits.requestsPerMinute) ∧
      (0 < limits.tokenLimit.toInt → tokens ≤ limits.tokenLimit.toInt) ∧
      (0 < limits.costLimitMicros.toInt → costMicros ≤ limits.costLimitMicros.toInt))
    ⟨fun ⟨hu, hc, hr, ht, hm⟩ => ⟨hu, hc, hr, ht, hm⟩,
      fun h => ⟨h.unknown, h.concurrent, h.rate, h.token, h.cost⟩⟩

namespace Manager

/-- A key's state in a window is within every limit of the key. -/
def WithinLimits (m : Manager) (window : Int) (key : String) : Prop :=
  let state := m.windows.get key window
  (m.config.budgetForKey key).Carries state.unknownUsage (m.activeForBudget key) state.requests
    (state.tokens.toInt + state.reservedTokens.toInt)
    (state.costMicros.toInt + state.reservedCostMicros.toInt)

instance (m : Manager) (window : Int) (key : String) : Decidable (m.WithinLimits window key) :=
  inferInstanceAs (Decidable (BudgetLimits.Carries _ _ _ _ _ _))

section

variable (m : Manager) (window : Int) (reservation : ReservationState) (newKeys : List String)
  (key : String)

/-- What the new key's state would be with this reservation's attempts of the
window moved to it. -/
def placed : UsageState :=
  (attemptsIn reservation window).foldl
    (UsageState.move (decide (key ∈ reservation.budgetKeys)) true
      (m.reservationAmountsForKeys reservation.model newKeys)) (m.windows.get key window)

/-- The sums of the check are within the limits of the key. -/
def CountsWithin : Prop :=
  let state := m.windows.get key window
  let amounts := m.reservationAmountsForKeys reservation.model newKeys
  let own := (attemptsIn reservation window).length
  (m.config.budgetForKey key).Allows state.unknownUsage
    (m.activeForBudgetExcluding key (some reservation.id) + own) (state.requests + own)
    (state.tokens + addTimes amounts.1 own state.reservedTokens)
    (state.costMicros + addTimes amounts.2 own state.reservedCostMicros)

/-- The sums of the move are within the limits of the key: every outstanding
attempt takes a place, and only those new to the key are requests it has not
counted yet. -/
def MovesWithin : Prop :=
  let state := m.windows.get key window
  let placed := m.placed window reservation newKeys key
  let own := (attemptsIn reservation window).length
  (m.config.budgetForKey key).Carries state.unknownUsage
    (m.activeForBudgetExcluding key (some reservation.id) +
      reservation.outstandingAttempts.length)
    (state.requests + if key ∈ reservation.budgetKeys then 0 else own)
    (state.tokens.toInt + placed.reservedTokens.toInt)
    (state.costMicros.toInt + placed.reservedCostMicros.toInt)

/-- What a key holds of an amount of the reservation's attempts of the window. -/
def heldOf (amount : AttemptState → Int64) : Int :=
  if key ∈ reservation.budgetKeys then
    (((attemptsIn reservation window).map amount).map Int64.toInt).sum
  else 0

/-- All the tokens of a key, and those of the attempts with their new amounts on
top. -/
def tokensOnTop : Int :=
  (m.windows.get key window).tokens.toInt + (m.windows.get key window).reservedTokens.toInt +
    (attemptsIn reservation window).length *
      (m.reservationAmountsForKeys reservation.model newKeys).1.toInt

/-- And all its costs. -/
def costOnTop : Int :=
  (m.windows.get key window).costMicros.toInt +
      (m.windows.get key window).reservedCostMicros.toInt +
    (attemptsIn reservation window).length *
      (m.reservationAmountsForKeys reservation.model newKeys).2.toInt

/-- A sum fits a word, and what is held already makes no difference to a limit:
the sum is within it, or over it even without that. -/
def Clears (limit sum held : Int) : Prop :=
  0 < limit → sum < 2 ^ 63 ∧ (sum ≤ limit ∨ limit < sum - held)

instance (limit sum held : Int) : Decidable (Clears limit sum held) :=
  inferInstanceAs (Decidable (_ → _))

/-- The key has room for the reservation. -/
structure Room : Prop where
  /-- If there is room for the attempts of this minute, there is room for the
  older ones too. -/
  concurrent : 0 < (m.config.budgetForKey key).maxConcurrent →
    m.activeForBudgetExcluding key (some reservation.id) + (attemptsIn reservation window).length ≤
      (m.config.budgetForKey key).maxConcurrent →
    m.activeForBudgetExcluding key (some reservation.id) + reservation.outstandingAttempts.length ≤
      (m.config.budgetForKey key).maxConcurrent
  /-- A key that has counted the attempts has room to count them again. -/
  rate : key ∈ reservation.budgetKeys → 0 < (m.config.budgetForKey key).requestsPerMinute →
    (m.windows.get key window).requests ≤ (m.config.budgetForKey key).requestsPerMinute →
    (m.windows.get key window).requests + (attemptsIn reservation window).length ≤
      (m.config.budgetForKey key).requestsPerMinute
  token : Clears (m.config.budgetForKey key).tokenLimit.toInt
    (m.tokensOnTop window reservation newKeys key)
    (heldOf window reservation key AttemptState.reservedTokens)
  cost : Clears (m.config.budgetForKey key).costLimitMicros.toInt
    (m.costOnTop window reservation newKeys key)
    (heldOf window reservation key AttemptState.reservedCostMicros)

end

/-! ## The two sums, key by key -/

section

variable {m : Manager} {window : Int} {reservation : ReservationState} {newKeys : List String}
  {key : String}

theorem attemptsIn_length_le (reservation : ReservationState) (window : Int) :
    (attemptsIn reservation window).length ≤ reservation.outstandingAttempts.length :=
  List.length_filter_le _ _

/-- Where a limit is clear of what is held, it judges alike what is added on top
and what is moved. -/
theorem Clears.iff (amounts : List Int64) (was : Bool) {limit spent sum amount : Int64}
    (h : Clears limit.toInt (spent.toInt + sum.toInt + amounts.length * amount.toInt)
      (if was then (amounts.map Int64.toInt).sum else 0))
    (hspent : 0 ≤ spent.toInt) (hsum : 0 ≤ sum.toInt) (hamount : 0 ≤ amount.toInt)
    (hheld : ∀ held ∈ amounts, 0 ≤ held.toInt) (hpos : 0 < limit.toInt) :
    spent + addTimes amount amounts.length sum ≤ limit ↔
      spent.toInt + (amounts.foldl (UsageState.shift was amount) sum).toInt ≤ limit.toInt := by
  obtain ⟨hfits, hclear⟩ := h hpos
  obtain ⟨hhigh, hlow⟩ := UsageState.foldl_shift_bounds was hamount hheld hsum
    (by omega)
  rw [Int64.le_iff_toInt_le, toInt_add_addTimes hspent hsum hamount hfits]
  omega

/-- The sums of the move, from the amounts of the attempts. -/
theorem placed_reserved (m : Manager) (window : Int) (reservation : ReservationState)
    (newKeys : List String) (key : String) :
    let placed := m.placed window reservation newKeys key
    let amounts := m.reservationAmountsForKeys reservation.model newKeys
    let was := decide (key ∈ reservation.budgetKeys)
    placed.reservedTokens =
        ((attemptsIn reservation window).map AttemptState.reservedTokens).foldl
          (UsageState.shift was amounts.1) (m.windows.get key window).reservedTokens ∧
      placed.reservedCostMicros =
        ((attemptsIn reservation window).map AttemptState.reservedCostMicros).foldl
          (UsageState.shift was amounts.2) (m.windows.get key window).reservedCostMicros :=
  UsageState.reserved_foldl_move _ _ _ _

/-- Where a key has room, the two sums are judged alike. -/
theorem Room.iff (h : m.Room window reservation newKeys key) (hr : reservation.WellFormed)
    (hn : (m.windows.get key window).Nonneg) :
    m.CountsWithin window reservation newKeys key ↔ m.MovesWithin window reservation newKeys key := by
  have hown := attemptsIn_length_le reservation window
  have hattempts : ∀ attempt ∈ attemptsIn reservation window,
      0 ≤ attempt.reservedTokens.toInt ∧ 0 ≤ attempt.reservedCostMicros.toInt := fun attempt hin =>
    have hwf := hr.attempts attempt (List.mem_of_mem_filter (List.mem_of_mem_filter hin))
    ⟨hwf.tokens, hwf.cost⟩
  obtain ⟨hamount, hamount'⟩ := m.amounts_nonneg reservation.model newKeys
  obtain ⟨htokens, hcosts⟩ := placed_reserved m window reservation newKeys key
  have htoken (hpos : 0 < (m.config.budgetForKey key).tokenLimit.toInt) :
      (m.windows.get key window).tokens +
          addTimes (m.reservationAmountsForKeys reservation.model newKeys).1
            (attemptsIn reservation window).length (m.windows.get key window).reservedTokens ≤
        (m.config.budgetForKey key).tokenLimit ↔
      (m.windows.get key window).tokens.toInt +
          (m.placed window reservation newKeys key).reservedTokens.toInt ≤
        (m.config.budgetForKey key).tokenLimit.toInt := by
    have hiff := Clears.iff ((attemptsIn reservation window).map AttemptState.reservedTokens)
      (decide (key ∈ reservation.budgetKeys))
      (by simpa [heldOf, tokensOnTop] using h.token) hn.tokens hn.reservedTokens hamount
      (List.forall_mem_map.2 fun attempt hin => (hattempts attempt hin).1) hpos
    rwa [List.length_map, ← htokens] at hiff
  have hcost (hpos : 0 < (m.config.budgetForKey key).costLimitMicros.toInt) :
      (m.windows.get key window).costMicros +
          addTimes (m.reservationAmountsForKeys reservation.model newKeys).2
            (attemptsIn reservation window).length (m.windows.get key window).reservedCostMicros ≤
        (m.config.budgetForKey key).costLimitMicros ↔
      (m.windows.get key window).costMicros.toInt +
          (m.placed window reservation newKeys key).reservedCostMicros.toInt ≤
        (m.config.budgetForKey key).costLimitMicros.toInt := by
    have hiff := Clears.iff ((attemptsIn reservation window).map AttemptState.reservedCostMicros)
      (decide (key ∈ reservation.budgetKeys))
      (by simpa [heldOf, costOnTop] using h.cost) hn.costMicros hn.reservedCostMicros hamount'
      (List.forall_mem_map.2 fun attempt hin => (hattempts attempt hin).2) hpos
    rwa [List.length_map, ← hcosts] at hiff
  constructor
  · intro hc
    refine ⟨hc.unknown, fun hpos => h.concurrent hpos (hc.concurrent hpos), fun hpos => ?_,
      fun hpos => (htoken hpos).1 (hc.token (pos_iff.2 hpos)),
      fun hpos => (hcost hpos).1 (hc.cost (pos_iff.2 hpos))⟩
    have := hc.rate hpos
    split <;> omega
  · intro hm
    refine ⟨hm.unknown, fun hpos => ?_, fun hpos => ?_,
      fun hpos => (htoken (pos_iff.1 hpos)).2 (hm.token (pos_iff.1 hpos)),
      fun hpos => (hcost (pos_iff.1 hpos)).2 (hm.cost (pos_iff.1 hpos))⟩
    · have := hm.concurrent hpos
      omega
    · have := hm.rate hpos
      by_cases hshared : key ∈ reservation.budgetKeys
      · rw [if_pos hshared] at this
        exact h.rate hshared hpos this
      · rwa [if_neg hshared] at this

/-- Where both sums are within the limits and fit a word, there is room. -/
theorem room_of_within (hc : m.CountsWithin window reservation newKeys key)
    (hm : m.MovesWithin window reservation newKeys key)
    (hfits : m.tokensOnTop window reservation newKeys key < 2 ^ 63 ∧
      m.costOnTop window reservation newKeys key < 2 ^ 63)
    (hn : (m.windows.get key window).Nonneg) : m.Room window reservation newKeys key := by
  obtain ⟨hamount, hamount'⟩ := m.amounts_nonneg reservation.model newKeys
  refine ⟨fun hpos _ => hm.concurrent hpos, fun _ hpos _ => hc.rate hpos,
    fun hpos => ⟨hfits.1, .inl ?_⟩, fun hpos => ⟨hfits.2, .inl ?_⟩⟩
  · have hle := Int64.le_iff_toInt_le.1 (hc.token (pos_iff.2 hpos))
    rwa [toInt_add_addTimes hn.tokens hn.reservedTokens hamount hfits.1] at hle
  · have hle := Int64.le_iff_toInt_le.1 (hc.cost (pos_iff.2 hpos))
    rwa [toInt_add_addTimes hn.costMicros hn.reservedCostMicros hamount' hfits.2] at hle

theorem fst_sum_load (l : List AttemptState) : (l.map AttemptState.load).sum.1 = l.length := by
  induction l with
  | nil => rfl
  | cons attempt l ih =>
      rw [List.map_cons, List.sum_cons, Prod.fst_add, ih, List.length_cons, Nat.add_comm]
      rfl

/-- A key the reservation is charged under has counted its attempts. -/
theorem attemptsIn_length_le_requests (hsound : m.accounts.Sound)
    (hfound : m.reservations.get? reservation.id = some reservation)
    (hwindow : truncateMinute window = window) (hkey : key ∈ reservation.budgetKeys) :
    (attemptsIn reservation window).length ≤ (m.windows.get key window).requests := by
  have hr := hsound.wellFormed _ (Table.mem_of_get? hfound)
  have hreflects := hsound.reflects (hr.keys.canonical key hkey) window
  have hload : m.accounts.loadAt key window =
      (m.reservations.erase reservation.id).total (ReservationState.loadAt key window) +
        reservation.loadAt key window := (Table.total_erase_of_some hfound).symm
  have hothers := Accounts.others_nonneg hsound.wellFormed reservation.id key window
  have hown : (reservation.loadAt key window).1 = (attemptsIn reservation window).length := by
    rw [loadAt_eq hr, hwindow]
    simp only [hkey, if_true]
    exact fst_sum_load _
  have := hreflects.requests
  rw [hload, Prod.fst_add, hown] at this
  exact (Nat.le_add_left _ _).trans this

/-- A key's state after a binding. -/
theorem get_rebound (upstream : String) (hr : reservation.WellFormed)
    (hkeys : ReservationKeys reservation.principal newKeys)
    (hwindow : truncateMinute window = window) (hkey : key ∈ newKeys) :
    (m.rebound reservation upstream newKeys
      (m.attemptReservations reservation newKeys)).windows.get key window =
      m.placed window reservation newKeys key := by
  have hget := get_windowsAfter_bound m m.windows upstream window hr hkeys
    (hkeys.canonical key hkey)
  rw [hwindow, decide_eq_true hkey] at hget
  exact hget

/-- A binding leaves under a new key the others' attempts and all of its
own. -/
theorem activeForBudget_rebound (upstream : String) (hkey : key ∈ newKeys) :
    (m.rebound reservation upstream newKeys
      (m.attemptReservations reservation newKeys)).activeForBudget key =
      m.activeForBudgetExcluding key (some reservation.id) +
        reservation.outstandingAttempts.length := by
  have hout := outstandingAttempts_bound m.windows reservation upstream newKeys
    (m.attemptReservations reservation newKeys)
  generalize hafter : Effect.reservationAfter m.windows (.bound reservation upstream newKeys
    (m.attemptReservations reservation newKeys)) = after at hout
  have hid : after.id = reservation.id := hafter ▸ reservationAfter_id _ _
  have hactive : after.activeFor key = reservation.outstandingAttempts.length := by
    have hcount : after.activeFor key =
        after.outstandingAttempts.countP fun attempt => decide (key ∈ attempt.budgetKeys) := by
      unfold ReservationState.activeFor ReservationState.outstandingAttempts
      rw [List.countP_filter]
      exact List.countP_congr fun attempt _ => by rw [Bool.and_comm]
    rw [hcount, hout, List.countP_map]
    exact List.countP_eq_length.2 fun attempt _ => decide_eq_true hkey
  unfold activeForBudget
  rw [activeForBudgetExcluding_none, activeForBudgetExcluding_some]
  have hset : (m.rebound reservation upstream newKeys
      (m.attemptReservations reservation newKeys)).reservations = m.reservations.set after :=
    hafter ▸ rfl
  rw [hset, Table.total_set, key_reservation, hid, hactive]

/-- What a binding installs is within the limits of a new key exactly if the
sums of the move are. -/
theorem withinLimits_rebound (upstream : String) (hsound : m.accounts.Sound)
    (hfound : m.reservations.get? reservation.id = some reservation)
    (hkeys : ReservationKeys reservation.principal newKeys)
    (hwindow : truncateMinute window = window) (hkey : key ∈ newKeys) :
    (m.rebound reservation upstream newKeys
      (m.attemptReservations reservation newKeys)).WithinLimits window key ↔
      m.MovesWithin window reservation newKeys key := by
  have hr := hsound.wellFormed _ (Table.mem_of_get? hfound)
  obtain ⟨hunknown, htokens, hcost⟩ := UsageState.foldl_move_rest
    (decide (key ∈ reservation.budgetKeys)) true
    (m.reservationAmountsForKeys reservation.model newKeys) (attemptsIn reservation window)
    (m.windows.get key window)
  have hrequests : (m.placed window reservation newKeys key).requests =
      (m.windows.get key window).requests +
        if key ∈ reservation.budgetKeys then 0 else (attemptsIn reservation window).length := by
    unfold placed
    by_cases hshared : key ∈ reservation.budgetKeys
    · rw [decide_eq_true hshared, if_pos hshared]
      exact UsageState.requests_foldl_move_same _
        (attemptsIn_length_le_requests hsound hfound hwindow hshared)
    · rw [decide_eq_false hshared, if_neg hshared]
      exact UsageState.requests_foldl_move_new _ _ _
  unfold WithinLimits MovesWithin
  rw [get_rebound upstream hr hkeys hwindow hkey, activeForBudget_rebound upstream hkey]
  dsimp only
  rw [hrequests]
  unfold placed at *
  rw [hunknown, htokens, hcost]
  rfl

/-- With every write succeeding, a binding is accepted exactly if the sums of
its check are within the limits of every new key. -/
theorem bindUpstream_accepts {clk : Clock} {raw : String} (henf : m.enforcing)
    (hname : trimSpace raw ≠ "" ∧ (trimSpace raw).utf8ByteSize ≤ 128)
    (hfound : m.reservations.get? reservation.id = some reservation)
    (helse : reservation.upstream ≠ trimSpace raw)
    (hledger : ∀ event, (m.append clk reservation.id event).2 = true) :
    (m.bindUpstreamWithDecision clk reservation.id raw).2.2 = none ↔
      ∀ key ∈ m.keysAt reservation (trimSpace raw),
        m.CountsWithin clk.window reservation (m.keysAt reservation (trimSpace raw)) key := by
  have hcounts : (∀ key ∈ m.keysAt reservation (trimSpace raw),
      m.CountsWithin clk.window reservation (m.keysAt reservation (trimSpace raw)) key) ↔
      ∃ amounts, m.bindingAmounts clk reservation (m.keysAt reservation (trimSpace raw)) =
        .ok amounts := by
    simp only [bindingAmounts_ok, exists_eq_left]
    refine ⟨fun h _ key hkey => bindingReason_eq_none.2 (h key hkey),
      fun h key hkey => bindingReason_eq_none.1 (h henf key hkey)⟩
  rw [hcounts]
  unfold bindUpstreamWithDecision
  dsimp only
  rw [if_neg (by simp [hname.1, hname.2]), hfound]
  dsimp only
  rw [if_neg helse]
  cases hamounts : m.bindingAmounts clk reservation (m.keysAt reservation (trimSpace raw)) with
  | error reason => simp
  | ok amounts =>
      dsimp only
      rw [if_neg (by simp [hledger])]
      simp

end

/-- Where every new key has room, a binding decides as its outcome deserves.
And where the sums fit a word, one that is to be accepted is just where there is
room, and one that is accepted deserves it just where there is room. -/
theorem bindUpstream_exact_of_room (m : Manager) (hfresh : m.Fresh) (henf : m.enforcing)
    (ops : List Op) (clk : Clock) (raw : String) (reservation : ReservationState)
    (hfound : (m.run ops).reservations.get? reservation.id = some reservation)
    (hname : trimSpace raw ≠ "" ∧ (trimSpace raw).utf8ByteSize ≤ 128)
    (helse : reservation.upstream ≠ trimSpace raw)
    (hledger : ∀ event, ((m.run ops).append clk reservation.id event).2 = true) :
    let state := m.run ops
    let newKeys := state.keysAt reservation (trimSpace raw)
    let outcome := state.rebound reservation (trimSpace raw) newKeys
      (state.attemptReservations reservation newKeys)
    let accepted := (state.bindUpstreamWithDecision clk reservation.id raw).2.2 = none
    let within := ∀ key ∈ newKeys, outcome.WithinLimits clk.window key
    let room := ∀ key ∈ newKeys, state.Room clk.window reservation newKeys key
    (room → (accepted ↔ within)) ∧
      ((∀ key ∈ newKeys, state.tokensOnTop clk.window reservation newKeys key < 2 ^ 63 ∧
          state.costOnTop clk.window reservation newKeys key < 2 ^ 63) →
        (within → (accepted ↔ room)) ∧ (accepted → (within ↔ room))) := by
  intro state newKeys outcome accepted within room
  have hsound : state.accounts.Sound := run_sound hfresh ops
  have hr := hsound.wellFormed _ (Table.mem_of_get? hfound)
  have hn (key : String) : (state.windows.get key clk.window).Nonneg := hsound.nonneg _ _
  have henf' : state.enforcing = true := by
    unfold enforcing
    rw [run_config]
    exact henf
  have hkeys : ReservationKeys reservation.principal newKeys :=
    budgetKeys_reservationKeys _ _ hr.principal _
  have hinstalls : within ↔
      ∀ key ∈ newKeys, state.MovesWithin clk.window reservation newKeys key :=
    forall₂_congr fun key hkey => withinLimits_rebound (trimSpace raw) hsound hfound hkeys
      clk.truncateMinute_window hkey
  have haccepts : accepted ↔
      ∀ key ∈ newKeys, state.CountsWithin clk.window reservation newKeys key :=
    bindUpstream_accepts henf' hname hfound helse hledger
  have hexact (h : room) : accepted ↔ within := by
    rw [haccepts, hinstalls]
    exact forall₂_congr fun key hkey => (h key hkey).iff hr (hn key)
  refine ⟨hexact, fun hfits => ?_⟩
  have hroom (ha : accepted) (hw : within) : room := fun key hkey =>
    room_of_within (haccepts.1 ha key hkey) (hinstalls.1 hw key hkey) (hfits key hkey) (hn key)
  exact ⟨fun hw => ⟨fun ha => hroom ha hw, fun h => (hexact h).2 hw⟩,
    fun ha => ⟨fun hw => hroom ha hw, fun h => (hexact h).1 ha⟩⟩

/-- `limit` requests a minute and no upstream of their own in the budgets. -/
def everywhere (limit : Nat) : Manager where
  config := { mode := .enforce, requestsPerMinute := limit }

def oneAdmission : List Op :=
  [⟨{ now := minute, stamp := 0 }, .admitWithContext false "a" { principal := "alice" }⟩]

/-- The reservation `oneAdmission` leaves. -/
def admittedAlice : ReservationState :=
  openReservation { now := minute, stamp := 0 } "a"
    (AdmissionContext.normalized { principal := "alice" }) (0, 0) [Scope.principal.key "alice"]

/-- With two requests a minute there is room for a binding after the first
admission, and it is accepted. -/
theorem bindUpstream_exact_with_room :
    let state := (everywhere 2).run oneAdmission
    let newKeys := state.keysAt admittedAlice (trimSpace "east")
    let outcome := state.rebound admittedAlice (trimSpace "east") newKeys
      (state.attemptReservations admittedAlice newKeys)
    (state.bindUpstreamWithDecision { now := minute, stamp := 0 } "a" "east").2.2 = none ∧
      ∀ key ∈ newKeys, outcome.WithinLimits minute key := by
  have hexact := (bindUpstream_exact_of_room (everywhere 2) ⟨rfl, rfl, rfl, rfl⟩ rfl oneAdmission
    { now := minute, stamp := 0 } "east" admittedAlice (by rfl) (by decide +kernel)
    (by decide +kernel) (fun _ => rfl)).1 <|
    List.forall_mem_singleton.2 ⟨by decide +kernel, by decide +kernel, by decide +kernel,
      by decide +kernel⟩
  have haccepted : (((everywhere 2).run oneAdmission).bindUpstreamWithDecision
      { now := minute, stamp := 0 } "a" "east").2.2 = none := by decide +kernel
  exact ⟨haccepted, hexact.1 haccepted⟩

/-- With one request a minute it is refused, to an upstream no budget mentions,
though it would leave the one request there is. -/
theorem bindUpstream_counts_own_twice :
    ¬ ∀ m : Manager, m.Fresh → m.enforcing → ∀ (ops : List Op) (clk : Clock) (raw : String)
      (reservation : ReservationState),
      let state := m.run ops
      let newKeys := state.keysAt reservation (trimSpace raw)
      let outcome := state.rebound reservation (trimSpace raw) newKeys
        (state.attemptReservations reservation newKeys)
      state.reservations.get? reservation.id = some reservation →
      trimSpace raw ≠ "" ∧ (trimSpace raw).utf8ByteSize ≤ 128 →
      reservation.upstream ≠ trimSpace raw → attemptsIn reservation clk.window ≠ [] →
      (∀ event, (state.append clk reservation.id event).2 = true) →
      ((state.bindUpstreamWithDecision clk reservation.id raw).2.2 = none ↔
        ∀ key ∈ newKeys, outcome.WithinLimits clk.window key) := by
  intro h
  have hiff := h (everywhere 1) ⟨rfl, rfl, rfl, rfl⟩ rfl oneAdmission
    { now := minute, stamp := 0 } "east" admittedAlice (by rfl) (by decide +kernel)
    (by decide +kernel) (by decide +kernel) (fun _ => rfl)
  have hroom : ∀ key ∈ [Scope.principal.key "alice"],
      (((everywhere 1).run oneAdmission).rebound admittedAlice "east"
        [Scope.principal.key "alice"] [⟨"attempt-1", 0, 0⟩]).WithinLimits minute key := by
    decide +kernel
  have haccepts := hiff.2 hroom
  revert haccepts
  decide +kernel

end Manager

end RelayLifeline.Governance
