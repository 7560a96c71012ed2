import RelayLifeline.Lib.Rotation
import RelayLifeline.Upstream.Effects

/-!
# Weighted round robin

Among the targets with room, `chooseLocked` prefers those of the smallest
priority and lets them take turns by weight: the loop over the weights finds the
owner of the number the cursor stands at (`pick_eq_owner`). So a window of as
many calls as the weights amount to picks each of them as often as it weighs.
The sum of the weights is an `int`. Where it does not fit, it comes out
negative, and every call picks the first.
-/

namespace RelayLifeline.Upstream

open Lib

namespace Manager

variable {m : Manager} {candidates : List Nat}

/-- `minPriority` of `chooseLocked`, of the candidates with room. -/
def minPriority (m : Manager) (first : Nat) (rest : List Nat) : Int :=
  rest.foldl (fun low candidate =>
    if (m.heap candidate).cfg.priority < low then (m.heap candidate).cfg.priority else low)
    (m.heap first).cfg.priority

/-- `preferred` of `chooseLocked`: of the candidates with room, those of the
smallest priority. -/
def preferred (m : Manager) (candidates : List Nat) : List Nat :=
  match candidates.filter m.hasRoom with
  | [] => []
  | first :: rest =>
      (first :: rest).filter fun candidate =>
        (m.heap candidate).cfg.priority = m.minPriority first rest

/-- `weight` of `chooseLocked`, the sum of the preferred ones as an `int`. -/
def weightSum (m : Manager) (preferred : List Nat) : Int :=
  preferred.foldl (fun sum candidate => (sum + m.weightOf candidate).bmod (2 ^ 64)) 0

theorem minPriority_le (m : Manager) (first : Nat) (rest : List Nat) {ref : Nat}
    (h : ref ∈ first :: rest) : m.minPriority first rest ≤ (m.heap ref).cfg.priority := by
  have hfold : ∀ (rest : List Nat) (low : Int),
      rest.foldl (fun low candidate =>
        if (m.heap candidate).cfg.priority < low then (m.heap candidate).cfg.priority else low)
        low ≤ low ∧
      ∀ ref ∈ rest, rest.foldl (fun low candidate =>
        if (m.heap candidate).cfg.priority < low then (m.heap candidate).cfg.priority else low)
        low ≤ (m.heap ref).cfg.priority := by
    intro rest
    induction rest with
    | nil => exact fun low => ⟨Int.le_refl low, fun ref h => absurd h List.not_mem_nil⟩
    | cons candidate rest ih =>
        intro low
        obtain ⟨hlow, hall⟩ := ih
          (if (m.heap candidate).cfg.priority < low then (m.heap candidate).cfg.priority else low)
        have hstep : (if (m.heap candidate).cfg.priority < low
            then (m.heap candidate).cfg.priority else low) ≤ low ∧
            (if (m.heap candidate).cfg.priority < low
              then (m.heap candidate).cfg.priority else low) ≤
                (m.heap candidate).cfg.priority := by
          split
          · omega
          · omega
        refine ⟨Int.le_trans hlow hstep.1, ?_⟩
        intro ref href
        obtain rfl | href := List.mem_cons.mp href
        · exact Int.le_trans hlow hstep.2
        · exact hall ref href
  obtain ⟨hfirst, hall⟩ := hfold rest (m.heap first).cfg.priority
  obtain rfl | hrest := List.mem_cons.mp h
  · exact hfirst
  · exact hall ref hrest

/-- A preferred target has room, and no other candidate with room goes before
it. -/
theorem mem_preferred {ref : Nat} (h : ref ∈ m.preferred candidates) :
    ref ∈ candidates ∧ m.hasRoom ref = true ∧
      ∀ other ∈ candidates, m.hasRoom other = true →
        (m.heap ref).cfg.priority ≤ (m.heap other).cfg.priority := by
  rw [preferred] at h
  split at h
  · cases h
  next first rest hroom =>
    obtain ⟨hmem, hmin⟩ := List.mem_filter.mp h
    rw [← hroom, List.mem_filter] at hmem
    refine ⟨hmem.1, hmem.2, ?_⟩
    intro other hother hothers
    have hin : other ∈ first :: rest := by
      rw [← hroom]
      exact List.mem_filter.mpr ⟨hother, hothers⟩
    rw [of_decide_eq_true hmin]
    exact minPriority_le m first rest hin

/-- `chooseLocked`, of the preferred ones. -/
theorem choose_eq (m : Manager) (candidates : List Nat) :
    m.choose candidates =
      if m.weightSum (m.preferred candidates) ≤ 0 then (m, (m.preferred candidates).head?)
      else
        ({ m with cursor := m.cursor + 1 },
          m.pick (m.cursor.toNat % (m.weightSum (m.preferred candidates)).toNat : Nat)
            (m.preferred candidates)) := by
  rw [choose, preferred]
  cases hroom : candidates.filter m.hasRoom with
  | nil => rfl
  | cons first rest => rfl

theorem choose_mem {ref : Nat} (h : (m.choose candidates).2 = some ref) :
    ref ∈ m.preferred candidates := by
  rw [choose_eq] at h
  split at h
  · exact List.mem_of_head? h
  · exact pick_mem h

/-! ## The owner of a number -/

theorem weightOf_pos (m : Manager) (ref : Nat) : 0 < m.weightOf ref := by
  rw [weightOf]
  omega

/-- The loop over the weights finds the owner of the point. -/
theorem pick_eq_owner {targets : List Nat} {point : Nat}
    (h : point < Rotation.total (fun ref => (m.weightOf ref).toNat) targets) :
    m.pick point targets = Rotation.owner (fun ref => (m.weightOf ref).toNat) targets point := by
  induction targets generalizing point with
  | nil => cases h
  | cons ref targets ih =>
      have hpos := m.weightOf_pos ref
      rw [pick, Rotation.owner]
      by_cases hlt : point < (m.weightOf ref).toNat
      · rw [if_pos hlt, if_pos (by omega)]
      · rw [Rotation.total_cons] at h
        rw [if_neg hlt, if_neg (by omega)]
        have hne : targets ≠ [] := by
          rintro rfl
          simp only [Rotation.total, List.map_nil, List.sum_nil] at h
          omega
        have hpoint : (point : Int) - m.weightOf ref = (point - (m.weightOf ref).toNat : Nat) := by
          omega
        rw [if_neg hne, hpoint]
        exact ih (by omega)

/-- The sum of the weights comes out as an `int`. -/
theorem weightSum_eq (m : Manager) (targets : List Nat) :
    m.weightSum targets =
      (Rotation.total (fun ref => (m.weightOf ref).toNat) targets : Int).bmod (2 ^ 64) := by
  have hfold : ∀ (targets : List Nat) (sum : Int),
      targets.foldl (fun sum candidate => (sum + m.weightOf candidate).bmod (2 ^ 64))
          (sum.bmod (2 ^ 64)) =
        (sum + Rotation.total (fun ref => (m.weightOf ref).toNat) targets).bmod (2 ^ 64) := by
    intro targets
    induction targets with
    | nil =>
        intro sum
        rw [List.foldl_nil, Rotation.total, List.map_nil, List.sum_nil, Nat.cast_zero,
          Int.add_zero]
    | cons ref targets ih =>
        intro sum
        have hpos := m.weightOf_pos ref
        have hweight : ((m.weightOf ref).toNat : Int) = m.weightOf ref :=
          Int.toNat_of_nonneg (by omega)
        rw [List.foldl_cons, Int.bmod_add_bmod, ih, Rotation.total_cons, Nat.cast_add, hweight,
          Int.add_assoc]
  have hsum := hfold targets 0
  rw [Int.zero_bmod, Int.zero_add] at hsum
  exact hsum

end Manager

/-! ## Windows of calls -/

/-- One call of `chooseLocked`. -/
structure Call where
  manager : Manager
  candidates : List Nat

def Call.chosen (call : Call) : Option Nat := (call.manager.choose call.candidates).2

/-- Consecutive calls while the preferred targets and their weights stay the
same, as many as the weights amount to. The cursor does not wrap around. -/
structure Window (targets : List Nat) (weight : Nat → Nat) (calls : List Call) : Prop where
  consecutive : calls.IsChain fun call next =>
    next.manager.cursor = (call.manager.choose call.candidates).1.cursor
  preferred : ∀ call ∈ calls, call.manager.preferred call.candidates = targets
  weights : ∀ call ∈ calls, ∀ ref ∈ targets, (call.manager.weightOf ref).toNat = weight ref
  length : calls.length = Rotation.total weight targets
  cursor : ∀ call ∈ calls.head?, call.manager.cursor.toNat + calls.length ≤ 2 ^ 64

/-- Each target is picked as often as it weighs. -/
def Fair (targets : List Nat) (weight : Nat → Nat) (calls : List Call) : Prop :=
  ∀ ref ∈ targets, calls.countP (fun call => call.chosen = some ref) = weight ref

variable {targets : List Nat} {weight : Nat → Nat} {calls : List Call}

theorem Window.weightSum (hw : Window targets weight calls) {call : Call} (h : call ∈ calls) :
    call.manager.weightSum (call.manager.preferred call.candidates) =
      (Rotation.total weight targets : Int).bmod (2 ^ 64) := by
  rw [hw.preferred call h, Manager.weightSum_eq, Rotation.total_congr (hw.weights call h)]

/-- While the sum fits, a call picks the owner of the cursor and moves on. -/
theorem Window.choose (hw : Window targets weight calls) (hpos : 0 < Rotation.total weight targets)
    (hfits : Rotation.total weight targets < 2 ^ 63) {call : Call} (h : call ∈ calls) :
    (call.manager.choose call.candidates).1.cursor = call.manager.cursor + 1 ∧
      call.chosen = Rotation.owner weight targets
        (call.manager.cursor.toNat % Rotation.total weight targets) := by
  have hsum := hw.weightSum h
  rw [Int.bmod_eq_of_le (by omega) (by omega)] at hsum
  have hchoose := call.manager.choose_eq call.candidates
  rw [hsum, if_neg (by omega), hw.preferred call h, Int.toNat_natCast] at hchoose
  refine ⟨by rw [hchoose], ?_⟩
  have hlt := Nat.mod_lt call.manager.cursor.toNat hpos
  rw [Call.chosen, hchoose, Manager.pick_eq_owner
    (by rw [Rotation.total_congr (hw.weights call h)]; exact hlt)]
  exact Rotation.owner_congr (hw.weights call h) _

/-- The cursors of consecutive calls that each move it by one. -/
theorem cursors_eq {calls : List Call}
    (hchain : calls.IsChain fun call next => next.manager.cursor = call.manager.cursor + 1)
    {start : Nat} (hstart : ∀ call ∈ calls.head?, call.manager.cursor.toNat = start)
    (hbound : start + calls.length ≤ 2 ^ 64) :
    calls.map (fun call => call.manager.cursor.toNat) = List.range' start calls.length := by
  induction calls generalizing start with
  | nil => rfl
  | cons call calls ih =>
      have hfirst : call.manager.cursor.toNat = start := hstart call rfl
      rw [List.length_cons] at hbound
      rw [List.map_cons, List.length_cons, List.range'_succ, hfirst]
      congr 1
      rw [List.isChain_cons] at hchain
      refine ih hchain.2 ?_ (by omega)
      intro next hnext
      have hlen : 0 < calls.length := by
        cases calls with
        | nil => cases hnext
        | cons next calls =>
            rw [List.length_cons]
            omega
      rw [hchain.1 next hnext, UInt64.toNat_add, hfirst]
      show (start + 1) % 2 ^ 64 = start + 1
      omega

/-- **While the sum of the weights fits, a window is fair.** -/
theorem Window.fair_of_lt (hw : Window targets weight calls) (hnodup : targets.Nodup)
    (hfits : Rotation.total weight targets < 2 ^ 63) : Fair targets weight calls := by
  intro ref href
  cases hcalls : calls with
  | nil =>
      have hle := @Rotation.weight_le_total _ weight targets ref href
      have hlen := hw.length
      rw [hcalls, List.length_nil] at hlen
      rw [List.countP_nil]
      omega
  | cons first rest =>
      have hpos : 0 < Rotation.total weight targets := by
        rw [← hw.length, hcalls, List.length_cons]
        omega
      have hchoose := fun call h => @Window.choose _ _ _ hw hpos hfits call h
      have hchain : calls.IsChain fun call next =>
          next.manager.cursor = call.manager.cursor + 1 := by
        refine List.IsChain.imp_of_mem_imp ?_ hw.consecutive
        intro call next hcall _ heq
        rw [heq]
        exact (hchoose call hcall).1
      have hstart : ∀ call ∈ calls.head?,
          call.manager.cursor.toNat = first.manager.cursor.toNat := by
        intro call hcall
        rw [hcalls] at hcall
        cases hcall
        rfl
      have hbound := hw.cursor first (by rw [hcalls]; rfl)
      have hcursors := cursors_eq hchain hstart hbound
      have hcount : calls.countP (fun call => call.chosen = some ref) =
          (calls.map fun call => call.manager.cursor.toNat).countP fun n =>
            Rotation.owner weight targets (n % Rotation.total weight targets) = some ref := by
        rw [List.countP_map]
        refine List.countP_congr fun call hcall => ?_
        rw [(hchoose call hcall).2]
        rfl
      rw [← hcalls, hcount, hcursors, hw.length, Rotation.countP_window hnodup href]

/-- Where the sum of the weights does not fit, only the first target is ever
picked. -/
theorem Window.not_fair_of_le (hw : Window targets weight calls)
    (hint : ∀ ref ∈ targets, weight ref < 2 ^ 63)
    (hover : 2 ^ 63 ≤ Rotation.total weight targets) : ¬ Fair targets weight calls := by
  intro hfair
  have hlen := hw.length
  cases calls with
  | nil =>
      rw [List.length_nil] at hlen
      omega
  | cons call calls =>
      have hbound := hw.cursor call rfl
      rw [hlen] at hbound
      cases htargets : targets with
      | nil =>
          rw [htargets, Rotation.total, List.map_nil, List.sum_nil] at hover
          omega
      | cons first rest =>
          have hneg : (Rotation.total weight targets : Int).bmod (2 ^ 64) ≤ 0 := by
            rw [Int.bmod_def]
            split
            · omega
            · omega
          have hchosen : ∀ c ∈ call :: calls, c.chosen = some first := by
            intro c hc
            rw [Call.chosen, Manager.choose_eq, hw.weightSum hc, if_pos hneg,
              hw.preferred c hc, htargets]
            rfl
          have hmem : first ∈ targets := by
            rw [htargets]
            exact List.mem_cons_self
          have hall := hfair first hmem
          rw [List.countP_eq_length.mpr fun c hc => decide_eq_true (hchosen c hc), hlen] at hall
          have hsmall := hint first hmem
          omega

/-- **A window of calls picks every preferred target as often as it weighs
exactly when the weights add up to an `int`**, and no call picks a target that is
full or that another available one goes before. -/
theorem window_fair_iff (hnodup : targets.Nodup) (hint : ∀ ref ∈ targets, weight ref < 2 ^ 63)
    (hw : Window targets weight calls) :
    (Fair targets weight calls ↔ Rotation.total weight targets < 2 ^ 63) ∧
      ∀ (m : Manager) (candidates : List Nat) (ref : Nat),
        (m.choose candidates).2 = some ref → m.hasRoom ref = true ∧
          ∀ other ∈ candidates, m.hasRoom other = true →
            (m.heap ref).cfg.priority ≤ (m.heap other).cfg.priority := by
  refine ⟨⟨fun hfair => ?_, hw.fair_of_lt hnodup⟩, ?_⟩
  · by_contra hlt
    exact hw.not_fair_of_le hint (by omega) hfair
  · intro m candidates ref h
    exact (Manager.mem_preferred (Manager.choose_mem h)).2

/-- A pool of two targets of the given weights. -/
def twoTargets (left right : Int) (cursor : UInt64) : Manager where
  strategy := "weighted-priority"
  circuit := {}
  targets := ∅
  order := ["a", "b"]
  cursor := cursor
  heap ref :=
    { cfg := { id := if ref = 0 then "a" else "b", weight := if ref = 0 then left else right }
      transportCfg := ⟨"", 0, 0, 0⟩ }
  size := 2

/-- Three calls on a pool with weights two and one, from the middle of a turn. -/
def threeCalls : List Call :=
  [⟨twoTargets 2 1 5, [0, 1]⟩, ⟨twoTargets 2 1 6, [0, 1]⟩, ⟨twoTargets 2 1 7, [0, 1]⟩]

theorem window_threeCalls : Window [0, 1] (fun ref => if ref = 0 then 2 else 1) threeCalls := by
  constructor
  · unfold threeCalls
    decide +kernel
  · unfold threeCalls
    decide +kernel
  · unfold threeCalls
    decide +kernel
  · rfl
  · unfold threeCalls
    decide +kernel

theorem window_fair_iff_threeCalls :
    Fair [0, 1] (fun ref => if ref = 0 then 2 else 1) threeCalls :=
  ((window_fair_iff (by decide) (by decide) window_threeCalls).1).2 (by decide)

def heavyWeight (ref : Nat) : Nat := if ref = 0 then 1 else 2 ^ 63 - 1

/-- Two targets, of which the lighter one is picked whenever a call is made. -/
def heavyCall : Call := ⟨twoTargets 1 (2 ^ 63 - 1) 0, [0, 1]⟩

/-- So the second call in a row is one too many. -/
theorem not_fair_heavyCall :
    Window [0, 1] heavyWeight (List.replicate (2 ^ 63) heavyCall) ∧
      [heavyCall, heavyCall].countP (fun call => call.chosen = some 0) > heavyWeight 0 ∧
      ¬ Fair [0, 1] heavyWeight (List.replicate (2 ^ 63) heavyCall) := by
  have hw : Window [0, 1] heavyWeight (List.replicate (2 ^ 63) heavyCall) := by
    constructor
    · exact List.isChain_replicate_of_rel _ (by decide +kernel)
    · intro call hcall
      rw [List.eq_of_mem_replicate hcall]
      decide +kernel
    · intro call hcall
      rw [List.eq_of_mem_replicate hcall]
      decide +kernel
    · rw [List.length_replicate]
      rfl
    · intro call hcall
      rw [List.eq_of_mem_replicate (List.mem_of_mem_head? hcall), List.length_replicate]
      decide +kernel
  exact ⟨hw, by decide +kernel, hw.not_fair_of_le (by decide) (by decide)⟩

end RelayLifeline.Upstream
