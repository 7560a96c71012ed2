import Mathlib.Algebra.BigOperators.Group.List.Basic
import Mathlib.Data.Nat.Periodic

/-!
# Taking turns by weight

Every item of a list owns as many consecutive numbers as its weight, one item
after the other. A number picks the item that owns it, and numbers past the last
start over. Any window of as many numbers as there are picks every item as often
as it weighs.
-/

namespace RelayLifeline.Lib.Rotation

variable {α : Type*} (weight : α → Nat)

def total (items : List α) : Nat := (items.map weight).sum

/-- The item that owns the number. -/
def owner : List α → Nat → Option α
  | [], _ => none
  | item :: rest, n => if n < weight item then some item else owner rest (n - weight item)

variable {weight} {items : List α}

theorem total_cons (item : α) (items : List α) :
    total weight (item :: items) = weight item + total weight items := by
  rw [total, List.map_cons, List.sum_cons]
  rfl

theorem weight_le_total {item : α} (h : item ∈ items) : weight item ≤ total weight items :=
  List.le_sum_of_mem (List.mem_map_of_mem h)

theorem total_congr {weight' : α → Nat} (h : ∀ item ∈ items, weight item = weight' item) :
    total weight items = total weight' items :=
  congrArg List.sum (List.map_congr_left h)

theorem owner_congr {weight' : α → Nat} (h : ∀ item ∈ items, weight item = weight' item)
    (n : Nat) : owner weight items n = owner weight' items n := by
  induction items generalizing n with
  | nil => rfl
  | cons first items ih =>
      rw [owner, owner, h first List.mem_cons_self,
        ih fun item hitem => h item (List.mem_cons_of_mem _ hitem)]

theorem owner_mem {n : Nat} {item : α} (h : owner weight items n = some item) : item ∈ items := by
  induction items generalizing n with
  | nil => cases h
  | cons first items ih =>
      rw [owner] at h
      split at h
      · cases h
        exact List.mem_cons_self
      · exact List.mem_cons_of_mem _ (ih h)

variable [DecidableEq α]

/-- The numbers an item owns are as many as its weight. -/
theorem countP_owner (hnodup : items.Nodup) {item : α} (hitem : item ∈ items) :
    (List.range (total weight items)).countP (fun n => owner weight items n = some item) =
      weight item := by
  induction items with
  | nil => cases hitem
  | cons first items ih =>
      obtain ⟨hfirst, hnodup⟩ := List.nodup_cons.mp hnodup
      have htail : (fun n => decide (owner weight (first :: items) n = some item)) ∘
          (weight first + ·) = fun n => decide (owner weight items n = some item) := by
        funext n
        show decide (owner weight (first :: items) (weight first + n) = _) = _
        rw [owner, if_neg (by omega), Nat.add_sub_cancel_left]
      rw [total_cons, List.range_add, List.countP_append, List.countP_map, htail]
      have hhead : ∀ n ∈ List.range (weight first),
          owner weight (first :: items) n = some first := by
        intro n hn
        rw [owner, if_pos (List.mem_range.mp hn)]
      obtain rfl | hmem := List.mem_cons.mp hitem
      · have hall : (List.range (weight item)).countP
            (fun n => owner weight (item :: items) n = some item) = weight item := by
          rw [List.countP_eq_length.mpr fun n hn => decide_eq_true (hhead n hn),
            List.length_range]
        have hnone : (List.range (total weight items)).countP
            (fun n => owner weight items n = some item) = 0 := by
          rw [List.countP_eq_zero]
          intro n _ hn
          exact hfirst (owner_mem (of_decide_eq_true hn))
        rw [hall, hnone, Nat.add_zero]
      · have hnone : (List.range (weight first)).countP
            (fun n => owner weight (first :: items) n = some item) = 0 := by
          rw [List.countP_eq_zero]
          intro n hn heq
          rw [hhead n hn] at heq
          have hsame := Option.some.inj (of_decide_eq_true heq)
          exact hfirst (hsame ▸ hmem)
        rw [hnone, Nat.zero_add, ih hnodup hmem]

/-- **Any window of a whole turn picks an item as often as it weighs.** -/
theorem countP_window (hnodup : items.Nodup) {item : α} (hitem : item ∈ items) (start : Nat) :
    (List.range' start (total weight items)).countP
      (fun n => owner weight items (n % total weight items) = some item) = weight item := by
  have hperiodic : Function.Periodic
      (fun n => owner weight items (n % total weight items) = some item)
      (total weight items) := by
    intro n
    show (owner weight items ((n + total weight items) % total weight items) = some item) = _
    rw [Nat.add_mod_right]
  have hwindow := Nat.filter_multiset_Ico_card_eq_of_periodic start (total weight items) _ hperiodic
  have hlist : (List.range' start (total weight items)).countP
      (fun n => owner weight items (n % total weight items) = some item) =
        Multiset.card (Multiset.filter
          (fun n => owner weight items (n % total weight items) = some item)
          (Multiset.Ico start (start + total weight items))) := by
    rw [List.countP_eq_length_filter]
    show _ = Multiset.card (Multiset.filter _
      ((List.range' start (start + total weight items - start) : List Nat) : Multiset Nat))
    rw [Multiset.filter_coe, Multiset.coe_card, Nat.add_sub_cancel_left]
  rw [hlist, hwindow, Nat.count]
  refine Eq.trans ?_ (countP_owner hnodup hitem)
  refine List.countP_congr fun n hn => ?_
  rw [Nat.mod_eq_of_lt (List.mem_range.mp hn)]

end RelayLifeline.Lib.Rotation
