import Mathlib.Order.Lattice
import Mathlib.Algebra.Group.Defs
import Mathlib.Order.Max

/-!
# Ceilings where zero stands for none

A limit that is zero where there is none admits everything, and any other
admits what is not above it. Two limits are merged into the stricter one, and
the strictest of a list admits what all of them admit. Since a limit is known
by what it admits, the strictest of a list depends neither on the order of the
list nor on a limit that another of the list implies.
-/

namespace RelayLifeline.Lib.Ceiling

variable {α : Type*} [LinearOrder α] [Zero α]

/-- The limit lets the value pass. -/
def Admits (limit value : α) : Prop := 0 < limit → value ≤ limit

def stricter (left right : α) : α :=
  if left = 0 then right
  else if right = 0 ∨ left < right then left
  else right

def strictest (limits : List α) : α := limits.foldr stricter 0

theorem admits_zero (value : α) : Admits (0 : α) value := fun h => absurd h (lt_irrefl 0)

theorem stricter_nonneg {left right : α} (hl : 0 ≤ left) (hr : 0 ≤ right) :
    0 ≤ stricter left right := by
  rw [stricter]
  split
  · exact hr
  split
  · exact hl
  · exact hr

theorem admits_stricter {left right value : α} (hl : 0 ≤ left) (hr : 0 ≤ right) :
    Admits (stricter left right) value ↔ Admits left value ∧ Admits right value := by
  rw [stricter]
  split
  · next hzero =>
    subst hzero
    exact (and_iff_right (admits_zero value)).symm
  next hleft =>
  have hlpos : 0 < left := lt_of_le_of_ne hl (Ne.symm hleft)
  split
  · next hcase =>
    constructor
    · intro h
      refine ⟨h, fun hrpos => ?_⟩
      rcases hcase with rfl | hlt
      · exact absurd hrpos (lt_irrefl 0)
      · exact le_trans (h hlpos) (le_of_lt hlt)
    · exact And.left
  · next hcase =>
    obtain ⟨hright, hle⟩ := not_or.mp hcase
    have hrpos : 0 < right := lt_of_le_of_ne hr (Ne.symm hright)
    constructor
    · intro h
      exact ⟨fun _ => le_trans (h hrpos) (not_lt.mp hle), h⟩
    · exact And.right

theorem strictest_nonneg {limits : List α} (h : ∀ limit ∈ limits, 0 ≤ limit) :
    0 ≤ strictest limits := by
  induction limits with
  | nil => exact le_refl 0
  | cons limit limits ih =>
    obtain ⟨hlimit, hlimits⟩ := List.forall_mem_cons.mp h
    exact stricter_nonneg hlimit (ih hlimits)

/-- The strictest limit admits what each of them admits. -/
theorem admits_strictest {limits : List α} (h : ∀ limit ∈ limits, 0 ≤ limit) (value : α) :
    Admits (strictest limits) value ↔ ∀ limit ∈ limits, Admits limit value := by
  induction limits with
  | nil => exact iff_of_true (admits_zero value) nofun
  | cons limit limits ih =>
    obtain ⟨hlimit, hlimits⟩ := List.forall_mem_cons.mp h
    rw [List.forall_mem_cons, ← ih hlimits]
    exact admits_stricter hlimit (strictest_nonneg hlimits)

/-- A limit is known by what it admits. -/
theorem eq_of_admits [NoMaxOrder α] {limit limit' : α} (h : 0 ≤ limit) (h' : 0 ≤ limit')
    (hsame : ∀ value, Admits limit value ↔ Admits limit' value) : limit = limit' := by
  have hle {a b : α} (ha : 0 ≤ a) (hab : ∀ value, Admits a value → Admits b value)
      (hpos : 0 < b) : 0 < a ∧ a ≤ b := by
    rcases eq_or_lt_of_le ha with rfl | hapos
    · obtain ⟨above, habove⟩ := exists_gt b
      exact absurd (hab above (admits_zero above) hpos) (not_le.mpr habove)
    · exact ⟨hapos, hab a (fun _ => le_refl a) hpos⟩
  rcases eq_or_lt_of_le h with rfl | hpos
  · by_contra hne
    have hpos' : 0 < limit' := lt_of_le_of_ne h' hne
    exact lt_irrefl 0 (hle h (fun value => (hsame value).mp) hpos').1
  · obtain ⟨hpos', hback⟩ := hle h' (fun value => (hsame value).mpr) hpos
    exact le_antisymm (hle h (fun value => (hsame value).mp) hpos').2 hback

end RelayLifeline.Lib.Ceiling
