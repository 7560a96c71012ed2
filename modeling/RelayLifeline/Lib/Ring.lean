import Mathlib.Data.List.GetD

/-!
# Ring buffers

A ring of a fixed capacity is an array with the index of its oldest item and
the number of its items. Pushed items fill the array and then take the place of
the oldest. Read from the oldest on, the ring always has the last of what was
pushed, as much as it has room for.
-/

namespace RelayLifeline.Lib

variable {α : Type*} [Inhabited α]

structure Ring (α : Type*) where
  items : List α
  start : Nat := 0
  length : Nat := 0

/-- The end of a list, of at most so many elements. -/
def lastOf {β : Type*} (n : Nat) (l : List β) : List β := l.drop (l.length - n)

theorem length_lastOf {β : Type*} (n : Nat) (l : List β) :
    (lastOf n l).length = min n l.length := by
  rw [lastOf, List.length_drop]
  omega

theorem lastOf_of_le {β : Type*} {n : Nat} {l : List β} (h : l.length ≤ n) : lastOf n l = l := by
  rw [lastOf, Nat.sub_eq_zero_of_le h, List.drop_zero]

/-- What one more element leaves of the end of a list. -/
theorem lastOf_push {β : Type*} {n : Nat} (hn : 0 < n) (l : List β) (a : β) :
    lastOf n (l ++ [a]) =
      if l.length < n then lastOf n l ++ [a] else (lastOf n l).tail ++ [a] := by
  split
  · next hlt =>
      rw [lastOf_of_le (Nat.le_of_lt hlt), lastOf_of_le]
      rw [List.length_append, List.length_singleton]
      omega
  · next hge =>
      rw [lastOf, lastOf, List.tail_drop, List.length_append, List.length_singleton,
        List.drop_append_of_le_length (by omega), show l.length + 1 - n = l.length - n + 1 by omega]

namespace Ring

/-- A ring of zero values. -/
def empty (capacity : Nat) : Ring α := { items := List.replicate capacity default }

/-- The item so many places after the oldest. -/
def get (capacity : Nat) (r : Ring α) (offset : Nat) : α :=
  r.items.getD ((r.start + offset) % capacity) default

def push (capacity : Nat) (r : Ring α) (a : α) : Ring α :=
  if r.length < capacity then
    { r with
      items := r.items.set ((r.start + r.length) % capacity) a
      length := r.length + 1 }
  else
    { r with items := r.items.set r.start a, start := (r.start + 1) % capacity }

/-- The items from the oldest on. -/
def inOrder (capacity : Nat) (r : Ring α) : List α := (List.range r.length).map (r.get capacity)

omit [Inhabited α] in
/-- An index that has gone round at most once. -/
theorem mod_of_lt {capacity x : Nat} (h : x < capacity + capacity) :
    x % capacity = if x < capacity then x else x - capacity := by
  split
  · next hlt => exact Nat.mod_eq_of_lt hlt
  · next hge =>
      rw [Nat.mod_eq_sub_mod (by omega)]
      exact Nat.mod_eq_of_lt (by omega)

/-- The ring has the end of the history. -/
structure Keeps (capacity : Nat) (r : Ring α) (history : List α) : Prop where
  size : r.items.length = capacity
  start_lt : r.start < capacity
  inOrder_eq : r.inOrder capacity = lastOf capacity history

variable {capacity : Nat} {r : Ring α} {history : List α}

theorem keeps_empty (h : 0 < capacity) : Keeps capacity (empty capacity : Ring α) [] :=
  ⟨List.length_replicate, h, by rw [lastOf, List.drop_nil]; rfl⟩

theorem Keeps.length_eq (h : Keeps capacity r history) :
    r.length = min capacity history.length := by
  have hlen := congrArg List.length h.inOrder_eq
  rwa [inOrder, List.length_map, List.length_range, length_lastOf] at hlen

/-- Writing one place changes only the item there. -/
theorem get_set {items : List α} (hsize : items.length = capacity) {i : Nat} (hi : i < capacity)
    (a : α) (start length offset : Nat) :
    get capacity ⟨items.set i a, start, length⟩ offset =
      if (start + offset) % capacity = i then a
      else items.getD ((start + offset) % capacity) default := by
  rw [get, List.getD_eq_getElem?_getD, List.getElem?_set, List.getD_eq_getElem?_getD]
  split
  · next heq => rw [if_pos heq.symm, if_pos (hsize.symm ▸ hi), Option.getD_some]
  · next hne => rw [if_neg (Ne.symm hne)]

theorem Keeps.push (h : Keeps capacity r history) (a : α) :
    Keeps capacity (r.push capacity a) (history ++ [a]) := by
  have hlength := h.length_eq
  have hstart := h.start_lt
  have hmod (x : Nat) : x % capacity < capacity := Nat.mod_lt _ (by omega)
  have hpush := lastOf_push (by omega : 0 < capacity) history a
  rw [Ring.push]
  split
  · next hroom =>
      refine ⟨by rw [List.length_set]; exact h.size, hstart, ?_⟩
      rw [if_pos (by omega), ← h.inOrder_eq] at hpush
      rw [hpush, inOrder, inOrder, List.range_succ, List.map_append, List.map_cons, List.map_nil,
        get_set h.size (hmod _), if_pos rfl]
      congr 1
      refine List.map_congr_left fun offset hoffset => ?_
      have hlt := List.mem_range.1 hoffset
      rw [get_set h.size (hmod _), if_neg ?_]
      · rfl
      · rw [mod_of_lt (by omega), mod_of_lt (by omega)]
        split <;> split <;> omega
  · next hfull =>
      refine ⟨by rw [List.length_set]; exact h.size, hmod _, ?_⟩
      rw [if_neg (by omega), ← h.inOrder_eq] at hpush
      obtain ⟨n, hn⟩ : ∃ n, r.length = n + 1 := ⟨r.length - 1, by omega⟩
      have htail : (r.inOrder capacity).tail =
          (List.range n).map fun offset => r.get capacity (offset + 1) := by
        rw [inOrder, hn, List.range_succ_eq_map, List.map_cons, List.tail_cons, List.map_map]
        rfl
      -- the place after the newest item is that of the oldest
      have hlast : ((r.start + 1) % capacity + n) % capacity = r.start := by
        rw [Nat.mod_add_mod, mod_of_lt (by omega)]
        split <;> omega
      rw [hpush, htail, inOrder]
      dsimp only
      rw [hn, List.range_succ, List.map_append, List.map_cons, List.map_nil,
        get_set h.size hstart, if_pos hlast]
      congr 1
      refine List.map_congr_left fun offset hoffset => ?_
      have hlt := List.mem_range.1 hoffset
      have hnext : ((r.start + 1) % capacity + offset) % capacity =
          (r.start + (offset + 1)) % capacity := by
        rw [Nat.mod_add_mod, Nat.add_assoc, Nat.add_comm 1]
      rw [get_set h.size hstart, if_neg ?_, hnext]
      · rfl
      · rw [hnext, mod_of_lt (by omega)]
        split <;> omega

end Ring

end RelayLifeline.Lib
