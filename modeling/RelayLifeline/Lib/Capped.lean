import Mathlib.Data.Multiset.ZeroCons

/-!
# A log with a bound

New entries go to the end of the log. When it is too long, one entry between the
two ends is dropped: the first one that is not critical, or else the first.
Whatever is added, the log keeps its first entry and the newest, in the order
they were added, and every entry it has lost is counted.
-/

namespace RelayLifeline.Lib.Capped

variable {α : Type*} (critical : α → Bool) (cap : Nat)

/-- The entries between the two ends. -/
def interior (log : List α) : List α := log.tail.dropLast

/-- The place of the entry that a log that is too long drops. -/
def dropIndex (log : List α) : Nat :=
  match (interior log).findIdx? fun entry => !critical entry with
  | some index => index + 1
  | none => 1

def push (log : List α) (entry : α) : List α :=
  if cap < (log ++ [entry]).length then
    (log ++ [entry]).eraseIdx (dropIndex critical (log ++ [entry]))
  else log ++ [entry]

variable {critical cap} {log : List α} {entry : α}

theorem dropIndex_lt (h : 2 ≤ log.length) (entry : α) :
    dropIndex critical (log ++ [entry]) < log.length := by
  rw [dropIndex]
  split
  next index hindex =>
    obtain ⟨hlt, -⟩ := List.findIdx?_eq_some_iff_getElem.mp hindex
    rw [interior, List.length_dropLast, List.length_tail, List.length_append,
      List.length_singleton] at hlt
    omega
  · omega

theorem dropIndex_pos (log : List α) : 0 < dropIndex critical log := by
  rw [dropIndex]
  split
  · omega
  · omega

/-- A critical entry is dropped only where there is no other between the ends. -/
theorem critical_of_dropped {x : α} (hx : log[dropIndex critical log]? = some x)
    (hcritical : critical x = true) : ∀ y ∈ interior log, critical y = true := by
  rw [dropIndex] at hx
  split at hx
  next index hindex =>
    obtain ⟨hlt, hroutine, -⟩ := List.findIdx?_eq_some_iff_getElem.mp hindex
    have hget : log[index + 1]? = some (interior log)[index] := by
      have hlen := hlt
      rw [interior, List.length_dropLast, List.length_tail] at hlen
      rw [← List.getElem?_eq_getElem hlt, interior, List.getElem?_dropLast, if_pos, List.getElem?_tail]
      rw [List.length_tail]
      omega
    rw [hget] at hx
    rw [Option.some.inj hx, hcritical] at hroutine
    cases hroutine
  next hnone =>
    intro y hy
    have hall := List.findIdx?_eq_none_iff.mp hnone y hy
    rw [Bool.not_eq_eq_eq_not, Bool.not_false] at hall
    exact hall

/-- What a log of everything in `all` holds: no more than the cap, both ends, in
order, and it counts what it has lost. -/
structure Holds (cap : Nat) (all log : List α) (dropped : Nat) : Prop where
  within : log.length ≤ cap
  first : log.head? = all.head?
  last : log.getLast? = all.getLast?
  ordered : log.Sublist all
  counted : log.length + dropped = all.length

theorem Holds.push {all : List α} {dropped : Nat} (h : Holds cap all log dropped)
    (hcap : 2 ≤ cap) (hne : log ≠ []) (entry : α) :
    Holds cap (all ++ [entry]) (push critical cap log entry)
      (if cap < (log ++ [entry]).length then dropped + 1 else dropped) := by
  have hcounted := h.counted
  have hwithin := h.within
  have hlen : (log ++ [entry]).length = log.length + 1 := by
    rw [List.length_append, List.length_singleton]
  have hallNe : all ≠ [] := fun hnil => hne (List.eq_nil_of_sublist_nil (hnil ▸ h.ordered))
  have hfirst : (log ++ [entry]).head? = (all ++ [entry]).head? := by
    rw [List.head?_append_of_ne_nil _ hne, List.head?_append_of_ne_nil _ hallNe, h.first]
  have hordered : (log ++ [entry]).Sublist (all ++ [entry]) := h.ordered.append_right [entry]
  rw [Capped.push]
  split
  next hlong =>
    rw [hlen] at hlong
    have hlt := @dropIndex_lt _ critical log (by omega) entry
    have hpos := @dropIndex_pos _ critical (log ++ [entry])
    have herase : (log ++ [entry]).eraseIdx (dropIndex critical (log ++ [entry])) =
        log.eraseIdx (dropIndex critical (log ++ [entry])) ++ [entry] :=
      List.eraseIdx_append_of_lt_length hlt [entry]
    have hkept : ((log ++ [entry]).eraseIdx (dropIndex critical (log ++ [entry]))).length =
        log.length := by
      rw [List.length_eraseIdx, hlen, if_pos (by omega)]
      omega
    refine ⟨by omega, ?_, ?_, (List.eraseIdx_sublist _ _).trans hordered, ?_⟩
    · rw [← hfirst]
      cases log with
      | nil => exact absurd rfl hne
      | cons x log =>
          obtain ⟨index, hindex⟩ : ∃ index, dropIndex critical (x :: log ++ [entry]) = index + 1 :=
            ⟨_, (Nat.sub_add_cancel hpos).symm⟩
          rw [hindex]
          rfl
    · rw [herase, List.getLast?_concat, List.getLast?_concat]
    · rw [hkept, List.length_append, List.length_singleton]
      omega
  next hshort =>
    refine ⟨by omega, hfirst, ?_, hordered, ?_⟩
    · rw [List.getLast?_concat, List.getLast?_concat]
    · rw [hlen, List.length_append, List.length_singleton]
      omega

/-- An entry is lost only by being dropped, and a critical one only where all
the others between the ends are critical too. -/
theorem critical_of_lost {x : α} (hlost : (log ++ [entry]).Perm (x :: push critical cap log entry))
    (hcap : 2 ≤ cap) (hcritical : critical x = true) :
    ∀ y ∈ interior (log ++ [entry]), critical y = true := by
  have hlen := hlost.length_eq
  rw [push] at hlost hlen
  split at hlost
  next hlong =>
    rw [List.length_append, List.length_singleton] at hlong
    have hlt := @dropIndex_lt _ critical log (by omega) entry
    have hbound : dropIndex critical (log ++ [entry]) < (log ++ [entry]).length := by
      rw [List.length_append, List.length_singleton]
      omega
    have hperm := (List.getElem_cons_eraseIdx_perm hbound).trans hlost
    have hsame := Multiset.coe_eq_coe.mpr hperm
    rw [← Multiset.cons_coe, ← Multiset.cons_coe, Multiset.cons_inj_left] at hsame
    refine critical_of_dropped ?_ hcritical
    rw [List.getElem?_eq_getElem hbound, hsame]
  next hshort =>
    rw [if_neg hshort, List.length_cons] at hlen
    omega

end RelayLifeline.Lib.Capped
