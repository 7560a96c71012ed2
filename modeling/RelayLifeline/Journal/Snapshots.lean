import Mathlib.Data.List.Induction
import RelayLifeline.Journal.Log
import RelayLifeline.Lib.Table

/-!
# Journals of snapshots

Where every line holds a whole record, a replay keeps the last one of each key.
A compaction keeps all lines of an entity or none, so it takes records out of
the replay and changes none of them.
-/

namespace RelayLifeline.Journal

open Lib

variable {P : Type} [Keyed P String] {lines : List (Line P)} {id : String}

/-- The last record with each key. -/
def snapshots (lines : List (Line P)) : Table P :=
  lines.foldl (fun records line => records.set line.payload) ∅

@[simp] theorem snapshots_append (lines : List (Line P)) (line : Line P) :
    snapshots (lines ++ [line]) = (snapshots lines).set line.payload :=
  List.foldl_append

theorem exists_line_of_mem_snapshots {a : P} (h : a ∈ (snapshots lines).items) :
    ∃ line ∈ lines, line.payload = a := by
  induction lines using List.reverseRecOn with
  | nil => cases h
  | append_singleton lines line ih =>
      rw [snapshots_append] at h
      rcases Table.mem_set.1 h with rfl | ⟨h, -⟩
      · exact ⟨line, by simp, rfl⟩
      · obtain ⟨l, hl, heq⟩ := ih h
        exact ⟨l, by simp [hl], heq⟩

theorem snapshots_filter (p : String → Bool) (h : ∀ line ∈ lines, line.entityID = key line.payload) :
    (snapshots (lines.filter fun line => p line.entityID)).get? id =
      if p id then (snapshots lines).get? id else none := by
  induction lines using List.reverseRecOn with
  | nil => cases p id <;> rfl
  | append_singleton lines line ih =>
      have ih := ih fun l hl => h l (by simp [hl])
      have hline := h line (by simp)
      rw [List.filter_append, snapshots_append]
      cases hp : p line.entityID with
      | true =>
          rw [List.filter_cons_of_pos (by simpa using hp), List.filter_nil, snapshots_append]
          by_cases heq : id = key line.payload
          · rw [heq, Table.get?_set_self, Table.get?_set_self, ← hline, hp, if_pos rfl]
          · rw [Table.get?_set_of_ne heq, Table.get?_set_of_ne heq, ih]
      | false =>
          rw [List.filter_cons_of_neg (by simp [hp]), List.filter_nil, List.append_nil, ih]
          by_cases heq : id = key line.payload
          · rw [heq, ← hline, hp]
            rfl
          · rw [Table.get?_set_of_ne heq]

/-- What a compaction leaves of the replay. -/
theorem snapshots_compact (h : ∀ line ∈ lines, line.entityID = key line.payload) (cutoff : Int)
    (protectedEntities : List String) :
    (snapshots (Log.compact lines cutoff protectedEntities)).get? id =
      if Log.retains lines cutoff protectedEntities id then (snapshots lines).get? id else none :=
  snapshots_filter (Log.retains lines cutoff protectedEntities) h

end RelayLifeline.Journal
