import Mathlib.Data.List.Basic

/-!
# A journal as its callers see it

A caller of the journal appends a payload for an entity, replays what a reopened
journal reads, and has it compacted. An append can fail, and then the journal
refuses every other until it is reopened; the line of an append that failed may
be in the file all the same, where only its sync failed or the anchor after it.
A line that was torn stops the journal from being opened and is no concern of a
replay.
-/

namespace RelayLifeline.Journal

/-- What a caller finds in an entry. -/
structure Line (P : Type) where
  time : Int
  entityID : String
  payload : P

/-- How an append goes: its line is written and acknowledged, or it fails and
the line is lost, or it fails and the line is in the file. -/
inductive Fate where
  | written
  | lost
  | unacknowledged
  deriving DecidableEq

/-- The lines of the file, and whether the store still takes appends. -/
structure Log (P : Type) where
  lines : List (Line P) := []
  degraded : Bool := false

namespace Log

variable {P : Type}

def append (log : Log P) (line : Line P) (fate : Fate) : Log P × Bool :=
  if log.degraded then (log, false)
  else
    match fate with
    | .written => ({ log with lines := log.lines ++ [line] }, true)
    | .lost => ({ log with degraded := true }, false)
    | .unacknowledged => ({ lines := log.lines ++ [line], degraded := true }, false)

/-- The entity is protected, or one of its lines is recent. -/
def retains (lines : List (Line P)) (cutoff : Int) (protectedEntities : List String)
    (entityID : String) : Bool :=
  entityID ∈ protectedEntities ∨
    lines.any fun line => !(line.time < cutoff) ∧ line.entityID = entityID

/-- `CompactWithProtection`. -/
def compact (lines : List (Line P)) (cutoff : Int) (protectedEntities : List String) :
    List (Line P) :=
  lines.filter fun line => retains lines cutoff protectedEntities line.entityID

/-- An append is acknowledged just where its line is written to a journal that
takes appends. -/
theorem append_cases (log : Log P) (line : Line P) (fate : Fate) :
    (log.degraded = false ∧ fate = .written ∧
      log.append line fate = ({ log with lines := log.lines ++ [line] }, true)) ∨
    ((log.append line fate).2 = false ∧ (log.append line fate).1.degraded = true ∧
      ((log.append line fate).1.lines = log.lines ∨
        log.degraded = false ∧ fate = .unacknowledged ∧
          (log.append line fate).1.lines = log.lines ++ [line])) := by
  simp only [append]
  split
  · next hdegraded => exact .inr ⟨rfl, hdegraded, .inl rfl⟩
  · next hhealthy =>
      cases fate with
      | written => exact .inl ⟨by simpa using hhealthy, rfl, rfl⟩
      | lost => exact .inr ⟨rfl, rfl, .inl rfl⟩
      | unacknowledged => exact .inr ⟨rfl, rfl, .inr ⟨by simpa using hhealthy, rfl, rfl⟩⟩

theorem mem_append {log : Log P} {line l : Line P} {fate : Fate}
    (h : l ∈ (log.append line fate).1.lines) : l ∈ log.lines ∨ l = line := by
  rcases log.append_cases line fate with ⟨-, -, heq⟩ | ⟨-, -, heq | ⟨-, -, heq⟩⟩
  · rw [heq] at h
    simpa using h
  · rw [heq] at h
    exact .inl h
  · rw [heq] at h
    simpa using h

end Log

end RelayLifeline.Journal
