import RelayLifeline.Journal.Log

/-!
# A journal beside its file

A `Log` is what the file of a journal holds. The store keeps the lines it has
acknowledged in memory, and a compaction writes the file anew from those: a line
that a failed append has left in the file is lost with it.
-/

namespace RelayLifeline.Journal

theorem halted_of_none : false = true → false = true := id

/-- The acknowledged lines, the line that a failed append has left behind them
in the file, and whether the store has stopped taking appends. -/
structure Tape (P : Type) where
  entries : List (Line P) := []
  stray : Option (Line P) := none
  degraded : Bool := false
  halted : stray.isSome = true → degraded = true := by first | exact Journal.halted_of_none | simp

namespace Tape

variable {P : Type}

/-- The lines of the file. -/
def file (t : Tape P) : List (Line P) := t.entries ++ t.stray.toList

def append (t : Tape P) (line : Line P) (fate : Fate) : Tape P × Bool :=
  if t.degraded then (t, false)
  else
    match fate with
    | .written => ({ t with entries := t.entries ++ [line] }, true)
    | .lost => ({ t with degraded := true, halted := fun _ => rfl }, false)
    | .unacknowledged =>
        ({ t with stray := some line, degraded := true, halted := fun _ => rfl }, false)

/-- `CompactWithProtection`. It rewrites the file where it has lines to remove;
a compaction that is `unacknowledged` has replaced the file and failed at the
anchor. -/
def compact (t : Tape P) (cutoff : Int) (protectedEntities : List String) (fate : Fate) : Tape P :=
  let retained := Log.compact t.entries cutoff protectedEntities
  if retained.length = t.entries.length then t
  else
    match fate with
    | .lost => t
    | .written => { t with entries := retained, stray := none, halted := by simp }
    | .unacknowledged => { entries := retained, degraded := true }

/-- The journal that is opened over the file. -/
def reopen (t : Tape P) : Tape P where
  entries := t.file

theorem stray_of_healthy {t : Tape P} (h : t.degraded = false) : t.stray = none := by
  by_contra hstray
  have hdegraded := t.halted (Option.isSome_iff_ne_none.2 hstray)
  rw [h] at hdegraded
  cases hdegraded

/-- What an append makes of the file is what it makes of a `Log`. -/
theorem append_eq_log (t : Tape P) (line : Line P) (fate : Fate) :
    (⟨t.file, t.degraded⟩ : Log P).append line fate =
      (⟨(t.append line fate).1.file, (t.append line fate).1.degraded⟩, (t.append line fate).2) := by
  rw [Log.append.eq_def, append.eq_def]
  dsimp only
  split
  next hdegraded => rw [hdegraded]
  next hhealthy =>
    have hstray := stray_of_healthy (Bool.eq_false_iff.2 hhealthy)
    cases fate with
    | written => simp [file, hstray]
    | lost => rfl
    | unacknowledged => simp [file, hstray]

/-- An append is acknowledged, or it leaves the entries alone and may leave its
line behind them. -/
theorem append_cases (t : Tape P) (line : Line P) (fate : Fate) :
    (t.degraded = false ∧ t.append line fate = ({ t with entries := t.entries ++ [line] }, true)) ∨
    (t.append line fate).2 = false ∧ (t.append line fate).1.entries = t.entries ∧
      (t.append line fate).1.degraded = true ∧
      ((t.append line fate).1.stray = t.stray ∨
        t.degraded = false ∧ (t.append line fate).1.stray = some line) := by
  rw [append.eq_def]
  split
  next hdegraded => exact .inr ⟨rfl, rfl, hdegraded, .inl rfl⟩
  next hhealthy =>
    rw [Bool.not_eq_true] at hhealthy
    cases fate with
    | written => exact .inl ⟨hhealthy, rfl⟩
    | lost => exact .inr ⟨rfl, rfl, rfl, .inl rfl⟩
    | unacknowledged => exact .inr ⟨rfl, rfl, rfl, .inr ⟨hhealthy, rfl⟩⟩

/-- A compaction leaves everything as it is, or it leaves the retained entries
and nothing behind them. -/
theorem compact_cases (t : Tape P) (cutoff : Int) (protectedEntities : List String) (fate : Fate) :
    t.compact cutoff protectedEntities fate = t ∨
      (t.compact cutoff protectedEntities fate).entries =
          Log.compact t.entries cutoff protectedEntities ∧
        (Log.compact t.entries cutoff protectedEntities).length ≠ t.entries.length ∧
        (t.compact cutoff protectedEntities fate).stray = none := by
  rw [compact.eq_def]
  dsimp only
  split
  next => exact .inl rfl
  next hremoves =>
    cases fate with
    | lost => exact .inl rfl
    | written => exact .inr ⟨rfl, hremoves, rfl⟩
    | unacknowledged => exact .inr ⟨rfl, hremoves, rfl⟩

end Tape

end RelayLifeline.Journal
