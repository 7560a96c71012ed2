import Mathlib.Data.List.Basic

/-!
# Globs

A pattern is a list of tokens, each of which stands for one letter, for any one
letter or for any text. What a pattern stands for is defined from its first
token on; the lemmas at the end take its last token off, which is the way a
matcher goes that reads the pattern from the left and keeps which fronts of a
text match so far.
-/

namespace RelayLifeline.Lib.Glob

variable {α : Type*}

inductive Token (α : Type*) where
  /-- Any text. -/
  | star
  /-- Any one letter. -/
  | one
  | letter (a : α)

/-- The texts a pattern stands for. -/
inductive Matches : List (Token α) → List α → Prop where
  | nil : Matches [] []
  | star {p v} (u : List α) : Matches p v → Matches (.star :: p) (u ++ v)
  | one {p v} (a : α) : Matches p v → Matches (.one :: p) (a :: v)
  | letter {p v} (a : α) : Matches p v → Matches (.letter a :: p) (a :: v)

@[simp] theorem matches_nil {v : List α} : Matches ([] : List (Token α)) v ↔ v = [] := by
  constructor
  · intro h
    cases h
    rfl
  · rintro rfl
    exact .nil

theorem matches_star {p : List (Token α)} {w : List α} :
    Matches (.star :: p) w ↔ ∃ u v, w = u ++ v ∧ Matches p v := by
  constructor
  · intro h
    cases h with
    | star u hv => exact ⟨u, _, rfl, hv⟩
  · rintro ⟨u, v, rfl, hv⟩
    exact .star u hv

theorem matches_one {p : List (Token α)} {w : List α} :
    Matches (.one :: p) w ↔ ∃ a v, w = a :: v ∧ Matches p v := by
  constructor
  · intro h
    cases h with
    | one a hv => exact ⟨a, _, rfl, hv⟩
  · rintro ⟨a, v, rfl, hv⟩
    exact .one a hv

theorem matches_letter {p : List (Token α)} {a : α} {w : List α} :
    Matches (.letter a :: p) w ↔ ∃ v, w = a :: v ∧ Matches p v := by
  constructor
  · intro h
    cases h with
    | letter _ hv => exact ⟨_, rfl, hv⟩
  · rintro ⟨v, rfl, hv⟩
    exact .letter a hv

/-- A pattern of letters stands for itself. -/
theorem matches_letters {l v : List α} : Matches (l.map .letter) v ↔ v = l := by
  induction l generalizing v with
  | nil => simp
  | cons a l ih =>
      rw [List.map_cons, matches_letter]
      constructor
      · rintro ⟨rest, rfl, h⟩
        rw [ih.1 h]
      · rintro rfl
        exact ⟨l, rfl, ih.2 rfl⟩

/-- Two patterns in a row stand for the texts that split in two. -/
theorem matches_append {p q : List (Token α)} {w : List α} :
    Matches (p ++ q) w ↔ ∃ u v, w = u ++ v ∧ Matches p u ∧ Matches q v := by
  induction p generalizing w with
  | nil => simp
  | cons t p ih =>
      cases t with
      | star =>
          rw [List.cons_append, matches_star]
          constructor
          · rintro ⟨s, rest, rfl, h⟩
            obtain ⟨u, v, rfl, hu, hv⟩ := ih.1 h
            exact ⟨s ++ u, v, by simp, .star s hu, hv⟩
          · rintro ⟨u, v, rfl, hu, hv⟩
            obtain ⟨s, u, rfl, hp⟩ := matches_star.1 hu
            exact ⟨s, u ++ v, by simp, ih.2 ⟨u, v, rfl, hp, hv⟩⟩
      | one =>
          rw [List.cons_append, matches_one]
          constructor
          · rintro ⟨a, rest, rfl, h⟩
            obtain ⟨u, v, rfl, hu, hv⟩ := ih.1 h
            exact ⟨a :: u, v, rfl, .one a hu, hv⟩
          · rintro ⟨u, v, rfl, hu, hv⟩
            obtain ⟨a, u, rfl, hp⟩ := matches_one.1 hu
            exact ⟨a, u ++ v, rfl, ih.2 ⟨u, v, rfl, hp, hv⟩⟩
      | letter a =>
          rw [List.cons_append, matches_letter]
          constructor
          · rintro ⟨rest, rfl, h⟩
            obtain ⟨u, v, rfl, hu, hv⟩ := ih.1 h
            exact ⟨a :: u, v, rfl, .letter a hu, hv⟩
          · rintro ⟨u, v, rfl, hu, hv⟩
            obtain ⟨u, rfl, hp⟩ := matches_letter.1 hu
            exact ⟨u ++ v, rfl, ih.2 ⟨u, v, rfl, hp, hv⟩⟩

/-! ## The last token -/

variable {p : List (Token α)} {w : List α}

/-- With a last star, a front of the text has to match without it. -/
theorem matches_snoc_star : Matches (p ++ [.star]) w ↔ ∃ i ≤ w.length, Matches p (w.take i) := by
  rw [matches_append]
  constructor
  · rintro ⟨u, v, rfl, hu, -⟩
    exact ⟨u.length, by simp, by simpa using hu⟩
  · rintro ⟨i, -, h⟩
    refine ⟨w.take i, w.drop i, (List.take_append_drop i w).symm, h, ?_⟩
    have hrest := Matches.star (w.drop i) Matches.nil
    rwa [List.append_nil] at hrest

theorem matches_snoc_one : Matches (p ++ [.one]) w ↔ ∃ v a, w = v ++ [a] ∧ Matches p v := by
  rw [matches_append]
  constructor
  · rintro ⟨u, v, rfl, hu, hv⟩
    obtain ⟨a, rest, rfl, hrest⟩ := matches_one.1 hv
    rw [matches_nil.1 hrest]
    exact ⟨u, a, rfl, hu⟩
  · rintro ⟨v, a, rfl, hv⟩
    exact ⟨v, [a], rfl, hv, .one a .nil⟩

theorem matches_snoc_letter {a : α} :
    Matches (p ++ [.letter a]) w ↔ ∃ v, w = v ++ [a] ∧ Matches p v := by
  rw [matches_append]
  constructor
  · rintro ⟨u, v, rfl, hu, hv⟩
    obtain ⟨rest, rfl, hrest⟩ := matches_letter.1 hv
    rw [matches_nil.1 hrest]
    exact ⟨u, rfl, hu⟩
  · rintro ⟨v, rfl, hv⟩
    exact ⟨v, [a], rfl, hv, .letter a .nil⟩

end RelayLifeline.Lib.Glob
