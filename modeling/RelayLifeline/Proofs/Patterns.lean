import RelayLifeline.Governance.Keys
import RelayLifeline.Journal.Digest
import RelayLifeline.Lib.Glob
import Mathlib.Data.List.GetD

/-!
# What a budget's pattern matches

The matcher goes through the pattern once and keeps a row of marks, one for
each front of the value: after some tokens the mark at `j` says whether they
match the first `j` runes. One token carries the row from a pattern to the
pattern with that token at its end, and the last mark of the last row is the
answer. The wrapper decides some cases without the matcher, and all but one of
them as the matcher would: a pattern without wildcards has to be the value byte
for byte, where the matcher asks for the same runes only. The two differ where
bytes are not UTF-8, since each of those is read as U+FFFD.
-/

namespace RelayLifeline.Governance

open Bytes (runes)
open Journal (utf8)
open Lib.Glob
open Lib.Json (Text IsUTF8 replacement)

/-- What a rune of a pattern stands for. -/
def globToken (c : Nat) : Token Nat :=
  if c = 0x2a then .star else if c = 0x3f then .one else .letter c

/-- The runes of the value are in the language of those of the pattern. -/
def InLanguage (pattern value : Text) : Prop :=
  Matches ((runes pattern).map globToken) (runes value)

/-! ## Rows -/

/-- The row marks the fronts of the value that the tokens so far match. -/
structure RowOf (tokens value : List Nat) (row : List Bool) : Prop where
  length_eq : row.length = value.length + 1
  marks : ∀ j ≤ value.length,
    row.getD j false = true ↔ Matches (tokens.map globToken) (value.take j)

theorem take_succ_ne_nil {value : List Nat} {j : Nat} (hj : j + 1 ≤ value.length) :
    value.take (j + 1) ≠ [] := by
  intro hnil
  have hlen := congrArg List.length hnil
  rw [List.length_take, List.length_nil] at hlen
  omega

theorem rowOf_start (value : List Nat) :
    RowOf [] value (true :: List.replicate value.length false) := by
  refine ⟨by simp, fun j hj => ?_⟩
  cases j with
  | zero => simp
  | succ j =>
      have hmark : (List.replicate value.length false).getD j false = false := by
        rw [List.getD_eq_getElem?_getD, List.getElem?_replicate]
        split <;> rfl
      rw [List.getD_cons_succ, hmark, List.map_nil, matches_nil]
      exact iff_of_false Bool.false_ne_true (take_succ_ne_nil hj)

theorem getD_globRow (value : List Nat) (row : List Bool) (token : Nat) {j : Nat}
    (hj : j ≤ value.length) :
    (globRow value row token).getD j false =
      (if token = 0x2a then (row.take (j + 1)).any id
      else if j = 0 then false
      else if token = 0x3f then row.getD (j - 1) false
      else row.getD (j - 1) false && value.getD (j - 1) 0 = token) := by
  rw [globRow, List.getD_eq_getElem?_getD, List.getElem?_map,
    List.getElem?_range (Nat.lt_succ_of_le hj)]
  rfl

/-- Some mark up to `j`. -/
theorem any_take_iff {row : List Bool} {j : Nat} :
    (row.take (j + 1)).any id = true ↔ ∃ i ≤ j, row.getD i false = true := by
  rw [List.any_eq_true]
  constructor
  · rintro ⟨b, hmem, hb⟩
    obtain ⟨i, hi, rfl⟩ := List.mem_iff_getElem.1 hmem
    rw [List.length_take] at hi
    refine ⟨i, by omega, ?_⟩
    rw [List.getD_eq_getElem _ _ (by omega)]
    rwa [List.getElem_take] at hb
  · rintro ⟨i, hi, hmark⟩
    obtain hlt | hge := Nat.lt_or_ge i row.length
    · rw [List.getD_eq_getElem _ _ hlt] at hmark
      refine ⟨row[i], ?_, hmark⟩
      exact List.mem_take_iff_getElem.2 ⟨i, by omega, rfl⟩
    · rw [List.getD_eq_default _ _ hge] at hmark
      cases hmark

/-- The last rune of a front. -/
theorem take_succ_eq {value : List Nat} {j : Nat} (hj : j + 1 ≤ value.length) :
    value.take (j + 1) = value.take j ++ [value.getD j 0] := by
  rw [List.take_add_one, List.getElem?_eq_getElem hj, List.getD_eq_getElem _ _ hj]
  rfl

theorem RowOf.globRow {tokens value : List Nat} {row : List Bool} (h : RowOf tokens value row)
    (token : Nat) : RowOf (tokens ++ [token]) value (globRow value row token) := by
  refine ⟨by simp [Governance.globRow], fun j hj => ?_⟩
  rw [getD_globRow value row token hj, List.map_append, List.map_cons, List.map_nil, globToken]
  split
  · -- a star passes on every mark before it
    rw [any_take_iff, matches_snoc_star]
    constructor
    · rintro ⟨i, hi, hmark⟩
      refine ⟨i, by rw [List.length_take]; omega, ?_⟩
      rw [List.take_take, Nat.min_eq_left hi]
      exact (h.marks i (by omega)).1 hmark
    · rintro ⟨i, hi, hmatch⟩
      rw [List.length_take] at hi
      rw [List.take_take, Nat.min_eq_left (by omega)] at hmatch
      exact ⟨i, by omega, (h.marks i (by omega)).2 hmatch⟩
  · cases j with
    | zero =>
        rw [if_pos rfl]
        refine iff_of_false Bool.false_ne_true ?_
        split
        · rw [matches_snoc_one]
          rintro ⟨v, a, hnil, -⟩
          simp at hnil
        · rw [matches_snoc_letter]
          rintro ⟨v, hnil, -⟩
          simp at hnil
    | succ j =>
        rw [if_neg (Nat.succ_ne_zero j), Nat.add_sub_cancel, take_succ_eq hj]
        have hmark := h.marks j (by omega)
        split
        · rw [hmark, matches_snoc_one]
          constructor
          · intro hmatch
            exact ⟨_, _, rfl, hmatch⟩
          · rintro ⟨v, a, heq, hmatch⟩
            rwa [(List.append_inj' heq rfl).1]
        · rw [Bool.and_eq_true, hmark, decide_eq_true_eq, matches_snoc_letter]
          constructor
          · rintro ⟨hmatch, rfl⟩
            exact ⟨_, rfl, hmatch⟩
          · rintro ⟨v, heq, hmatch⟩
            obtain ⟨hv, hrune⟩ := List.append_inj' heq rfl
            rw [hv]
            exact ⟨hmatch, List.head_eq_of_cons_eq hrune⟩

theorem RowOf.foldl {tokens value : List Nat} {row : List Bool} (h : RowOf tokens value row)
    (rest : List Nat) :
    RowOf (tokens ++ rest) value (rest.foldl (Governance.globRow value) row) := by
  induction rest generalizing tokens row with
  | nil => simpa using h
  | cons token rest ih =>
      have hnext := ih (h.globRow token)
      rwa [List.append_assoc, List.singleton_append] at hnext

theorem globMatch_iff (pattern value : Text) :
    globMatch pattern value = true ↔ InLanguage pattern value := by
  have hrow := (rowOf_start (runes value)).foldl (runes pattern)
  have hlast := hrow.marks (runes value).length (Nat.le_refl _)
  rwa [List.take_length, List.nil_append] at hlast

/-! ## The cases without the matcher -/

/-- A pattern without wildcards stands for its own runes. -/
theorem inLanguage_of_plain {pattern value : Text} (h : hasWildcard pattern = false) :
    InLanguage pattern value ↔ runes value = runes pattern := by
  have hplain : (runes pattern).map globToken = (runes pattern).map .letter := by
    refine List.map_congr_left fun c hc => ?_
    have hbyte {b : Nat} (hb : b < 0x80) (hwild : (UInt8.ofNat b = 0x2a || UInt8.ofNat b = 0x3f)) :
        c ≠ b := by
      rintro rfl
      exact List.any_eq_false.1 h _ (Bytes.mem_of_runes hb hc) hwild
    rw [globToken, if_neg (hbyte (by decide) (by decide)), if_neg (hbyte (by decide) (by decide))]
  rw [InLanguage, hplain, matches_letters]

/-- A pattern is in its own language. -/
theorem inLanguage_self (s : Text) : InLanguage s s := by
  unfold InLanguage
  induction runes s with
  | nil => exact .nil
  | cons c l ih =>
      rw [List.map_cons, globToken]
      split
      · exact .star [c] ih
      · split
        · exact .one c ih
        · exact .letter c ih

/-- What the wrapper decides by. -/
theorem budgetMatches_iff (pattern : Text) {value : Text} (hvalue : value ≠ []) :
    budgetMatches pattern value = true ↔
      if hasWildcard (Bytes.trimSpace pattern) then InLanguage (Bytes.trimSpace pattern) value
      else Bytes.trimSpace pattern = value := by
  rw [budgetMatches]
  split
  · next heq =>
      refine iff_of_true rfl ?_
      split
      · exact heq ▸ inLanguage_self _
      · exact heq
  · next hne =>
      split
      · next hempty =>
          have hnil := hempty.resolve_right hvalue
          refine iff_of_false Bool.false_ne_true ?_
          rw [hnil, if_neg (by decide)]
          exact fun heq => hvalue heq.symm
      · split
        · exact globMatch_iff _ _
        · exact iff_of_false Bool.false_ne_true hne

/-- The matcher decides the language of a pattern. What the wrapper takes, on
what it leaves of the pattern and a value that is not empty, the matcher takes
too, and they agree where the pattern has a wildcard or both are UTF-8. -/
theorem matches_exactly :
    (∀ pattern value : Text, globMatch pattern value = true ↔ InLanguage pattern value) ∧
      ∀ pattern value : Text, value ≠ [] →
        (budgetMatches pattern value = true →
          globMatch (Bytes.trimSpace pattern) value = true) ∧
        (hasWildcard (Bytes.trimSpace pattern) = true ∨
            IsUTF8 (Bytes.trimSpace pattern) ∧ IsUTF8 value →
          (budgetMatches pattern value = true ↔
            globMatch (Bytes.trimSpace pattern) value = true)) := by
  refine ⟨globMatch_iff, fun pattern value hvalue => ?_⟩
  rw [budgetMatches_iff pattern hvalue, globMatch_iff]
  split
  · exact ⟨id, fun _ => Iff.rfl⟩
  · next hplain =>
      rw [inLanguage_of_plain (Bool.eq_false_iff.2 hplain)]
      refine ⟨fun heq => heq ▸ rfl, fun hwell => ⟨fun heq => heq ▸ rfl, fun hrunes => ?_⟩⟩
      obtain ⟨hpattern, hvalue⟩ := hwell.resolve_left hplain
      exact Bytes.runes_injOn hpattern hvalue hrunes.symm

/-- A pattern with a wildcard, and one without. -/
theorem matches_exactly_acme :
    budgetMatches (utf8 " acme-* ") (utf8 "acme-prod") = true ∧
      budgetMatches (utf8 "acme") (utf8 "acme-prod") = false :=
  ⟨((matches_exactly.2 _ _ (by decide)).2 (.inl (by decide))).2 (by decide),
    Bool.eq_false_iff.2 fun h =>
      absurd ((matches_exactly.2 _ _ (by decide)).1 h) (by decide)⟩

/-- U+FFFD as a pattern, and a byte that is not UTF-8: their runes are the same,
and their bytes are not. -/
theorem not_agrees_replacement :
    Bytes.trimSpace replacement = replacement ∧ globMatch replacement [0xff] = true ∧
      InLanguage replacement [0xff] ∧ budgetMatches replacement [0xff] = false :=
  ⟨by decide, by decide, (globMatch_iff _ _).1 (by decide), by decide⟩

end RelayLifeline.Governance
