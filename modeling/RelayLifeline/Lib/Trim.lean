import Mathlib.Data.List.Find
import Mathlib.Order.Basic

/-!
# Trimming codes off both ends of a list

A table lists the codes that are dropped from the front of a list and, read
backwards, from its end. A separator is an element that is a code by itself and
is in no other: no code reaches across it, so what stands before it and what
stands after it are trimmed on their own.
-/

namespace RelayLifeline.Lib.Trim

variable {α : Type*} [DecidableEq α]

/-- Drops codes from the front, at most so many of them. -/
def dropCodes (codes : List (List α)) : Nat → List α → List α
  | 0, s => s
  | n + 1, s =>
      match codes.find? (·.isPrefixOf s) with
      | some code => dropCodes codes n (s.drop code.length)
      | none => s

def trimStart (codes : List (List α)) (s : List α) : List α := dropCodes codes s.length s

def trimEnd (codes : List (List α)) (s : List α) : List α :=
  (trimStart (codes.map List.reverse) s.reverse).reverse

def trim (codes : List (List α)) (s : List α) : List α := trimEnd codes (trimStart codes s)

/-- The element is a code, and is in no other. -/
def Separator (codes : List (List α)) (a : α) : Prop :=
  [a] ∈ codes ∧ ∀ code ∈ codes, a ∈ code → code = [a]

variable {codes : List (List α)}

omit [DecidableEq α] in
theorem Separator.reverse {a : α} (h : Separator codes a) :
    Separator (codes.map List.reverse) a := by
  obtain ⟨hmem, honly⟩ := h
  refine ⟨List.mem_map.2 ⟨[a], hmem, rfl⟩, ?_⟩
  intro code hcode ha
  obtain ⟨back, hback, rfl⟩ := List.mem_map.1 hcode
  rw [honly back hback (List.mem_reverse.1 ha)]
  rfl

/-! ## From the front -/

/-- Before a separator, the code found is one of what stands before it. -/
theorem find_append {a : α} (ha : Separator codes a) {s : List α} (hs : s ≠ []) (t : List α) :
    codes.find? (·.isPrefixOf (s ++ a :: t)) = codes.find? (·.isPrefixOf s) := by
  refine List.find?_congr fun code hcode => ?_
  rw [Bool.eq_iff_iff, List.isPrefixOf_iff_prefix, List.isPrefixOf_iff_prefix]
  constructor
  · intro hstart
    obtain hlt | hle := Nat.lt_or_ge s.length code.length
    swap
    · exact List.prefix_of_prefix_length_le hstart (List.prefix_append _ _) hle
    -- a longer code would reach over the separator, and so be the separator
    have hreach : s ++ [a] <+: s ++ a :: t :=
      (List.prefix_append_right_inj s).2 (List.cons_prefix_cons.2 ⟨rfl, List.nil_prefix⟩)
    have hin : s ++ [a] <+: code := by
      refine List.prefix_of_prefix_length_le hreach hstart ?_
      rw [List.length_append, List.length_singleton]
      omega
    have hmem : a ∈ code := hin.subset (List.mem_append_right _ (List.mem_singleton.2 rfl))
    have hlen := hin.length_le
    rw [ha.2 code hcode hmem, List.length_append] at hlen
    have hpos := List.length_pos_iff.2 hs
    simp only [List.length_singleton] at hlen
    omega
  · intro hstart
    exact hstart.trans (List.prefix_append _ _)

theorem dropCodes_of_le (hcodes : [] ∉ codes) {n : Nat} {s : List α} (h : s.length ≤ n) :
    dropCodes codes n s = trimStart codes s := by
  rw [trimStart]
  induction n using Nat.strongRecOn generalizing s with
  | ind n ih =>
    cases n with
    | zero => rw [Nat.le_zero.1 h]
    | succ n =>
      cases s with
      | nil =>
        have hnone : codes.find? (·.isPrefixOf ([] : List α)) = none := by
          rw [List.find?_eq_none]
          intro code hcode hstart
          rw [List.isPrefixOf_iff_prefix, List.prefix_nil] at hstart
          exact hcodes (hstart ▸ hcode)
        rw [dropCodes, hnone]
        rfl
      | cons b s =>
        rw [dropCodes, List.length_cons, dropCodes]
        cases hfind : codes.find? (·.isPrefixOf (b :: s)) with
        | none => rfl
        | some code =>
          have hne : code ≠ [] := fun hnil => hcodes (hnil ▸ List.mem_of_find?_eq_some hfind)
          have hpos := List.length_pos_iff.2 hne
          have hshort : ((b :: s).drop code.length).length ≤ s.length := by
            rw [List.length_drop, List.length_cons]
            omega
          rw [List.length_cons] at h
          have hleft := ih n (by omega) (le_trans hshort (by omega))
          have hright := ih s.length (by omega) hshort
          show dropCodes codes n _ = dropCodes codes s.length _
          rw [hleft, hright]

/-- What trimming does: it drops the first code there is, and goes on. -/
theorem trimStart_eq (hcodes : [] ∉ codes) (s : List α) :
    trimStart codes s =
      match codes.find? (·.isPrefixOf s) with
      | some code => trimStart codes (s.drop code.length)
      | none => s := by
  rw [← dropCodes_of_le hcodes (Nat.le_succ s.length), dropCodes]
  cases codes.find? (·.isPrefixOf s) with
  | none => rfl
  | some code =>
    refine dropCodes_of_le hcodes ?_
    rw [List.length_drop]
    omega

@[simp] theorem trimStart_nil : trimStart codes ([] : List α) = [] := rfl

theorem trimStart_separator (hcodes : [] ∉ codes) {a : α} (ha : Separator codes a)
    (s : List α) : trimStart codes (a :: s) = trimStart codes s := by
  rw [trimStart_eq hcodes]
  cases hfind : codes.find? (·.isPrefixOf (a :: s)) with
  | none =>
    rw [List.find?_eq_none] at hfind
    exact absurd (by simp) (hfind [a] ha.1)
  | some code =>
    have hcode := List.mem_of_find?_eq_some hfind
    have hstart := List.find?_some hfind
    rw [List.isPrefixOf_iff_prefix] at hstart
    cases code with
    | nil => exact absurd hcode hcodes
    | cons b rest =>
      obtain ⟨rfl, -⟩ := List.cons_prefix_cons.1 hstart
      rw [ha.2 _ hcode List.mem_cons_self]
      rfl

/-- Up to a separator, trimming looks only at what stands before it. -/
theorem trimStart_append (hcodes : [] ∉ codes) {a : α} (ha : Separator codes a)
    (s t : List α) :
    trimStart codes (s ++ a :: t) =
      if trimStart codes s = [] then trimStart codes t else trimStart codes s ++ a :: t := by
  induction hn : s.length using Nat.strongRecOn generalizing s with
  | ind n ih =>
    cases s with
    | nil =>
      rw [List.nil_append, trimStart_separator hcodes ha, trimStart_nil, if_pos rfl]
    | cons b s =>
      have hne : b :: s ≠ [] := List.cons_ne_nil b s
      rw [trimStart_eq hcodes, find_append ha hne, trimStart_eq hcodes (b :: s)]
      cases hfind : codes.find? (·.isPrefixOf (b :: s)) with
      | none =>
        rw [if_neg hne]
      | some code =>
        have hstart := List.find?_some hfind
        rw [List.isPrefixOf_iff_prefix] at hstart
        have hcode : code ≠ [] := fun hnil => hcodes (hnil ▸ List.mem_of_find?_eq_some hfind)
        have hpos := List.length_pos_iff.2 hcode
        show trimStart codes ((b :: s ++ a :: t).drop code.length) = _
        rw [List.drop_append_of_le_length hstart.length_le]
        refine ih ((b :: s).drop code.length).length ?_ _ rfl
        rw [List.length_drop, ← hn, List.length_cons]
        omega

theorem trimStart_separators (hcodes : [] ∉ codes) {gap : List α}
    (hgap : ∀ a ∈ gap, Separator codes a) (s : List α) :
    trimStart codes (gap ++ s) = trimStart codes s := by
  induction gap with
  | nil => rfl
  | cons a gap ih =>
    rw [List.cons_append, trimStart_separator hcodes (hgap a List.mem_cons_self)]
    exact ih fun b hb => hgap b (List.mem_cons_of_mem _ hb)

theorem trimStart_gap (hcodes : [] ∉ codes) {gap : List α} (hne : gap ≠ [])
    (hgap : ∀ a ∈ gap, Separator codes a) (s t : List α) :
    trimStart codes (s ++ gap ++ t) =
      if trimStart codes s = [] then trimStart codes t else trimStart codes s ++ gap ++ t := by
  cases gap with
  | nil => exact absurd rfl hne
  | cons a gap =>
    rw [List.append_assoc, List.cons_append,
      trimStart_append hcodes (hgap a List.mem_cons_self),
      trimStart_separators hcodes fun b hb => hgap b (List.mem_cons_of_mem _ hb),
      List.append_assoc, List.cons_append]

/-- What is dropped from the front is made of codes. -/
theorem trimStart_suffix (hcodes : [] ∉ codes) (s : List α) :
    ∃ dropped, s = dropped ++ trimStart codes s ∧ ∀ a ∈ dropped, ∃ code ∈ codes, a ∈ code := by
  induction hn : s.length using Nat.strongRecOn generalizing s with
  | ind n ih =>
    rw [trimStart_eq hcodes]
    cases hfind : codes.find? (·.isPrefixOf s) with
    | none => exact ⟨[], rfl, fun a ha => absurd ha List.not_mem_nil⟩
    | some code =>
      have hmem := List.mem_of_find?_eq_some hfind
      have hstart := List.find?_some hfind
      rw [List.isPrefixOf_iff_prefix] at hstart
      obtain ⟨rest, rfl⟩ := hstart
      have hpos := List.length_pos_iff.2 fun hnil : code = [] => hcodes (hnil ▸ hmem)
      rw [List.length_append] at hn
      obtain ⟨dropped, hs, hin⟩ := ih rest.length (by omega) rest rfl
      refine ⟨code ++ dropped, ?_, ?_⟩
      · show code ++ rest = code ++ dropped ++ trimStart codes ((code ++ rest).drop code.length)
        rw [List.drop_left, List.append_assoc, ← hs]
      · intro a ha
        rcases List.mem_append.1 ha with h | h
        · exact ⟨code, hmem, h⟩
        · exact hin a h

/-! ## From both ends -/

omit [DecidableEq α] in
theorem nil_notMem_reverse (hcodes : [] ∉ codes) : [] ∉ codes.map List.reverse := by
  intro hmem
  obtain ⟨code, hcode, hnil⟩ := List.mem_map.1 hmem
  rw [List.reverse_eq_nil_iff] at hnil
  exact hcodes (hnil ▸ hcode)

/-- With no code at either end there is nothing to trim. -/
theorem trim_of_none (hcodes : [] ∉ codes) {s : List α}
    (hfront : codes.find? (·.isPrefixOf s) = none)
    (hback : (codes.map List.reverse).find? (·.isPrefixOf s.reverse) = none) :
    trim codes s = s := by
  have hstart : trimStart codes s = s := by rw [trimStart_eq hcodes, hfront]
  rw [trim, hstart, trimEnd, trimStart_eq (nil_notMem_reverse hcodes), hback]
  exact List.reverse_reverse s

@[simp] theorem trimEnd_nil : trimEnd codes ([] : List α) = [] := rfl

theorem trimEnd_gap (hcodes : [] ∉ codes) {gap : List α} (hne : gap ≠ [])
    (hgap : ∀ a ∈ gap, Separator codes a) (s t : List α) :
    trimEnd codes (s ++ gap ++ t) =
      if trimEnd codes t = [] then trimEnd codes s else s ++ gap ++ trimEnd codes t := by
  have hback : trimEnd codes (s ++ gap ++ t) =
      (trimStart (codes.map List.reverse) (t.reverse ++ gap.reverse ++ s.reverse)).reverse := by
    rw [trimEnd, List.reverse_append, List.reverse_append, List.append_assoc]
  rw [hback, trimStart_gap (nil_notMem_reverse hcodes) (List.reverse_eq_nil_iff.not.2 hne)
    fun a ha => (hgap a (List.mem_reverse.1 ha)).reverse]
  by_cases h : trimEnd codes t = []
  · rw [if_pos h, if_pos (List.reverse_eq_nil_iff.1 h)]
    rfl
  · rw [if_neg h, if_neg fun hnil => h (List.reverse_eq_nil_iff.2 hnil), List.reverse_append,
      List.reverse_append, List.reverse_reverse, List.reverse_reverse, List.append_assoc]
    rfl

/-- Around a gap of separators, both sides are trimmed on their own. -/
theorem trim_gap (hcodes : [] ∉ codes) {gap : List α} (hne : gap ≠ [])
    (hgap : ∀ a ∈ gap, Separator codes a) (s t : List α) :
    trim codes (s ++ gap ++ t) =
      if trimStart codes s = [] then trim codes t
      else if trimEnd codes t = [] then trim codes s
      else trimStart codes s ++ gap ++ trimEnd codes t := by
  rw [trim, trimStart_gap hcodes hne hgap]
  by_cases h : trimStart codes s = []
  · rw [if_pos h, if_pos h]
    rfl
  · rw [if_neg h, if_neg h, trimEnd_gap hcodes hne hgap]
    rfl

end RelayLifeline.Lib.Trim
