import Mathlib.Algebra.BigOperators.Group.List.Basic
import Mathlib.Algebra.Order.BigOperators.Group.List
import Mathlib.Algebra.Order.Group.Int
import Mathlib.Algebra.Order.Group.Nat
import Mathlib.Data.List.Forall2
import Mathlib.Data.List.Nodup
import Mathlib.Tactic.Abel

/-!
# Tables of records that carry their own key

A map from an identifier to a record that stores the same identifier is kept
here as the list of its records, in the order they were added, with the keys
distinct by construction. Looking a key up, replacing the record with a key
and dropping it are the only operations, and none of them can break the
invariant, so no caller proves it again.

The second half is bookkeeping over a whole table. `total` adds a quantity up
over the records, in any commutative monoid, and splits at any one of them: a
table adds up to the record with a key and the table without it. Both exchange
lemmas are stated that way, and need no subtraction.
-/

namespace RelayLifeline.Lib

/-- A record type with a key of its own. -/
class Keyed (α : Type*) (κ : outParam Type*) where
  key : α → κ

export Keyed (key)

/-- Records in insertion order, no two with the same key. -/
structure Table (α : Type*) {κ : Type*} [Keyed α κ] where
  items : List α
  nodup : (items.map key).Nodup

namespace Table

variable {α κ : Type*} [Keyed α κ] {t : Table α} {a b : α} {k : κ}

@[ext] theorem ext {s t : Table α} (h : s.items = t.items) : s = t := by
  cases s
  cases t
  cases h
  rfl

/-- The table with no record. -/
def empty : Table α := ⟨[], by simp⟩

instance : EmptyCollection (Table α) := ⟨empty⟩

@[simp] theorem items_empty : (∅ : Table α).items = [] := rfl

theorem key_injOn {l : List α} (h : (l.map key).Nodup) (ha : a ∈ l) (hb : b ∈ l)
    (hk : key a = key b) : a = b :=
  List.inj_on_of_nodup_map h ha hb hk

variable [DecidableEq κ]

/-- The record with key `k`. -/
def get? (t : Table α) (k : κ) : Option α := t.items.find? (fun a => key a = k)

/-- Put `a` where the record with its key is, or last. -/
def set (t : Table α) (a : α) : Table α where
  items :=
    if (t.get? (key a)).isSome then
      t.items.map (fun b => if key b = key a then a else b)
    else t.items ++ [a]
  nodup := by
    split
    · have : (fun b => key (if key b = key a then a else b)) = key := by
        funext b
        split <;> simp_all
      rw [List.map_map, show key ∘ (fun b => if key b = key a then a else b) = key from this]
      exact t.nodup
    · rename_i h
      have hnone : ∀ b ∈ t.items, key b ≠ key a := by
        simpa [get?] using h
      rw [List.map_append, List.nodup_append]
      refine ⟨t.nodup, by simp, ?_⟩
      intro x hx y hy
      obtain ⟨b, hb, rfl⟩ := List.mem_map.mp hx
      simp only [List.map_cons, List.map_nil, List.mem_singleton] at hy
      exact hy ▸ hnone b hb

/-- Drop the record with key `k`. -/
def erase (t : Table α) (k : κ) : Table α where
  items := t.items.filter (fun a => key a ≠ k)
  nodup := t.nodup.sublist (List.Sublist.map key List.filter_sublist)

omit [DecidableEq κ] in
/-- The records `p` lets through. -/
def filter (t : Table α) (p : α → Bool) : Table α where
  items := t.items.filter p
  nodup := t.nodup.sublist (List.Sublist.map key List.filter_sublist)

/-! ## Lookup -/

@[simp] theorem get?_empty : (∅ : Table α).get? k = none := rfl

theorem get?_eq_none : t.get? k = none ↔ ∀ a ∈ t.items, key a ≠ k := by
  simp [get?]

theorem mem_of_get? (h : t.get? k = some a) : a ∈ t.items :=
  List.mem_of_find?_eq_some h

theorem key_of_get? (h : t.get? k = some a) : key a = k := by
  simpa using List.find?_some h

theorem get?_of_mem (h : a ∈ t.items) : t.get? (key a) = some a := by
  cases hf : t.get? (key a) with
  | none => exact absurd rfl (get?_eq_none.1 hf a h)
  | some b => rw [key_injOn t.nodup (mem_of_get? hf) h (key_of_get? hf)]

theorem get?_eq_some : t.get? k = some a ↔ a ∈ t.items ∧ key a = k := by
  constructor
  · intro h
    exact ⟨mem_of_get? h, key_of_get? h⟩
  · rintro ⟨h, rfl⟩
    exact get?_of_mem h

theorem items_set_of_none (h : t.get? (key a) = none) : (t.set a).items = t.items ++ [a] := by
  simp [set, h]

theorem items_set_of_some (h : t.get? (key a) = some b) :
    (t.set a).items = t.items.map (fun c => if key c = key a then a else c) := by
  simp [set, h]

theorem mem_set : b ∈ (t.set a).items ↔ b = a ∨ b ∈ t.items ∧ key b ≠ key a := by
  cases h : t.get? (key a) with
  | none =>
      have hne := get?_eq_none.1 h
      simp only [items_set_of_none h, List.mem_append, List.mem_singleton]
      constructor
      · rintro (hb | rfl)
        · exact .inr ⟨hb, hne b hb⟩
        · exact .inl rfl
      · rintro (rfl | ⟨hb, -⟩)
        · exact .inr rfl
        · exact .inl hb
  | some c =>
      simp only [items_set_of_some h, List.mem_map]
      constructor
      · rintro ⟨x, hx, rfl⟩
        by_cases hk : key x = key a
        · exact .inl (if_pos hk)
        · rw [if_neg hk]
          exact .inr ⟨hx, hk⟩
      · rintro (rfl | ⟨hb, hk⟩)
        · exact ⟨c, mem_of_get? h, if_pos (key_of_get? h)⟩
        · exact ⟨b, hb, if_neg hk⟩

theorem mem_erase : b ∈ (t.erase k).items ↔ b ∈ t.items ∧ key b ≠ k := by
  simp [erase]

omit [DecidableEq κ] in
theorem mem_filter {p : α → Bool} : b ∈ (t.filter p).items ↔ b ∈ t.items ∧ p b = true := by
  simp [filter]

@[simp] theorem get?_set_self : (t.set a).get? (key a) = some a :=
  get?_eq_some.2 ⟨mem_set.2 (.inl rfl), rfl⟩

theorem get?_set_of_ne (h : k ≠ key a) : (t.set a).get? k = t.get? k := by
  ext b
  simp only [get?_eq_some, mem_set]
  constructor
  · rintro ⟨rfl | ⟨hb, -⟩, rfl⟩
    · exact absurd rfl h
    · exact ⟨hb, rfl⟩
  · rintro ⟨hb, rfl⟩
    exact ⟨.inr ⟨hb, h⟩, rfl⟩

@[simp] theorem get?_erase_self : (t.erase k).get? k = none :=
  get?_eq_none.2 fun _ hb => (mem_erase.1 hb).2

theorem get?_erase_of_ne {k' : κ} (h : k' ≠ k) : (t.erase k).get? k' = t.get? k' := by
  ext b
  simp only [get?_eq_some, mem_erase]
  constructor
  · rintro ⟨⟨hb, -⟩, hk⟩
    exact ⟨hb, hk⟩
  · rintro ⟨hb, rfl⟩
    exact ⟨⟨hb, h⟩, rfl⟩

/-! ## Items after an update -/

/-- Replacing a record in the middle leaves the records around it alone. -/
theorem items_set_of_split {pre post : List α} (h : t.items = pre ++ b :: post)
    (hk : key a = key b) : (t.set a).items = pre ++ a :: post := by
  have hget : t.get? (key a) = some b :=
    get?_eq_some.2 ⟨by rw [h]; simp, hk.symm⟩
  have hnd := t.nodup
  rw [h, List.map_append, List.map_cons] at hnd
  obtain ⟨-, hmid, hdis⟩ := List.nodup_append.1 hnd
  have hpost := (List.nodup_cons.1 hmid).1
  rw [items_set_of_some hget, h, List.map_append, List.map_cons, if_pos hk.symm]
  congr 1
  · refine (List.map_congr_left fun c hc => ?_).trans (List.map_id _)
    refine if_neg fun hck => ?_
    exact hdis (key c) (List.mem_map_of_mem hc) (key b) (by simp) (hck.trans hk)
  · congr 1
    refine (List.map_congr_left fun c hc => ?_).trans (List.map_id _)
    refine if_neg fun hck => hpost ?_
    rw [← hk, ← hck]
    exact List.mem_map_of_mem hc

theorem set_self (h : a ∈ t.items) : t.set a = t := by
  obtain ⟨pre, post, hs⟩ := List.append_of_mem h
  ext1
  rw [items_set_of_split hs rfl, hs]

/-- Replacing the records one after the other, each by what `f` makes of it,
replaces them all. -/
theorem items_foldl_set {p : α → Bool} {f : α → α} (hf : ∀ a, key (f a) = key a)
    (t : Table α) :
    (t.items.foldl (fun t a => if p a then t.set (f a) else t) t).items =
      t.items.map fun a => if p a then f a else a := by
  have hrun : ∀ (post pre : List α) (t' : Table α), t'.items = pre ++ post →
      (post.foldl (fun t a => if p a then t.set (f a) else t) t').items =
        pre ++ post.map fun a => if p a then f a else a := by
    intro post
    induction post with
    | nil => intro pre t' h; simpa using h
    | cons a post ih =>
        intro pre t' h
        simp only [List.foldl_cons, List.map_cons]
        cases hp : p a with
        | false =>
            have := ih (pre ++ [a]) t' (by simp [h])
            simpa [hp] using this
        | true =>
            have := ih (pre ++ [f a]) (t'.set (f a)) (by
              rw [items_set_of_split h (hf a)]
              simp)
            simpa [hp] using this
  simpa using hrun t.items [] t rfl

/-- Dropping a record in the middle leaves the records around it alone. -/
theorem items_erase_of_split {pre post : List α} (h : t.items = pre ++ b :: post) :
    (t.erase (key b)).items = pre ++ post := by
  have hnd := t.nodup
  rw [h, List.map_append, List.map_cons] at hnd
  obtain ⟨-, hmid, hdis⟩ := List.nodup_append.1 hnd
  have hpre : ∀ c ∈ pre, decide (key c ≠ key b) = true := by
    intro c hc
    simpa using hdis (key c) (List.mem_map_of_mem hc) (key b) (by simp)
  have hpost : ∀ c ∈ post, decide (key c ≠ key b) = true := by
    intro c hc
    have hnot := (List.nodup_cons.1 hmid).1
    simp only [decide_eq_true_eq]
    exact fun hck => hnot (hck ▸ List.mem_map_of_mem hc)
  simp only [erase, h, List.filter_append, List.filter_cons, ne_eq, not_true, decide_false,
    Bool.false_eq_true, if_false]
  rw [List.filter_eq_self.2 hpre, List.filter_eq_self.2 hpost]

/-- Dropping a record after putting it in is dropping it. -/
theorem erase_set_self (t : Table α) (a : α) : (t.set a).erase (key a) = t.erase (key a) := by
  cases h : t.get? (key a) with
  | none =>
      ext1
      simp [erase, items_set_of_none h]
  | some b =>
      obtain ⟨pre, post, hs⟩ := List.append_of_mem (mem_of_get? h)
      have hk := key_of_get? h
      ext1
      rw [items_erase_of_split (items_set_of_split hs hk.symm), ← hk, items_erase_of_split hs]

theorem erase_of_none (h : t.get? k = none) : t.erase k = t := by
  ext1
  simpa [erase] using get?_eq_none.1 h

/-! ## Going through a table -/

section Each

variable {σ : Type*} {T : σ → Table α} {f : σ → α → σ} {I : σ → Prop} {Q : σ → α → Prop}

/-- A loop that goes through records of a table one after the other, each turn
touching the one it is at and no other: every turn finds its record as it was
before the loop, and what the turn at a record brings about, and the turns at
other records leave, is there at the end. -/
theorem foldl_each
    (hf : ∀ s a, I s → (T s).get? (key a) = some a →
      I (f s a) ∧ Q (f s a) a ∧ (∀ k, k ≠ key a → (T (f s a)).get? k = (T s).get? k) ∧
        ∀ b, key b ≠ key a → Q s b → Q (f s a) b)
    (l : List α) (hl : (l.map key).Nodup) {s : σ} (hs : I s)
    (hmem : ∀ a ∈ l, (T s).get? (key a) = some a) :
    I (l.foldl f s) ∧ (∀ a ∈ l, Q (l.foldl f s) a) ∧
      (∀ k, k ∉ l.map key → (T (l.foldl f s)).get? k = (T s).get? k) ∧
        ∀ b, key b ∉ l.map key → Q s b → Q (l.foldl f s) b := by
  induction l generalizing s with
  | nil => exact ⟨hs, by simp, fun _ _ => rfl, fun _ _ hb => hb⟩
  | cons a l ih =>
      rw [List.map_cons, List.nodup_cons] at hl
      obtain ⟨hnot, hl⟩ := hl
      obtain ⟨hI, hQ, hother, hkeep⟩ := hf s a hs (hmem a (by simp))
      have hne : ∀ b ∈ l, key b ≠ key a := by
        intro b hb heq
        exact hnot (heq ▸ List.mem_map_of_mem hb)
      obtain ⟨hIend, hQend, hend, hkeeps⟩ := ih hl hI (by
        intro b hb
        rw [hother _ (hne b hb)]
        exact hmem b (by simp [hb]))
      refine ⟨hIend, ?_, ?_, ?_⟩
      · intro b hb
        rcases List.mem_cons.1 hb with rfl | hb
        · exact hkeeps _ hnot hQ
        · exact hQend b hb
      · intro k hk
        simp only [List.map_cons, List.mem_cons, not_or] at hk
        rw [List.foldl_cons, hend k hk.2, hother k hk.1]
      · intro b hb hQb
        simp only [List.map_cons, List.mem_cons, not_or] at hb
        exact hkeeps b hb.2 (hkeep b hb.1 hQb)

end Each

/-! ## Records let through by their keys -/

section Filter

variable (p : κ → Bool)

theorem get?_filter (k : κ) :
    (t.filter fun a => p (key a)).get? k = if p k then t.get? k else none := by
  split
  next hp =>
    cases hget : t.get? k with
    | none =>
      refine get?_eq_none.2 fun a ha => ?_
      exact get?_eq_none.1 hget a (mem_filter.1 ha).1
    | some a =>
      obtain ⟨hmem, rfl⟩ := get?_eq_some.1 hget
      exact get?_of_mem (mem_filter.2 ⟨hmem, hp⟩)
  next hp =>
    refine get?_eq_none.2 fun a ha heq => hp ?_
    rw [← heq]
    exact (mem_filter.1 ha).2

theorem filter_set_of_pos (h : p (key a) = true) :
    (t.set a).filter (fun a => p (key a)) = (t.filter fun a => p (key a)).set a := by
  have hget : (t.filter fun a => p (key a)).get? (key a) = t.get? (key a) := by
    rw [get?_filter, if_pos h]
  apply Table.ext
  cases hfind : t.get? (key a) with
  | none =>
    rw [items_set_of_none (hget.trans hfind)]
    show (t.set a).items.filter _ = _
    rw [items_set_of_none hfind, List.filter_append]
    exact congrArg _ (List.filter_cons_of_pos h)
  | some b =>
    rw [items_set_of_some (hget.trans hfind)]
    show (t.set a).items.filter _ = _
    rw [items_set_of_some hfind, List.filter_map]
    refine congrArg (List.map _) (List.filter_congr fun c _ => ?_)
    show p (key (if key c = key a then a else c)) = p (key c)
    split
    next heq => rw [heq]
    next => rfl

theorem filter_set_of_neg (h : p (key a) = false) :
    (t.set a).filter (fun a => p (key a)) = t.filter fun a => p (key a) := by
  apply Table.ext
  show (t.set a).items.filter _ = t.items.filter _
  cases hfind : t.get? (key a) with
  | none =>
    rw [items_set_of_none hfind, List.filter_append,
      List.filter_cons_of_neg (by simp [h]), List.filter_nil, List.append_nil]
  | some b =>
    rw [items_set_of_some hfind, List.filter_map]
    have hsame : (t.items.filter fun c => p (key (if key c = key a then a else c))) =
        t.items.filter fun c => p (key c) := by
      refine List.filter_congr fun c _ => ?_
      split
      next heq => rw [heq]
      next => rfl
    refine (congrArg (List.map _) hsame).trans ?_
    refine (List.map_congr_left fun c hc => ?_).trans (List.map_id _)
    rw [if_neg, id]
    intro heq
    have hp := (List.mem_filter.1 hc).2
    rw [heq, h] at hp
    cases hp

theorem filter_erase (k : κ) :
    (t.erase k).filter (fun a => p (key a)) = (t.filter fun a => p (key a)).erase k := by
  apply Table.ext
  show (t.items.filter _).filter _ = (t.items.filter _).filter _
  rw [List.filter_filter, List.filter_filter]
  exact List.filter_congr fun c _ => Bool.and_comm _ _

/-- A record that is not let through may be erased before. -/
theorem filter_erase_of_neg {k : κ} (h : p k = false) :
    (t.erase k).filter (fun a => p (key a)) = t.filter fun a => p (key a) := by
  rw [filter_erase]
  exact erase_of_none (by rw [get?_filter, h]; rfl)

omit [DecidableEq κ] in
theorem filter_eq_self (h : ∀ a ∈ t.items, p (key a) = true) :
    (t.filter fun a => p (key a)) = t :=
  Table.ext (List.filter_eq_self.2 h)

end Filter

/-! ## Totals -/

section Total

variable {M : Type*} [AddCommMonoid M] {f g : α → M}

/-- A quantity added up over the records. -/
def total (f : α → M) (t : Table α) : M := (t.items.map f).sum

omit [DecidableEq κ] in
@[simp] theorem total_empty : (∅ : Table α).total f = 0 := by
  simp [total]

omit [DecidableEq κ] in
theorem total_congr (h : ∀ a ∈ t.items, f a = g a) : t.total f = t.total g := by
  unfold total
  rw [List.map_congr_left h]

/-- What a table adds up to once a record is put in, whether it replaces one
or not. -/
theorem total_set (t : Table α) (a : α) :
    (t.set a).total f = (t.erase (key a)).total f + f a := by
  cases h : t.get? (key a) with
  | none => simp [total, erase_of_none h, items_set_of_none h]
  | some b =>
      obtain ⟨pre, post, hs⟩ := List.append_of_mem (mem_of_get? h)
      have hk := key_of_get? h
      unfold total
      rw [items_set_of_split hs hk.symm, ← hk, items_erase_of_split hs]
      simp only [List.map_append, List.map_cons, List.sum_append, List.sum_cons]
      abel

theorem total_erase_of_some (h : t.get? k = some b) :
    (t.erase k).total f + f b = t.total f := by
  rw [← key_of_get? h, ← total_set, set_self (mem_of_get? h)]

/-- Dropping a record is leaving it out of the sum. -/
theorem total_erase (t : Table α) (k : κ) :
    (t.erase k).total f = t.total fun a => if key a = k then 0 else f a := by
  have hsum : ∀ l : List α, ((l.filter fun a => key a ≠ k).map f).sum =
      (l.map fun a => if key a = k then 0 else f a).sum := by
    intro l
    induction l with
    | nil => rfl
    | cons a l ih => by_cases h : key a = k <;> simp [h, ← ih]
  exact hsum t.items

end Total

omit [DecidableEq κ] in
theorem total_mono {f g : α → Nat} (h : ∀ a ∈ t.items, f a ≤ g a) : t.total f ≤ t.total g :=
  List.sum_le_sum h

omit [DecidableEq κ] in
theorem total_nonneg {M : Type*} [AddCommMonoid M] [PartialOrder M] [IsOrderedAddMonoid M]
    {f : α → M} (h : ∀ a ∈ t.items, 0 ≤ f a) : 0 ≤ t.total f :=
  List.sum_nonneg (by simpa using h)

/-! ## Two tables side by side -/

section Rel

variable {β : Type*} [Keyed β κ] {R : α → β → Prop} {t' : Table β}

/-- The same records in the same places, up to a relation. -/
def Rel (R : α → β → Prop) (t : Table α) (t' : Table β) : Prop := List.Forall₂ R t.items t'.items

omit [DecidableEq κ] in
theorem Rel.exists_left (h : Rel R t t') {b : β} (hb : b ∈ t'.items) : ∃ a ∈ t.items, R a b := by
  unfold Rel at h
  generalize t.items = l at h
  generalize t'.items = l' at h hb
  induction h with
  | nil => cases hb
  | @cons a b' l l' hab hl ih =>
      rcases List.mem_cons.1 hb with rfl | hb
      · exact ⟨a, by simp, hab⟩
      · obtain ⟨a', ha', hab'⟩ := ih hb
        exact ⟨a', List.mem_cons_of_mem _ ha', hab'⟩

omit [DecidableEq κ] in
theorem Rel.exists_right (h : Rel R t t') (ha : a ∈ t.items) : ∃ b ∈ t'.items, R a b :=
  Rel.exists_left (R := fun b a => R a b) h.flip ha

variable (hkey : ∀ a b, R a b → key a = key b)

include hkey in
theorem Rel.get?_some (h : Rel R t t') {b : β} (hb : t'.get? k = some b) :
    ∃ a, t.get? k = some a ∧ R a b := by
  obtain ⟨hmem, rfl⟩ := get?_eq_some.1 hb
  obtain ⟨a, ha, hab⟩ := h.exists_left hmem
  exact ⟨a, get?_eq_some.2 ⟨ha, hkey a b hab⟩, hab⟩

include hkey in
theorem Rel.get?_none (h : Rel R t t') (hk : t'.get? k = none) : t.get? k = none := by
  refine get?_eq_none.2 fun a ha => ?_
  obtain ⟨b, hb, hab⟩ := h.exists_right ha
  exact hkey a b hab ▸ get?_eq_none.1 hk b hb

include hkey in
theorem Rel.set (h : Rel R t t') {b : β} (hab : R a b) : Rel R (t.set a) (t'.set b) := by
  have hk := hkey a b hab
  unfold Rel
  cases hget : t'.get? (key b) with
  | none =>
      rw [items_set_of_none hget, items_set_of_none (hk ▸ h.get?_none hkey hget)]
      exact List.rel_append h (.cons hab .nil)
  | some b' =>
      obtain ⟨a', ha', -⟩ := h.get?_some hkey hget
      rw [items_set_of_some hget, items_set_of_some (hk ▸ ha'), List.forall₂_map_left_iff,
        List.forall₂_map_right_iff]
      refine List.Forall₂.imp (fun c d hcd => ?_) h
      rw [hkey c d hcd, hk]
      split
      · exact hab
      · exact hcd

include hkey in
theorem Rel.erase (h : Rel R t t') (k : κ) : Rel R (t.erase k) (t'.erase k) :=
  List.rel_filter (fun a b hab => by simp [hkey a b hab]) h

end Rel

end Table

end RelayLifeline.Lib
