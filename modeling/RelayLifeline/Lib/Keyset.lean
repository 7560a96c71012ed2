import Mathlib.Data.List.Sort
import Mathlib.Order.Defs.LinearOrder

/-!
# Reading a changing list by key

The items of a list have keys in a linear order and are read from the greatest
key down, a page at a time. The list may be another one whenever a page is
asked for, and all a reader brings along is the key of the last item of the page
before. A page then has to leave out nothing that is above all of what it leaves
for later.

Whatever becomes of the list in between, no key is read twice. One that is there
each time has been read when the last page has.
-/

namespace RelayLifeline.Lib.Keyset

variable {α κ : Type*} [LinearOrder κ] {key : α → κ} {keep : α → Bool}

/-- The reader, who has read down to a key, has not come to this one. -/
def Below (after : Option κ) (k : κ) : Prop := ∀ last ∈ after, k < last

theorem below_none (k : κ) : Below none k := fun _ h => absurd h (Option.not_mem_none _)

theorem below_some {last k : κ} : Below (some last) k ↔ k < last :=
  ⟨fun h => h last rfl, fun h _ hlast => Option.some.inj hlast ▸ h⟩

/-- What a page of the list has to be. -/
structure IsPage (key : α → κ) (keep : α → Bool) (after : Option κ) (items page : List α)
    (more : Bool) : Prop where
  kept : ∀ a ∈ page, a ∈ items ∧ keep a = true ∧ Below after (key a)
  sorted : page.Pairwise fun a b => key b < key a
  /-- What it leaves out is for the pages after it. -/
  rest : ∀ a ∈ items, keep a = true → Below after (key a) → a ∉ page →
    more = true ∧ ∀ b ∈ page, key a < key b
  /-- The page after has a key to begin from. -/
  nonempty : more = true → page ≠ []

/-- The front of what is kept of a sorted list is a page of it. -/
theorem isPage_take {items : List α} (hsorted : items.Pairwise fun a b => key b < key a)
    {after : Option κ} {limit : Nat} (hlimit : 0 < limit) {wanted : α → Bool}
    (hwanted : ∀ a ∈ items, wanted a = true ↔ keep a = true ∧ Below after (key a)) :
    IsPage key keep after items ((items.filter wanted).take limit)
      (decide (limit < (items.filter wanted).length)) := by
  have hfilter := hsorted.sublist (List.filter_sublist (p := wanted))
  refine ⟨?_, hfilter.sublist (List.take_sublist _ _), ?_, ?_⟩
  · intro a ha
    obtain ⟨hmem, hkept⟩ := List.mem_filter.1 (List.mem_of_mem_take ha)
    exact ⟨hmem, (hwanted a hmem).1 hkept⟩
  · intro a ha hkeep hbelow hout
    have hmem : a ∈ items.filter wanted := List.mem_filter.2 ⟨ha, (hwanted a ha).2 ⟨hkeep, hbelow⟩⟩
    rw [← List.take_append_drop limit (items.filter wanted), List.mem_append] at hmem
    have hdrop := hmem.resolve_left hout
    refine ⟨?_, ?_⟩
    · have hlen := List.length_pos_of_mem hdrop
      rw [List.length_drop] at hlen
      exact decide_eq_true (by omega)
    · rw [← List.take_append_drop limit (items.filter wanted), List.pairwise_append] at hfilter
      exact fun b hb => hfilter.2.2 b hb a hdrop
  · intro hmore hnil
    have hlen := congrArg List.length hnil
    have hlong := of_decide_eq_true hmore
    rw [List.length_take, List.length_nil] at hlen
    omega

/-- Pages are read from a key down, each from the next of the lists: what is
read, and whether the last page has been. -/
inductive Reads (key : α → κ) (keep : α → Bool) : Option κ → List (List α) → List α → Bool → Prop
  | cut {after : Option κ} : Reads key keep after [] [] false
  | last {after : Option κ} {items page : List α} (hpage : IsPage key keep after items page false) :
      Reads key keep after [items] page true
  | more {after : Option κ} {items page rest : List α} {later : List (List α)} {last : α}
      {done : Bool} (hpage : IsPage key keep after items page true)
      (hlast : page.getLast? = some last)
      (hrest : Reads key keep (some (key last)) later rest done) :
      Reads key keep after (items :: later) (page ++ rest) done

variable {after : Option κ} {lists : List (List α)} {read : List α} {done : Bool}

/-- All that is read was there and is kept. -/
theorem Reads.kept (h : Reads key keep after lists read done) :
    ∀ a ∈ read, ∃ items ∈ lists, a ∈ items ∧ keep a = true := by
  induction h with
  | cut => exact fun a ha => absurd ha List.not_mem_nil
  | last hpage =>
      intro a ha
      obtain ⟨hmem, hkeep, -⟩ := hpage.kept a ha
      exact ⟨_, List.mem_singleton_self _, hmem, hkeep⟩
  | more hpage _ _ ih =>
      intro a ha
      rcases List.mem_append.1 ha with ha | ha
      · obtain ⟨hmem, hkeep, -⟩ := hpage.kept a ha
        exact ⟨_, List.mem_cons_self, hmem, hkeep⟩
      · obtain ⟨items, hitems, hmem⟩ := ih a ha
        exact ⟨items, List.mem_cons_of_mem _ hitems, hmem⟩

theorem Reads.ne_nil (h : Reads key keep after lists read done) (hdone : done = true) :
    lists ≠ [] := by
  cases h with
  | cut => cases hdone
  | last _ => exact List.cons_ne_nil _ _
  | more _ _ _ => exact List.cons_ne_nil _ _

theorem IsPage.last_below {items page : List α} {more : Bool} {last : α}
    (h : IsPage key keep after items page more) (hlast : page.getLast? = some last) :
    Below after (key last) :=
  (h.kept last (List.mem_of_getLast? hlast)).2.2

/-- Nothing of a page is below its last item. -/
theorem IsPage.last_le {items page : List α} {more : Bool} {last : α}
    (h : IsPage key keep after items page more) (hlast : page.getLast? = some last) :
    ∀ a ∈ page, key last ≤ key a := by
  intro a ha
  obtain ⟨front, rfl⟩ := List.getLast?_eq_some_iff.1 hlast
  rcases List.mem_append.1 ha with ha | ha
  · exact le_of_lt ((List.pairwise_append.1 h.sorted).2.2 a ha last (List.mem_singleton_self _))
  · rw [List.mem_singleton.1 ha]

/-- All that is read is below where the reading began. -/
theorem Reads.below_after (h : Reads key keep after lists read done) :
    ∀ a ∈ read, Below after (key a) := by
  induction h with
  | cut => exact fun a ha => absurd ha List.not_mem_nil
  | last hpage => exact fun a ha => (hpage.kept a ha).2.2
  | more hpage hlast _ ih =>
      intro a ha
      rcases List.mem_append.1 ha with ha | ha
      · exact (hpage.kept a ha).2.2
      · intro k hk
        exact lt_trans (below_some.1 (ih a ha)) (hpage.last_below hlast k hk)

/-- The keys go down through all the pages. -/
theorem Reads.sorted (h : Reads key keep after lists read done) :
    read.Pairwise fun a b => key b < key a := by
  induction h with
  | cut => exact List.Pairwise.nil
  | last hpage => exact hpage.sorted
  | more hpage hlast hrest ih =>
      refine List.pairwise_append.2 ⟨hpage.sorted, ih, ?_⟩
      intro a ha b hb
      exact lt_of_lt_of_le (below_some.1 (hrest.below_after b hb)) (hpage.last_le hlast a ha)

/-- When the last page has been read, so has every key that was there, and was
kept, each time. -/
theorem Reads.complete (h : Reads key keep after lists read done) (hdone : done = true) {k : κ}
    (hbelow : Below after k) (hthere : ∀ items ∈ lists, ∃ a ∈ items, keep a = true ∧ key a = k) :
    k ∈ read.map key := by
  induction h with
  | cut => cases hdone
  | @last _ _ page hpage =>
      obtain ⟨a, ha, hkeep, rfl⟩ := hthere _ (List.mem_singleton_self _)
      by_cases hin : a ∈ page
      · exact List.mem_map_of_mem hin
      · cases (hpage.rest a ha hkeep hbelow hin).1
  | @more _ _ page _ _ _ _ hpage hlast _ ih =>
      obtain ⟨a, ha, hkeep, rfl⟩ := hthere _ List.mem_cons_self
      rw [List.map_append, List.mem_append]
      by_cases hin : a ∈ page
      · exact .inl (List.mem_map_of_mem hin)
      · refine .inr (ih hdone (below_some.2 ?_) fun items hitems =>
          hthere items (List.mem_cons_of_mem _ hitems))
        exact (hpage.rest a ha hkeep hbelow hin).2 _ (List.mem_of_getLast? hlast)

/-! ## Sorting by key -/

/-- Sorting asks only how the items of the list compare. -/
theorem insertionSort_congr {r r' : α → α → Prop} [DecidableRel r] [DecidableRel r'] {l : List α}
    (h : ∀ a ∈ l, ∀ b ∈ l, r a b ↔ r' a b) : l.insertionSort r = l.insertionSort r' := by
  have hinsert : ∀ (a : α) (l : List α), (∀ b ∈ l, r a b ↔ r' a b) →
      l.orderedInsert r a = l.orderedInsert r' a := by
    intro a l hl
    induction l with
    | nil => rfl
    | cons b l ih =>
        simp only [List.orderedInsert_cons, hl b List.mem_cons_self,
          ih fun c hc => hl c (List.mem_cons_of_mem _ hc)]
  induction l with
  | nil => rfl
  | cons a l ih =>
      have hl := ih fun b hb c hc => h b (List.mem_cons_of_mem _ hb) c (List.mem_cons_of_mem _ hc)
      rw [List.insertionSort_cons, List.insertionSort_cons, hl]
      refine hinsert a _ fun b hb => h a List.mem_cons_self b (List.mem_cons_of_mem _ ?_)
      exact (List.mem_insertionSort r').1 hb

/-- A list without equal keys, sorted by them. -/
theorem pairwise_insertionSort {r : α → α → Prop} [DecidableRel r] {l : List α}
    (hr : ∀ a ∈ l, ∀ b ∈ l, r a b ↔ key b ≤ key a) (hinj : (l.map key).Nodup) :
    (l.insertionSort r).Pairwise fun a b => key b < key a := by
  have hperm := List.perm_insertionSort r l
  have hsorted : (l.insertionSort r).Pairwise fun a b => key b ≤ key a := by
    rw [insertionSort_congr hr]
    have htotal : Std.Total fun a b : α => key b ≤ key a := ⟨fun a b => le_total (key b) (key a)⟩
    have htrans : IsTrans α fun a b : α => key b ≤ key a := ⟨fun a b c hab hbc => le_trans hbc hab⟩
    exact List.pairwise_insertionSort _ l
  have hne : (l.insertionSort r).Pairwise fun a b => key a ≠ key b :=
    List.pairwise_map.1 ((hperm.map key).nodup_iff.2 hinj)
  exact (hsorted.and hne).imp fun h => lt_of_le_of_ne h.1 (Ne.symm h.2)

end RelayLifeline.Lib.Keyset
