import Mathlib.Data.List.Basic

/-!
# Reading a list page by page

The items of a list have numbers that increase along it, and a page is what has
a number above the reader's cursor and is kept by a filter, up to a limit. The
number of the last item of a page is the cursor of the next. While the list
stays as it is, following the cursors to the last page reads everything above
the first cursor once.
-/

namespace RelayLifeline.Lib

variable {α : Type*} {id : α → Nat} {keep : α → Bool}

structure Page (α : Type*) where
  items : List α := []
  nextAfter : Nat
  hasMore : Bool := false

/-- What a reader with the cursor has still to read. -/
def above (id : α → Nat) (keep : α → Bool) (after : Nat) (l : List α) : List α :=
  l.filter fun a => after < id a && keep a

/-- The page that is filled from the list. It says that there is more where it
is full and one more item would follow. -/
def Page.fill (id : α → Nat) (keep : α → Bool) (after limit : Nat) : List α → Page α → Page α
  | [], page => page
  | a :: rest, page =>
      if id a ≤ after || !keep a then fill id keep after limit rest page
      else if page.items.length = limit then { page with hasMore := true }
      else
        fill id keep after limit rest { page with items := page.items ++ [a], nextAfter := id a }

/-- The number of the last item, if there is one. -/
def lastId (id : α → Nat) (after : Nat) (l : List α) : Nat := (l.getLast?.map id).getD after

@[simp] theorem lastId_nil {after : Nat} : lastId id after [] = after := rfl

theorem lastId_cons {after : Nat} {a : α} {l : List α} :
    lastId id after (a :: l) = lastId id (id a) l := by
  cases l with
  | nil => rfl
  | cons b l => rw [lastId, lastId, List.getLast?_cons_cons]; simp [List.getLast?_cons]

theorem above_cons_of_skip {after : Nat} {a : α} {l : List α}
    (h : (id a ≤ after || !keep a) = true) :
    above id keep after (a :: l) = above id keep after l := by
  refine List.filter_cons_of_neg ?_
  rw [Bool.and_eq_true, decide_eq_true_eq]
  rintro ⟨hlt, hkeep⟩
  rw [hkeep, Bool.or_eq_true, decide_eq_true_eq] at h
  obtain h | h := h
  · omega
  · cases h

theorem above_cons_of_take {after : Nat} {a : α} {l : List α}
    (h : ¬(id a ≤ after || !keep a) = true) :
    above id keep after (a :: l) = a :: above id keep after l := by
  refine List.filter_cons_of_pos ?_
  rw [Bool.or_eq_true, decide_eq_true_eq, not_or] at h
  rw [Bool.and_eq_true, decide_eq_true_eq]
  exact ⟨Nat.not_le.1 h.1, by simpa using h.2⟩

/-- A page that has room for more takes what is above the cursor, as far as the
room goes. -/
theorem Page.fill_eq {after limit : Nat} (l : List α) {page : Page α}
    (hroom : page.items.length ≤ limit) :
    page.fill id keep after limit l =
      { items := page.items ++ (above id keep after l).take (limit - page.items.length)
        nextAfter := lastId id page.nextAfter
          ((above id keep after l).take (limit - page.items.length))
        hasMore := page.hasMore ||
          decide (limit - page.items.length < (above id keep after l).length) } := by
  induction l generalizing page with
  | nil => simp [fill, above]
  | cons a rest ih =>
      rw [fill]
      split
      · next hskip => rw [ih hroom, above_cons_of_skip hskip]
      · next htake =>
          rw [above_cons_of_take htake]
          split
          · next hfull => simp [hfull]
          · next hroom' =>
              obtain ⟨n, hn⟩ : ∃ n, limit - page.items.length = n + 1 :=
                ⟨limit - page.items.length - 1, by omega⟩
              have hleft : limit - (page.items ++ [a]).length = n := by
                rw [List.length_append, List.length_singleton]
                omega
              rw [ih (by rw [List.length_append, List.length_singleton]; omega), hn, hleft,
                List.take_succ_cons, lastId_cons, List.append_assoc, List.length_cons]
              simp

/-- The page a reader gets for a cursor. -/
def page (id : α → Nat) (keep : α → Bool) (limit : Nat) (l : List α) (after : Nat) : Page α :=
  Page.fill id keep after limit l { nextAfter := after }

theorem page_eq (limit : Nat) (l : List α) (after : Nat) :
    page id keep limit l after =
      { items := (above id keep after l).take limit
        nextAfter := lastId id after ((above id keep after l).take limit)
        hasMore := decide (limit < (above id keep after l).length) } := by
  rw [page, Page.fill_eq l (Nat.zero_le limit)]
  simp

/-- The items that are read from a cursor on, up to the page that has no more
after it. -/
inductive Follows (query : Nat → Page α) : Nat → List α → Prop where
  | last {after} : (query after).hasMore = false → Follows query after (query after).items
  | more {after rest} : (query after).hasMore = true → Follows query (query after).nextAfter rest →
      Follows query after ((query after).items ++ rest)

theorem lastId_concat {after : Nat} {l : List α} {a : α} :
    lastId id after (l ++ [a]) = id a := by
  rw [lastId, List.getLast?_concat]
  rfl

/-- A later cursor leaves some of what an earlier one does. -/
theorem above_filter {after after' : Nat} (h : after ≤ after') (l : List α) :
    above id keep after' l = (above id keep after l).filter fun a => after' < id a := by
  rw [above, above, List.filter_filter]
  refine List.filter_congr fun a _ => ?_
  by_cases hlt : after' < id a
  · simp [hlt, Nat.lt_of_le_of_lt h hlt]
  · simp [hlt]

/-- After some of the items above a cursor, those that follow them are left. -/
theorem above_lastId {l : List α} (hsorted : l.Pairwise (id · < id ·)) {after : Nat}
    {taken rest : List α} (hsplit : above id keep after l = taken ++ rest) :
    above id keep (lastId id after taken) l = rest := by
  rcases List.eq_nil_or_concat' taken with rfl | ⟨taken, a, rfl⟩
  · exact hsplit
  · have hsorted := hsorted.sublist (List.filter_sublist (p := fun a => after < id a && keep a))
    rw [show l.filter _ = _ from hsplit, List.pairwise_append] at hsorted
    obtain ⟨htaken, -, hacross⟩ := hsorted
    have hfirst : after < id a := by
      have hmem : a ∈ above id keep after l := by
        rw [hsplit]
        simp
      have hkept := (List.mem_filter.1 hmem).2
      rw [Bool.and_eq_true, decide_eq_true_eq] at hkept
      exact hkept.1
    rw [lastId_concat, above_filter (Nat.le_of_lt hfirst), hsplit, List.filter_append,
      List.filter_eq_nil_iff.2, List.nil_append, List.filter_eq_self]
    · intro b hb
      exact decide_eq_true (hacross a (by simp) b hb)
    · intro b hb
      rw [decide_eq_true_eq, Nat.not_lt]
      rcases List.mem_append.1 hb with hb | hb
      · exact Nat.le_of_lt ((List.pairwise_append.1 htaken).2.2 b hb a (List.mem_singleton.2 rfl))
      · exact Nat.le_of_eq (congrArg id (List.mem_singleton.1 hb))

/-- Following the cursors reads everything above the first one once. -/
theorem follows {l : List α} (hsorted : l.Pairwise (id · < id ·)) {limit : Nat} (hlimit : 0 < limit)
    (after : Nat) : Follows (page id keep limit l) after (above id keep after l) := by
  induction hn : (above id keep after l).length using Nat.strongRecOn generalizing after with
  | ind n ih =>
    have hpage : page id keep limit l after = _ := page_eq limit l after
    by_cases hmore : limit < (above id keep after l).length
    · have hsplit := (List.take_append_drop limit (above id keep after l)).symm
      have hrest := above_lastId hsorted hsplit
      have hlen : ((above id keep after l).drop limit).length < n := by
        rw [List.length_drop]
        omega
      have htail := ih _ hlen (lastId id after ((above id keep after l).take limit)) (by rw [hrest])
      rw [hrest] at htail
      have hall : Follows (page id keep limit l) after ((page id keep limit l after).items ++
          (above id keep after l).drop limit) :=
        .more (by rw [hpage]; exact decide_eq_true hmore) (by rw [hpage]; exact htail)
      rw [hpage] at hall
      rwa [List.take_append_drop] at hall
    · have hall : Follows (page id keep limit l) after (page id keep limit l after).items :=
        .last (by rw [hpage]; exact decide_eq_false hmore)
      rw [hpage] at hall
      rwa [List.take_of_length_le (Nat.not_lt.1 hmore)] at hall

/-! ## Numbering

A log that numbers what it is given from one on, and keeps an end of it. -/

/-- The items are numbered from one on. -/
def Numbered (id : α → Nat) (history : List α) : Prop :=
  history.map id = List.range' 1 history.length

variable {history : List α}

theorem numbered_nil : Numbered id ([] : List α) := rfl

theorem Numbered.push (h : Numbered id history) {a : α} (ha : id a = history.length + 1) :
    Numbered id (history ++ [a]) := by
  rw [Numbered] at h ⊢
  rw [List.map_append, h, List.length_append, List.length_singleton, List.range'_concat,
    List.map_singleton, ha, Nat.one_mul, Nat.add_comm 1]

theorem Numbered.id_eq (h : Numbered id history) {i : Nat} {a : α} (ha : history[i]? = some a) :
    id a = i + 1 := by
  have hid := congrArg (·[i]?) h
  have hi := (List.getElem?_eq_some_iff.1 ha).1
  simp only [List.getElem?_map, ha, Option.map_some, List.getElem?_range' hi,
    Option.some.injEq] at hid
  omega

theorem Numbered.sorted (h : Numbered id history) : history.Pairwise (id · < id ·) := by
  have hpairs : (List.range' 1 history.length).Pairwise (· < ·) := List.pairwise_lt_range' 1
  rw [← show history.map id = _ from h, List.pairwise_map] at hpairs
  exact hpairs

/-- The numbers of the first `n` items are those up to `n`. -/
theorem Numbered.exists_take_iff (h : Numbered id history) {n : Nat} (hn : n ≤ history.length)
    (after : Nat) : (∃ a ∈ history.take n, after < id a) ↔ after < n := by
  constructor
  · rintro ⟨a, ha, hlt⟩
    obtain ⟨i, hi, rfl⟩ := List.mem_take_iff_getElem.1 ha
    rw [h.id_eq (List.getElem?_eq_getElem _)] at hlt
    omega
  · intro hlt
    have hin : n - 1 < history.length := by omega
    refine ⟨history[n - 1], List.mem_take_iff_getElem.2 ⟨n - 1, by omega, rfl⟩, ?_⟩
    rw [h.id_eq (List.getElem?_eq_getElem hin)]
    omega

/-- The first item after `n` others has the number after theirs. -/
theorem Numbered.id_of_drop (h : Numbered id history) {n : Nat} {a : α} {rest : List α}
    (ha : history.drop n = a :: rest) : id a = n + 1 := by
  have hget : (history.drop n)[0]? = some a := by rw [ha, List.getElem?_cons_zero]
  rw [List.getElem?_drop, Nat.add_zero] at hget
  exact h.id_eq hget

/-- What is not in an end of the log is before it. -/
theorem Numbered.mem_take_iff (h : Numbered id history) {n : Nat} {a : α} :
    a ∈ history.take n ↔ a ∈ history ∧ a ∉ history.drop n := by
  have hsorted := h.sorted
  rw [← List.take_append_drop n history, List.pairwise_append] at hsorted
  constructor
  · intro ha
    exact ⟨List.mem_of_mem_take ha, fun hdrop => Nat.lt_irrefl _ (hsorted.2.2 a ha a hdrop)⟩
  · rintro ⟨ha, hnot⟩
    rw [← List.take_append_drop n history] at ha
    exact (List.mem_append.1 ha).resolve_right hnot

end RelayLifeline.Lib
