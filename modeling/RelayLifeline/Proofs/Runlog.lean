import RelayLifeline.Clock
import RelayLifeline.Runlog.Store

/-!
# What a client of the live log is told

The entries are numbered from one on, and what the store drops are the first
ones it has, so it always has an end of everything it was given. A page is read
off that end without loss. Where something is left, the oldest entry tells how
far the loss goes; where everything has been dropped, the store knows it by the
last number it gave, but says that there is no gap.
-/

namespace RelayLifeline.Runlog

open Lib

variable {F : Type}

namespace Log

/-- The store has an end of the history, which is numbered. -/
structure Sound (log : Log F) : Prop where
  suffix : log.store.entries <:+ log.history
  nextID_eq : log.store.nextID = log.history.length
  numbered : Numbered Entry.id log.history

theorem sound_new : Sound ({} : Log F) := ⟨List.suffix_refl _, rfl, numbered_nil⟩

theorem prune_suffix (s : Store F) (m : Moment) : (s.prune m).entries <:+ s.entries := by
  rw [Store.prune]
  dsimp only
  split
  · exact (List.drop_suffix _ _).trans (List.dropWhile_suffix _)
  · exact List.dropWhile_suffix _

theorem Sound.prune {log : Log F} (h : log.Sound) (m : Moment) :
    Sound { log with store := log.store.prune m } :=
  ⟨(prune_suffix _ m).trans h.suffix, h.nextID_eq, h.numbered⟩

theorem Sound.step {log : Log F} (h : log.Sound) (input : Input F) : (log.step input).Sound := by
  cases input with
  | add now m entry =>
      have hadded : Sound (⟨⟨log.store.entries ++ [log.store.stored now entry],
          log.store.nextID + 1⟩, log.history ++ [log.store.stored now entry]⟩ : Log F) := by
        refine ⟨?_, ?_, h.numbered.push ?_⟩
        · obtain ⟨dropped, hdropped⟩ := h.suffix
          exact ⟨dropped, by rw [← List.append_assoc, hdropped]⟩
        · show log.store.nextID + 1 = _
          rw [h.nextID_eq, List.length_append, List.length_singleton]
        · rw [← h.nextID_eq]
          rfl
      exact hadded.prune m
  | prune m => exact h.prune m

theorem sound_run (inputs : List (Input F)) : (run inputs).Sound :=
  foldl_invariant (fun _ input h => h.step input) sound_new inputs

/-! ## What the claim asks of a query -/

/-- The entries that the store has left when it answers. -/
def retained (log : Log F) (m : Moment) : List (Entry F) := (log.store.prune m).entries

/-- The entries that a client with the cursor is still to be shown. -/
def unseen (toLower : String → String) (log : Log F) (m : Moment) (after : Nat) (filter : Filter) :
    List (Entry F) :=
  (log.retained m).filter fun entry => after < entry.id && filter.keeps toLower entry

end Log

/-- What the reader goes by. -/
def LogPage.toPage (page : LogPage F) : Page (Entry F) :=
  ⟨page.entries, page.nextAfter, page.hasMore⟩

namespace Log

/-- A query lists what is left, as far as a page goes, and the pages that follow
it the rest, as long as nothing is pruned. -/
structure Lists (toLower : String → String) (log : Log F) (m : Moment) (after : Nat) (limit : Int)
    (filter : Filter) : Prop where
  sorted : (log.retained m).Pairwise (·.id < ·.id)
  entries : (log.store.queryPage toLower m after limit filter).2.entries =
    (log.unseen toLower m after filter).take (Store.pageLimit limit)
  hasMore : (log.store.queryPage toLower m after limit filter).2.hasMore =
    decide (Store.pageLimit limit < (log.unseen toLower m after filter).length)
  follows : ∀ later : Nat → Moment,
    (∀ cursor, (log.store.prune m).prune (later cursor) = log.store.prune m) →
      Follows (fun cursor =>
          ((log.store.prune m).queryPage toLower (later cursor) cursor limit filter).2.toPage) after
        (log.unseen toLower m after filter)

/-- The query tells of a gap exactly where an entry above the cursor has been
pruned. -/
def TellsGap (toLower : String → String) (log : Log F) (m : Moment) (after : Nat) (limit : Int)
    (filter : Filter) : Prop :=
  (log.store.queryPage toLower m after limit filter).2.hasGap = true ↔
    ∃ entry ∈ log.history, entry ∉ log.retained m ∧ after < entry.id

variable {log : Log F} {m : Moment} {toLower : String → String}

theorem pageLimit_pos (limit : Int) : 0 < Store.pageLimit limit := by
  unfold Store.pageLimit
  split <;> omega

theorem toPage_pageOf (toLower : String → String) (s : Store F) (after : Nat) (limit : Int)
    (filter : Filter) :
    (s.pageOf toLower after limit filter).toPage =
      page Entry.id (filter.keeps toLower) (Store.pageLimit limit) s.entries after := by
  rw [Store.pageOf]
  split
  · next hnil =>
      rw [hnil]
      rfl
  · rfl

theorem Sound.lists (h : log.Sound) (after : Nat) (limit : Int) (filter : Filter) :
    log.Lists toLower m after limit filter := by
  have hsorted : (log.retained m).Pairwise (·.id < ·.id) :=
    h.numbered.sorted.sublist (h.prune m).suffix.sublist
  have hpage : (log.store.queryPage toLower m after limit filter).2.toPage = _ :=
    (toPage_pageOf toLower (log.store.prune m) after limit filter).trans
      (page_eq _ _ after)
  refine ⟨hsorted, congrArg Page.items hpage, congrArg Page.hasMore hpage, fun later hquiet => ?_⟩
  have hfollows : Follows (page Entry.id (filter.keeps toLower) (Store.pageLimit limit)
      (log.retained m)) after (log.unseen toLower m after filter) :=
    follows hsorted (pageLimit_pos limit) after
  have hquery : (fun cursor =>
      ((log.store.prune m).queryPage toLower (later cursor) cursor limit filter).2.toPage) =
        page Entry.id (filter.keeps toLower) (Store.pageLimit limit) (log.retained m) := by
    funext cursor
    rw [Store.queryPage]
    dsimp only
    rw [hquiet cursor]
    exact toPage_pageOf toLower _ cursor limit filter
  rw [hquery]
  exact hfollows

/-- What is no longer there is what came before the oldest entry that is. -/
theorem Sound.exists_pruned_iff (h : log.Sound) (after : Nat) :
    (∃ entry ∈ log.history, entry ∉ log.retained m ∧ after < entry.id) ↔
      after < log.history.length - (log.retained m).length := by
  have hdrop : log.history.drop (log.history.length - (log.retained m).length) = log.retained m :=
    (List.suffix_iff_eq_drop.1 (h.prune m).suffix).symm
  rw [← h.numbered.exists_take_iff (Nat.sub_le _ _) after]
  constructor
  · rintro ⟨entry, hentry, hpruned, hlt⟩
    exact ⟨entry, h.numbered.mem_take_iff.2 ⟨hentry, by rwa [hdrop]⟩, hlt⟩
  · rintro ⟨entry, hentry, hlt⟩
    obtain ⟨hin, hpruned⟩ := h.numbered.mem_take_iff.1 hentry
    exact ⟨entry, hin, by rwa [hdrop] at hpruned, hlt⟩

theorem Sound.hasGap_of_some (h : log.Sound) (hsome : log.retained m ≠ []) (after : Nat)
    (limit : Int) (filter : Filter) :
    (log.store.queryPage toLower m after limit filter).2.hasGap = true ↔
      after < log.history.length - (log.retained m).length := by
  have hdrop : log.history.drop (log.history.length - (log.retained m).length) = log.retained m :=
    (List.suffix_iff_eq_drop.1 (h.prune m).suffix).symm
  show (Store.pageOf toLower (log.store.prune m) after limit filter).hasGap = true ↔ _
  rw [Store.pageOf]
  split
  · next hnil => exact absurd hnil hsome
  · next oldest rest hcons =>
      rw [show log.retained m = oldest :: rest from hcons] at hdrop ⊢
      rw [decide_eq_true_eq, h.numbered.id_of_drop hdrop, Nat.add_sub_cancel]

/-- In every run, a query lists what it should; and it tells of a gap exactly as
it should where some entry is left, or the client has seen everything there
ever was. -/
theorem query_exact_iff (toLower : String → String) (inputs : List (Input F)) (m : Moment)
    (after : Nat) (limit : Int) (filter : Filter) :
    ((run inputs).Lists toLower m after limit filter ∧
        (run inputs).TellsGap toLower m after limit filter) ↔
      ((run inputs).store.prune m).entries ≠ [] ∨ (run inputs).store.nextID ≤ after := by
  have h := sound_run inputs
  rw [and_iff_right (h.lists after limit filter), TellsGap, h.exists_pruned_iff, h.nextID_eq]
  by_cases hsome : (run inputs).retained m = []
  · -- the store answers that there is no gap
    have hgap : ((run inputs).store.queryPage toLower m after limit filter).2.hasGap = false := by
      show (Store.pageOf toLower ((run inputs).store.prune m) after limit filter).hasGap = false
      rw [Store.pageOf, show ((run inputs).store.prune m).entries = [] from hsome]
    have hleft : ¬((run inputs).store.prune m).entries ≠ [] := not_not.2 hsome
    rw [hgap, hsome, List.length_nil, Nat.sub_zero, or_iff_right hleft]
    constructor
    · intro hiff
      exact Nat.not_lt.1 fun hlt => Bool.false_ne_true (hiff.2 hlt)
    · intro hle
      exact iff_of_false Bool.false_ne_true (Nat.not_lt.2 hle)
  · exact iff_of_true (h.hasGap_of_some hsome after limit filter) (.inl hsome)

/-- An hour's retention, half an hour and two hours after the first entry. -/
def oneEntry : List (Input Unit) := [.add hour ⟨⟨100, hour⟩, hour⟩ { message := "started" }]

def soon : Moment := ⟨⟨100, hour⟩, hour + 30 * minute⟩

def late : Moment := ⟨⟨100, hour⟩, 3 * hour⟩

theorem query_exact_soon :
    ((run oneEntry).Lists id soon 0 10 {} ∧ (run oneEntry).TellsGap id soon 0 10 {}) :=
  (query_exact_iff id oneEntry soon 0 10 {}).2 (.inl (by decide))

/-- Everything has been pruned, and the client is told that nothing is missing. -/
theorem not_told_pruned :
    ((run oneEntry).store.queryPage id late 0 10 {}).2 =
        { nextAfter := 0, oldestAfter := 1, hasMore := false, hasGap := false } ∧
      ¬(run oneEntry).TellsGap id late 0 10 {} := by
  refine ⟨by decide, fun h => ?_⟩
  have hgap := h.2
    ⟨{ id := 1, time := hour, message := "started" }, by decide, by decide, by decide⟩
  exact absurd hgap (by decide)

end Log

end RelayLifeline.Runlog
