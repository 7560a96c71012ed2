import Mathlib.Data.List.Basic
import Mathlib.Data.List.Nodup

/-!
# Boards

A board shows the newest notices, up to a bound. A notice is posted under a key,
and only where no notice under the key is open; it is closed by its key. So no
key ever has two open notices on the board.

What stands under a key is read off the notices, and a notice that falls off the
end leaves its key free. Code that keeps an index of the open notices beside the
list has to agree with a board, which has none and so nothing that could be
stale.
-/

namespace RelayLifeline.Lib

structure Notice (κ α : Type*) where
  key : κ
  item : α
  isClosed : Bool := false

namespace Notice

variable {κ α : Type*} [DecidableEq κ]

/-- The notice, closed where it has the key. -/
def close (n : Notice κ α) (k : κ) : Notice κ α :=
  { n with isClosed := n.isClosed || n.key = k }

@[simp] theorem key_close (n : Notice κ α) (k : κ) : (n.close k).key = n.key := rfl

@[simp] theorem item_close (n : Notice κ α) (k : κ) : (n.close k).item = n.item := rfl

theorem close_of_ne {n : Notice κ α} {k : κ} (h : n.key ≠ k) : n.close k = n := by
  rw [close, decide_eq_false h, Bool.or_false]

theorem close_of_closed {n : Notice κ α} {k : κ} (h : n.isClosed = true) : n.close k = n := by
  rw [close, h, Bool.true_or, ← h]

end Notice

/-- Notices, the newest first, no two of them open under one key. -/
@[ext] structure Board (κ α : Type*) where
  notices : List (Notice κ α) := []
  single : ((notices.filter fun n => !n.isClosed).map Notice.key).Nodup := by simp

namespace Board

variable {κ α : Type*} {b : Board κ α} {n n' : Notice κ α} {k k' : κ} {a : α} {cap : Nat}

theorem eq_of_open (hn : n ∈ b.notices) (hn' : n' ∈ b.notices) (hopen : n.isClosed = false)
    (hopen' : n'.isClosed = false) (hkey : n.key = n'.key) : n = n' :=
  List.inj_on_of_nodup_map b.single (List.mem_filter.2 ⟨hn, by rw [hopen]; rfl⟩)
    (List.mem_filter.2 ⟨hn', by rw [hopen']; rfl⟩) hkey

variable [DecidableEq κ]

/-- The open notice under a key. -/
def standing (b : Board κ α) (k : κ) : Option (Notice κ α) :=
  b.notices.find? fun n => n.key = k && !n.isClosed

theorem standing_eq_none :
    b.standing k = none ↔ ∀ n ∈ b.notices, n.key = k → n.isClosed = true := by
  simp [standing]

theorem standing_eq_some :
    b.standing k = some n ↔ n ∈ b.notices ∧ n.key = k ∧ n.isClosed = false := by
  constructor
  · intro h
    have hprop := List.find?_some h
    rw [Bool.and_eq_true, decide_eq_true_eq, Bool.not_eq_true'] at hprop
    exact ⟨List.mem_of_find?_eq_some h, hprop⟩
  · rintro ⟨hn, rfl, hopen⟩
    cases hstanding : b.standing n.key with
    | none =>
        have hclosed := standing_eq_none.1 hstanding n hn rfl
        rw [hopen] at hclosed
        cases hclosed
    | some m =>
        have hprop := List.find?_some hstanding
        rw [Bool.and_eq_true, decide_eq_true_eq, Bool.not_eq_true'] at hprop
        have hm := List.mem_of_find?_eq_some hstanding
        rw [eq_of_open hm hn hprop.2 hopen hprop.1]

/-! ## Posting -/

/-- A notice under a key that has none open. The board shows `cap` of them. -/
def post (b : Board κ α) (cap : Nat) (k : κ) (a : α) (h : b.standing k = none) : Board κ α where
  notices := (⟨k, a, false⟩ :: b.notices).take cap
  single := by
    have hfresh : k ∉ (b.notices.filter fun n => !n.isClosed).map Notice.key := by
      intro hmem
      obtain ⟨n, hn, rfl⟩ := List.mem_map.1 hmem
      obtain ⟨hn, hopen⟩ := List.mem_filter.1 hn
      rw [standing_eq_none.1 h n hn rfl] at hopen
      cases hopen
    have hall : (((⟨k, a, false⟩ :: b.notices).filter fun n => !n.isClosed).map
        Notice.key).Nodup := List.nodup_cons.2 ⟨hfresh, b.single⟩
    exact hall.sublist (((List.take_sublist _ _).filter _).map _)

theorem notices_post (h : b.standing k = none) :
    (b.post cap k a h).notices = (⟨k, a, false⟩ :: b.notices).take cap := rfl

theorem standing_post_self (h : b.standing k = none) (hcap : 0 < cap) :
    (b.post cap k a h).standing k = some ⟨k, a, false⟩ := by
  refine standing_eq_some.2 ⟨?_, rfl, rfl⟩
  obtain ⟨cap, rfl⟩ := Nat.exists_eq_add_one.2 hcap
  rw [notices_post, List.take_succ_cons]
  exact List.mem_cons_self

/-- Under the other keys stands what is not pushed off the board. -/
theorem standing_post_of_ne (h : b.standing k = none) (hne : k' ≠ k) :
    (b.post cap k a h).standing k' = some n ↔
      b.standing k' = some n ∧ n ∈ b.notices.take (cap - 1) := by
  rw [standing_eq_some, standing_eq_some, notices_post]
  cases cap with
  | zero => exact ⟨fun hn => absurd hn.1 List.not_mem_nil, fun hn => absurd hn.2 List.not_mem_nil⟩
  | succ cap =>
      rw [List.take_succ_cons, List.mem_cons, Nat.add_sub_cancel]
      constructor
      · rintro ⟨rfl | hn, hkey, hopen⟩
        · exact absurd hkey.symm hne
        · exact ⟨⟨List.mem_of_mem_take hn, hkey, hopen⟩, hn⟩
      · rintro ⟨⟨-, hkey, hopen⟩, hn⟩
        exact ⟨.inr hn, hkey, hopen⟩

/-! ## Closing -/

/-- The open notice under a key is closed. -/
def close (b : Board κ α) (k : κ) : Board κ α where
  notices := b.notices.map fun n => n.close k
  single := by
    have hkept : ((b.notices.map fun n => n.close k).filter fun n => !n.isClosed).Sublist
        ((b.notices.filter fun n => !n.isClosed).map fun n => n.close k) := by
      rw [List.filter_map]
      refine List.Sublist.map _ (List.monotone_filter_right _ fun n hn => ?_)
      rw [Function.comp_apply, Notice.close, Bool.not_or, Bool.and_eq_true] at hn
      exact hn.1
    have hkeys : ((b.notices.filter fun n => !n.isClosed).map fun n => n.close k).map Notice.key =
        (b.notices.filter fun n => !n.isClosed).map Notice.key := by
      rw [List.map_map]
      rfl
    exact (hkeys ▸ b.single).sublist (hkept.map _)

theorem notices_close (b : Board κ α) (k : κ) :
    (b.close k).notices = b.notices.map fun n => n.close k := rfl

theorem standing_close_self : (b.close k).standing k = none := by
  refine standing_eq_none.2 fun n hn hkey => ?_
  obtain ⟨m, -, rfl⟩ := List.mem_map.1 hn
  rw [Notice.key_close] at hkey
  rw [Notice.close, decide_eq_true hkey, Bool.or_true]

theorem standing_close_of_ne (hne : k' ≠ k) : (b.close k).standing k' = b.standing k' := by
  ext n
  rw [standing_eq_some, standing_eq_some]
  refine and_congr_left fun hn => ?_
  constructor
  · intro hmem
    obtain ⟨m, hm, rfl⟩ := List.mem_map.1 hmem
    rw [Notice.key_close] at hn
    rwa [Notice.close_of_ne (hn.1 ▸ hne)]
  · intro hmem
    exact List.mem_map.2 ⟨n, hmem, Notice.close_of_ne (hn.1 ▸ hne)⟩

theorem close_eq_self (h : b.standing k = none) : b.close k = b := by
  ext1
  refine (List.map_congr_left fun n hn => ?_).trans (List.map_id _)
  by_cases hkey : n.key = k
  · exact Notice.close_of_closed (standing_eq_none.1 h n hn hkey)
  · exact Notice.close_of_ne hkey

/-! ## What was posted -/

section Shows

variable {posted : List (κ × α)}

/-- The board has the last of what was posted, in the opposite order. -/
def Shows (b : Board κ α) (cap : Nat) (posted : List (κ × α)) : Prop :=
  b.notices.map (fun n => (n.key, n.item)) = posted.reverse.take cap

omit [DecidableEq κ] in
theorem shows_empty : (({} : Board κ α)).Shows cap [] := by
  rw [Shows, List.reverse_nil, List.take_nil]
  rfl

omit [DecidableEq κ] in
theorem Shows.exists_posted (h : b.Shows cap posted) (hn : n ∈ b.notices) :
    (n.key, n.item) ∈ posted := by
  have hmem : (n.key, n.item) ∈ b.notices.map fun n => (n.key, n.item) :=
    List.mem_map_of_mem hn
  rw [h] at hmem
  exact List.mem_reverse.1 (List.mem_of_mem_take hmem)

theorem Shows.post (h : b.Shows cap posted) (hnone : b.standing k = none) :
    (b.post cap k a hnone).Shows cap (posted ++ [(k, a)]) := by
  rw [Shows, List.reverse_append, List.reverse_singleton, List.singleton_append, notices_post]
  cases cap with
  | zero => rfl
  | succ cap =>
      rw [List.take_succ_cons, List.map_cons, List.map_take, h, List.take_take,
        List.take_succ_cons, Nat.min_eq_left (Nat.le_succ cap)]

theorem Shows.close (h : b.Shows cap posted) : (b.close k).Shows cap posted := by
  rw [Shows, ← h, notices_close, List.map_map]
  rfl

end Shows

end Board

end RelayLifeline.Lib
