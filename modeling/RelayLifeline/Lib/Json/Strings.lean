import Mathlib.Data.Bool.AllAny
import RelayLifeline.Lib.Json.Token
import RelayLifeline.Lib.Json.Write

/-!
# Strings of code points

A string of bytes that is UTF-8 is a list of code points. In a JSON text each is
spelled in one of a few ways, and unquoting reads it in one step, so a string
that is UTF-8 comes back as it was written. Whatever is unquoted is UTF-8.
-/

namespace RelayLifeline.Lib.Json

/-! ## How long a code point is -/

theorem isTail_iff {c : UInt8} : isTail c = true ↔ 0x80 ≤ c.toNat ∧ c.toNat ≤ 0xbf := by
  rw [isTail, Bool.and_eq_true, decide_eq_true_eq, decide_eq_true_eq, UInt8.le_iff_toNat_le,
    UInt8.le_iff_toNat_le]
  rfl

theorem isTail_ofNat {n : Nat} (hlow : 0x80 ≤ n) (hhigh : n ≤ 0xbf) :
    isTail (UInt8.ofNat n) = true := by
  rw [isTail_iff, UInt8.toNat_ofNat']
  omega

theorem runeSize_one {c : UInt8} (h : c.toNat < 0x80) (rest : Text) : runeSize (c :: rest) = 1 := by
  rw [runeSize.eq_def]
  exact if_pos (UInt8.lt_iff_toNat_lt.2 h)

variable {c d e f : UInt8}

/-- The first byte is that of a longer code point. -/
theorem not_lt_80 (h : 0x80 ≤ c.toNat) : ¬ c < 0x80 :=
  fun hlt => absurd (UInt8.lt_iff_toNat_lt.1 hlt) (Nat.not_lt.2 h)

theorem runeSize_two (hc : 0xc2 ≤ c.toNat ∧ c.toNat ≤ 0xdf) (hd : isTail d = true) (rest : Text) :
    runeSize (c :: d :: rest) = 2 := by
  have htwo : (decide (0xc2 ≤ c) && decide (c ≤ 0xdf) && isTail d) = true := by
    rw [hd, Bool.and_true, Bool.and_eq_true, decide_eq_true_eq, decide_eq_true_eq,
      UInt8.le_iff_toNat_le, UInt8.le_iff_toNat_le]
    exact hc
  rw [runeSize.eq_def]
  show (if c < 0x80 then 1
    else if (decide (0xc2 ≤ c) && decide (c ≤ 0xdf) && isTail d) = true then 2 else _) = 2
  rw [if_neg (not_lt_80 (by omega)), if_pos htwo]

/-- The first byte is of a code point of more than two. -/
theorem not_two (h : 0xe0 ≤ c.toNat) :
    ¬ (decide (0xc2 ≤ c) && decide (c ≤ 0xdf) && isTail d) = true := by
  simp only [Bool.and_eq_true, decide_eq_true_eq]
  rintro ⟨⟨-, hle⟩, -⟩
  have hle : c.toNat ≤ 0xdf := hle
  omega

/-- The test for a code point of three bytes. -/
def three (c d e : UInt8) : Bool :=
  0xe0 ≤ c && c ≤ 0xef && isTail d && isTail e && !(c = 0xe0 && d < 0xa0) && !(c = 0xed && 0x9f < d)

/-- And of four. -/
def four (c d e f : UInt8) : Bool :=
  0xf0 ≤ c && c ≤ 0xf4 && isTail d && isTail e && isTail f && !(c = 0xf0 && d < 0x90) &&
    !(c = 0xf4 && 0x8f < d)

theorem runeSize_three (hc : 0xe0 ≤ c.toNat ∧ c.toNat ≤ 0xef) (hd : isTail d = true)
    (he : isTail e = true) (hlow : c.toNat = 0xe0 → 0xa0 ≤ d.toNat)
    (hsurrogate : c.toNat = 0xed → d.toNat ≤ 0x9f) (rest : Text) :
    runeSize (c :: d :: e :: rest) = 3 := by
  have hthree : three c d e = true := by
    simp only [three, hd, he, Bool.and_true, Bool.and_eq_true, Bool.not_eq_true',
      Bool.and_eq_false_imp, decide_eq_true_eq, decide_eq_false_iff_not, UInt8.le_iff_toNat_le,
      UInt8.lt_iff_toNat_lt, ← UInt8.toNat_inj, Nat.not_lt]
    exact ⟨⟨hc, hlow⟩, hsurrogate⟩
  rw [runeSize.eq_def]
  show (if c < 0x80 then 1
    else if (decide (0xc2 ≤ c) && decide (c ≤ 0xdf) && isTail d) = true then 2
    else if three c d e = true then 3 else _) = 3
  rw [if_neg (not_lt_80 (by omega)), if_neg (not_two hc.1), if_pos hthree]

theorem runeSize_four (hc : 0xf0 ≤ c.toNat ∧ c.toNat ≤ 0xf4) (hd : isTail d = true)
    (he : isTail e = true) (hf : isTail f = true) (hlow : c.toNat = 0xf0 → 0x90 ≤ d.toNat)
    (hhigh : c.toNat = 0xf4 → d.toNat ≤ 0x8f) (rest : Text) :
    runeSize (c :: d :: e :: f :: rest) = 4 := by
  have hthree : ¬ three c d e = true := by
    simp only [three, Bool.and_eq_true, decide_eq_true_eq]
    rintro ⟨⟨⟨⟨⟨-, hle⟩, -⟩, -⟩, -⟩, -⟩
    have hle : c.toNat ≤ 0xef := hle
    omega
  have hfour : four c d e f = true := by
    simp only [four, hd, he, hf, Bool.and_true, Bool.and_eq_true, Bool.not_eq_true',
      Bool.and_eq_false_imp, decide_eq_true_eq, decide_eq_false_iff_not, UInt8.le_iff_toNat_le,
      UInt8.lt_iff_toNat_lt, ← UInt8.toNat_inj, Nat.not_lt]
    exact ⟨⟨hc, hlow⟩, hhigh⟩
  rw [runeSize.eq_def]
  show (if c < 0x80 then 1
    else if (decide (0xc2 ≤ c) && decide (c ≤ 0xdf) && isTail d) = true then 2
    else if three c d e = true then 3 else if four c d e f = true then 4 else 0) = 4
  rw [if_neg (not_lt_80 (by omega)), if_neg (not_two (by omega)), if_neg hthree, if_pos hfour]

/-! ## Code points -/

/-- The bytes of one code point. -/
def IsRune (r : Text) : Prop := r ≠ [] ∧ ∀ rest, runeSize (r ++ rest) = r.length

theorem isRune_ascii {c : UInt8} (h : c < 0x80) : IsRune [c] :=
  ⟨List.cons_ne_nil _ _, fun rest => runeSize_one (UInt8.lt_iff_toNat_lt.1 h) rest⟩

theorem not_lt_of_isTail (h : isTail c = true) : ¬ c < 0x80 := not_lt_80 (isTail_iff.1 h).1

/-- The code point at the head of a text. One that is not ASCII has no byte of
ASCII in it. -/
theorem exists_rune {s : Text} (h : runeSize s ≠ 0) :
    ∃ r t, s = r ++ t ∧ IsRune r ∧ ((∃ c, c < 0x80 ∧ r = [c]) ∨ ∀ b ∈ r, ¬ b < 0x80) := by
  rw [runeSize.eq_def] at h
  match s with
  | [] => exact absurd rfl h
  | c :: t =>
    dsimp only at h
    split at h
    next hc => exact ⟨[c], t, rfl, isRune_ascii hc, .inl ⟨c, hc, rfl⟩⟩
    next hc =>
      match t with
      | [] => exact absurd rfl h
      | d :: t =>
        dsimp only at h
        split at h
        next htwo =>
          have hd := (Bool.and_eq_true _ _ ▸ htwo).2
          refine ⟨[c, d], t, rfl, ⟨List.cons_ne_nil _ _, fun rest => ?_⟩, .inr ?_⟩
          · rw [runeSize.eq_def]
            exact (if_neg hc).trans (if_pos htwo)
          · exact List.forall_mem_cons.2 ⟨hc, List.forall_mem_singleton.2 (not_lt_of_isTail hd)⟩
        next htwo =>
          match t with
          | [] => exact absurd rfl h
          | e :: t =>
            dsimp only at h
            split at h
            next hthree =>
              refine ⟨[c, d, e], t, rfl, ⟨List.cons_ne_nil _ _, fun rest => ?_⟩, .inr ?_⟩
              · rw [runeSize.eq_def]
                exact (if_neg hc).trans ((if_neg htwo).trans (if_pos hthree))
              · simp only [Bool.and_eq_true] at hthree
                exact List.forall_mem_cons.2 ⟨hc, List.forall_mem_cons.2
                  ⟨not_lt_of_isTail hthree.1.1.1.2, List.forall_mem_singleton.2
                    (not_lt_of_isTail hthree.1.1.2)⟩⟩
            next hthree =>
              match t with
              | [] => exact absurd rfl h
              | f :: t =>
                dsimp only at h
                split at h
                next hfour =>
                  refine ⟨[c, d, e, f], t, rfl, ⟨List.cons_ne_nil _ _, fun rest => ?_⟩, .inr ?_⟩
                  · rw [runeSize.eq_def]
                    exact (if_neg hc).trans
                      ((if_neg htwo).trans ((if_neg hthree).trans (if_pos hfour)))
                  · simp only [Bool.and_eq_true] at hfour
                    exact List.forall_mem_cons.2 ⟨hc, List.forall_mem_cons.2
                      ⟨not_lt_of_isTail hfour.1.1.1.1.2, List.forall_mem_cons.2
                        ⟨not_lt_of_isTail hfour.1.1.1.2, List.forall_mem_singleton.2
                          (not_lt_of_isTail hfour.1.1.2)⟩⟩⟩
                next => exact absurd rfl h

theorem IsRune.cases {r : Text} (h : IsRune r) :
    (∃ c, c < 0x80 ∧ r = [c]) ∨ ∀ b ∈ r, ¬ b < 0x80 := by
  have hsize := h.2 []
  rw [List.append_nil] at hsize
  have hpos := List.length_pos_of_ne_nil h.1
  obtain ⟨r', t, rfl, hr', hcases⟩ := exists_rune (s := r) (by omega)
  have hsame := hr'.2 t
  rw [List.length_append] at hsize
  obtain rfl := List.length_eq_zero_iff.1 (show t.length = 0 by omega)
  rwa [List.append_nil]

/-- A string of code points. -/
inductive IsUTF8 : Text → Prop
  | nil : IsUTF8 []
  | rune {r s : Text} (hr : IsRune r) (hs : IsUTF8 s) : IsUTF8 (r ++ s)

theorem isUTF8_ascii {s : Text} (h : ∀ b ∈ s, b < 0x80) : IsUTF8 s := by
  induction s with
  | nil => exact .nil
  | cons b s ih =>
      exact .rune (isRune_ascii (h b List.mem_cons_self))
        (ih fun d hd => h d (List.mem_cons_of_mem _ hd))

theorem isUTF8_of_all {s : Text} (h : s.all fun b => b < 0x80) : IsUTF8 s :=
  isUTF8_ascii (List.all_iff_forall_prop.1 h)

/-! ## One step of unquoting -/

/-- What may stand in a string for a code point. -/
inductive Spelled (r : Text) : Text → Prop
  | plain (hr : IsRune r) (h : ∀ b ∈ r, ¬ b < 0x20 ∧ b ≠ quoteMark ∧ b ≠ backslash) : Spelled r r
  | short {e : UInt8} (he : isEscape e = true) (hr : [unescape e] = r) : Spelled r [backslash, e]
  | unicode {i j k l : UInt8}
      (hhex : (isHexDigit i && isHexDigit j && isHexDigit k && isHexDigit l) = true)
      (hplane : (isHighSurrogate (hexRune i j k l) || isLowSurrogate (hexRune i j k l)) = false)
      (hr : encodeRune (hexRune i j k l) = r) : Spelled r [backslash, 0x75, i, j, k, l]

variable {r s : Text}

theorem Spelled.isString (h : Spelled r s) {rest : Text} (hrest : IsString rest) :
    IsString (s ++ rest) := by
  cases h with
  | plain _ h => exact isString_append h hrest
  | short he _ => exact .escape he hrest
  | unicode hhex _ _ => exact .unicode hhex hrest

theorem Spelled.length_pos (h : Spelled r s) : 0 < s.length := by
  cases h with
  | plain hr _ => exact List.length_pos_of_ne_nil hr.1
  | short _ _ => exact Nat.succ_pos _
  | unicode _ _ _ => exact Nat.succ_pos _

/-- What is spelled for a code point is read as it, in one step. -/
theorem Spelled.unquoteFrom (h : Spelled r s) (n : Nat) (rest : Text) :
    unquoteFrom (n + 1) (s ++ rest) = r ++ unquoteFrom n rest := by
  cases h with
  | plain hr h =>
      obtain ⟨hne, hsize⟩ := hr
      have hsize := hsize rest
      obtain ⟨b, bytes, rfl⟩ := List.exists_cons_of_ne_nil hne
      have hb := (h b List.mem_cons_self).2.2
      rw [List.cons_append] at hsize ⊢
      rw [Json.unquoteFrom.eq_def]
      show (if b = backslash then _ else if runeSize (b :: (bytes ++ rest)) = 0 then _ else
        (b :: (bytes ++ rest)).take (runeSize (b :: (bytes ++ rest))) ++
          Json.unquoteFrom n ((b :: (bytes ++ rest)).drop (runeSize (b :: (bytes ++ rest))))) = _
      rw [if_neg hb, hsize, List.length_cons, if_neg (Nat.succ_ne_zero _), ← List.length_cons,
        ← List.cons_append, List.take_left, List.drop_left]
  | @short e he hr =>
      rw [← hr]
      simp only [isEscape, List.mem_cons, List.not_mem_nil, or_false, decide_eq_true_eq] at he
      rcases he with rfl | rfl | rfl | rfl | rfl | rfl | rfl | rfl <;> rfl
  | @unicode i j k l hhex hplane hr =>
      obtain ⟨hhigh, -⟩ := Bool.or_eq_false_iff.1 hplane
      rw [← hr]
      show Json.unquoteFrom (n + 1) (backslash :: 0x75 :: i :: j :: k :: l :: rest) = _
      rw [Json.unquoteFrom.eq_def]
      dsimp only
      rw [if_pos rfl]
      split
      next heq =>
        simp only [List.cons.injEq, true_and] at heq
        obtain ⟨rfl, rfl, rfl, rfl, rfl⟩ := heq
        split
        · rw [hplane, hhigh, Bool.false_and, if_neg Bool.false_ne_true, if_neg Bool.false_ne_true]
        · rw [hplane, if_neg Bool.false_ne_true]
      next hother heq =>
        obtain ⟨rfl, rfl⟩ := List.cons.inj heq
        exact (hother _ _ _ _ _ rfl rfl).elim
      next heq => cases heq

/-! ## What is written for a string -/

/-- What is written for each of the bytes of ASCII. -/
theorem encodeByte_cases : ∀ n < 128, let c := UInt8.ofNat n
    (encodeByte c = [c] ∧ ¬ c < 0x20 ∧ c ≠ quoteMark ∧ c ≠ backslash) ∨
      (encodeByte c = [backslash, (encodeByte c).getD 1 0] ∧
        isEscape ((encodeByte c).getD 1 0) = true ∧ unescape ((encodeByte c).getD 1 0) = c) ∨
      (encodeByte c = [backslash, 0x75, 0x30, 0x30, hexDigit (c / 16), hexDigit (c % 16)] ∧
        (isHexDigit 0x30 && isHexDigit 0x30 && isHexDigit (hexDigit (c / 16)) &&
          isHexDigit (hexDigit (c % 16))) = true ∧
        hexRune 0x30 0x30 (hexDigit (c / 16)) (hexDigit (c % 16)) = n ∧ encodeRune n = [c]) := by
  decide +kernel

theorem spelled_encodeByte {c : UInt8} (hc : c < 0x80) : Spelled [c] (encodeByte c) := by
  have hn : c.toNat < 128 := UInt8.lt_iff_toNat_lt.1 hc
  have hcases := encodeByte_cases c.toNat hn
  rw [UInt8.ofNat_toNat] at hcases
  rcases hcases with ⟨heq, h⟩ | ⟨heq, he, hr⟩ | ⟨heq, hhex, hrune, hr⟩
  · rw [heq]
    exact .plain (isRune_ascii hc) (List.forall_mem_singleton.2 h)
  · rw [heq]
    exact .short he (by rw [hr])
  · rw [heq]
    refine .unicode hhex ?_ (by rw [hrune, hr])
    rw [hrune, isHighSurrogate, isLowSurrogate, Bool.or_eq_false_iff, Bool.and_eq_false_imp,
      Bool.and_eq_false_imp, decide_eq_true_eq, decide_eq_true_eq]
    exact ⟨fun hhigh => by omega, fun hlow => by omega⟩

/-- A code point that begins like a line separator is one. -/
theorem eq_separator {r s : Text} (hr : IsRune r) {d : UInt8} (hd : d = 0xa8 ∨ d = 0xa9)
    (h : (r ++ s).take 3 = [0xe2, 0x80, d]) : r = [0xe2, 0x80, d] ∧ (r ++ s).drop 3 = s := by
  have hsplit := List.take_append_drop 3 (r ++ s)
  have hsize := hr.2 s
  rw [← hsplit, h] at hsize
  have hlength : r.length = 3 := by
    rw [← hsize]
    rcases hd with rfl | rfl <;> rfl
  exact ⟨(List.take_left' hlength).symm.trans h, List.drop_left' hlength⟩

/-- One code point is spelled, and the rest follows. -/
theorem encodeFrom_rune {r : Text} (hr : IsRune r) (n : Nat) (s : Text) :
    ∃ w, Spelled r w ∧ encodeFrom (n + 1) (r ++ s) = w ++ encodeFrom n s := by
  rcases hr.cases with ⟨c, hc, rfl⟩ | hhigh
  · refine ⟨encodeByte c, spelled_encodeByte hc, ?_⟩
    rw [List.singleton_append, encodeFrom]
    exact if_pos hc
  · obtain ⟨c, t, rfl⟩ := List.exists_cons_of_ne_nil hr.1
    have hsize := hr.2 s
    have hplain : ∀ b ∈ c :: t, ¬ b < 0x20 ∧ b ≠ quoteMark ∧ b ≠ backslash := by
      intro b hb
      have hb := hhigh b hb
      refine ⟨fun hlt => hb (UInt8.lt_trans hlt (by decide)), ?_, ?_⟩
      · rintro rfl
        exact hb (by decide)
      · rintro rfl
        exact hb (by decide)
    rw [List.cons_append] at hsize ⊢
    have hne : (c :: t).length ≠ 0 := Nat.succ_ne_zero _
    rw [encodeFrom, if_neg (hhigh c List.mem_cons_self), hsize, if_neg hne]
    split
    next h =>
      obtain ⟨hr', hdrop⟩ := eq_separator hr (.inl rfl) h
      rw [← List.cons_append, hdrop, hr']
      exact ⟨_, .unicode (by decide) (by decide) (by decide), rfl⟩
    next =>
      split
      next h =>
        obtain ⟨hr', hdrop⟩ := eq_separator hr (.inr rfl) h
        rw [← List.cons_append, hdrop, hr']
        exact ⟨_, .unicode (by decide) (by decide) (by decide), rfl⟩
      next =>
        rw [← List.cons_append, List.take_left, List.drop_left]
        exact ⟨c :: t, .plain hr hplain, rfl⟩

theorem isString_encodeFrom {s : Text} (h : IsUTF8 s) : ∀ n, s.length ≤ n →
    IsString (encodeFrom n s) := by
  induction h with
  | nil =>
      intro n _
      cases n with
      | zero => exact .nil
      | succ n => exact .nil
  | @rune r s hr _ ih =>
      intro n hn
      have hpos := List.length_pos_of_ne_nil hr.1
      rw [List.length_append] at hn
      obtain ⟨n, rfl⟩ : ∃ m, n = m + 1 := ⟨n - 1, by omega⟩
      obtain ⟨w, hw, heq⟩ := encodeFrom_rune hr n s
      rw [heq]
      exact hw.isString (ih n (by omega))

/-- A string that is UTF-8 comes back. -/
theorem unquote_encodeFrom {s : Text} (h : IsUTF8 s) (n : Nat) (hn : s.length ≤ n) :
    unquote (encodeFrom n s) = s := by
  have hall : ∀ n, s.length ≤ n → ∀ k, (encodeFrom n s).length ≤ k →
      unquoteFrom k (encodeFrom n s) = s := by
    clear hn n
    induction h with
    | nil =>
        intro n _ k _
        cases n with
        | zero =>
            cases k with
            | zero => rfl
            | succ k => rfl
        | succ n =>
            cases k with
            | zero => rfl
            | succ k => rfl
    | @rune r s hr _ ih =>
        intro n hn k hk
        have hpos := List.length_pos_of_ne_nil hr.1
        rw [List.length_append] at hn
        obtain ⟨n, rfl⟩ : ∃ m, n = m + 1 := ⟨n - 1, by omega⟩
        obtain ⟨w, hw, heq⟩ := encodeFrom_rune hr n s
        have hwpos := hw.length_pos
        rw [heq, List.length_append] at hk
        obtain ⟨k, rfl⟩ : ∃ m, k = m + 1 := ⟨k - 1, by omega⟩
        rw [heq, hw.unquoteFrom, ih n (by omega) k (by omega)]
  exact hall n hn _ (Nat.le_refl _)

/-! ## What is unquoted -/

/-- A code point that is none of a pair is written as one. -/
theorem isRune_encodeRune {n : Nat} (h : n < 0xd800 ∨ 0xdfff < n ∧ n < 0x110000) :
    IsRune (encodeRune n) := by
  unfold encodeRune
  split
  · refine ⟨List.cons_ne_nil _ _, fun rest => runeSize_one ?_ rest⟩
    rw [UInt8.toNat_ofNat']
    omega
  · split
    · refine ⟨List.cons_ne_nil _ _, fun rest => runeSize_two ?_
          (isTail_ofNat (by omega) (by omega)) rest⟩
      rw [UInt8.toNat_ofNat']
      omega
    · split
      · refine ⟨List.cons_ne_nil _ _, fun rest => runeSize_three ?_
          (isTail_ofNat (by omega) (by omega)) (isTail_ofNat (by omega) (by omega)) ?_ ?_
          rest⟩
        all_goals simp only [UInt8.toNat_ofNat']
        all_goals omega
      · refine ⟨List.cons_ne_nil _ _, fun rest => runeSize_four ?_
          (isTail_ofNat (by omega) (by omega)) (isTail_ofNat (by omega) (by omega))
          (isTail_ofNat (by omega) (by omega)) ?_ ?_ rest⟩
        all_goals simp only [UInt8.toNat_ofNat']
        all_goals omega

theorem IsString.of_plain {r s : Text} (h : IsString (r ++ s)) (hr : ∀ b ∈ r, b ≠ backslash) :
    IsString s := by
  induction r with
  | nil => exact h
  | cons b r ih =>
      obtain ⟨hb, hr⟩ := List.forall_mem_cons.1 hr
      rw [List.cons_append] at h
      generalize hs : b :: (r ++ s) = t at h
      cases h with
      | nil => cases hs
      | char _ _ _ h =>
          obtain ⟨-, rfl⟩ := List.cons.inj hs
          exact ih h hr
      | escape _ _ => exact absurd (List.cons.inj hs).1 hb
      | unicode _ _ => exact absurd (List.cons.inj hs).1 hb

theorem hexValue_lt {c : UInt8} (h : isHexDigit c = true) : hexValue c < 16 := by
  simp only [isHexDigit, isDigit, Bool.or_eq_true, Bool.and_eq_true, decide_eq_true_eq,
    UInt8.le_iff_toNat_le] at h
  simp only [hexValue, isDigit, Bool.and_eq_true, decide_eq_true_eq, UInt8.le_iff_toNat_le]
  change ((0x30 ≤ c.toNat ∧ c.toNat ≤ 0x39) ∨ 0x61 ≤ c.toNat ∧ c.toNat ≤ 0x66) ∨
    0x41 ≤ c.toNat ∧ c.toNat ≤ 0x46 at h
  change (if 0x30 ≤ c.toNat ∧ c.toNat ≤ 0x39 then _ else if c.toNat ≤ 0x46 then _ else _) < 16
  split
  · omega
  · split
    · omega
    · omega

theorem hexRune_lt {i j k l : UInt8}
    (h : (isHexDigit i && isHexDigit j && isHexDigit k && isHexDigit l) = true) :
    hexRune i j k l < 0x10000 := by
  simp only [Bool.and_eq_true] at h
  have hi := hexValue_lt h.1.1.1
  have hj := hexValue_lt h.1.1.2
  have hk := hexValue_lt h.1.2
  have hl := hexValue_lt h.2
  rw [hexRune]
  omega

theorem isRune_replacement : IsRune replacement :=
  isRune_encodeRune (n := 0xfffd) (by omega)

theorem isRune_unescape {e : UInt8} (h : isEscape e = true) : IsRune [unescape e] := by
  simp only [isEscape, List.mem_cons, List.not_mem_nil, or_false, decide_eq_true_eq] at h
  rcases h with rfl | rfl | rfl | rfl | rfl | rfl | rfl | rfl <;>
    exact isRune_ascii (by decide)

/-- What stands after `\u` alone. -/
theorem isRune_unit {n : Nat} (h : n < 0x10000)
    (hplane : (isHighSurrogate n || isLowSurrogate n) = false) : IsRune (encodeRune n) := by
  simp only [isHighSurrogate, isLowSurrogate, Bool.or_eq_false_iff, Bool.and_eq_false_imp,
    decide_eq_true_eq, decide_eq_false_iff_not] at hplane
  exact isRune_encodeRune (by omega)

/-- And with the half that follows it. -/
theorem isRune_pair {m n : Nat} (h : (isHighSurrogate m && isLowSurrogate n) = true) :
    IsRune (encodeRune (0x10000 + (m - 0xd800) * 0x400 + (n - 0xdc00))) := by
  simp only [isHighSurrogate, isLowSurrogate, Bool.and_eq_true, decide_eq_true_eq] at h
  exact isRune_encodeRune (by omega)

theorem IsString.of_unicode {i j k l : UInt8} {s : Text}
    (h : IsString (backslash :: 0x75 :: i :: j :: k :: l :: s)) :
    (isHexDigit i && isHexDigit j && isHexDigit k && isHexDigit l) = true ∧ IsString s := by
  cases h with
  | char _ _ h _ => exact absurd rfl h
  | escape he _ => exact absurd he (by decide)
  | unicode hhex h => exact ⟨hhex, h⟩

/-- Whatever a string is unquoted to is UTF-8. -/
theorem isUTF8_unquoteFrom (n : Nat) {s : Text} (h : IsString s) : IsUTF8 (unquoteFrom n s) := by
  induction n generalizing s with
  | zero => exact .nil
  | succ n ih =>
      rw [unquoteFrom.eq_def]
      cases h with
      | nil => exact .nil
      | @char c rest hc hquote hbackslash hrest =>
          dsimp only
          rw [if_neg hbackslash]
          split
          next => exact .rune isRune_replacement (ih hrest)
          next hsize =>
            obtain ⟨r, t, heq, hr, hcases⟩ := exists_rune hsize
            have hplain : ∀ b ∈ r, b ≠ backslash := by
              rcases hcases with ⟨d, -, rfl⟩ | hhigh
              · rw [← (List.cons.inj heq).1]
                exact List.forall_mem_singleton.2 hbackslash
              · rintro b hb rfl
                exact hhigh _ hb (by decide)
            have hstring := IsString.char hc hquote hbackslash hrest
            rw [heq] at hstring ⊢
            rw [hr.2 t, List.take_left, List.drop_left]
            exact .rune hr (ih (hstring.of_plain hplain))
      | @escape e rest he hrest =>
          dsimp only
          rw [if_pos rfl]
          split
          next heq =>
            obtain ⟨rfl, -⟩ := List.cons.inj heq
            exact absurd he (by decide)
          next heq =>
            obtain ⟨rfl, rfl⟩ := List.cons.inj heq
            exact .rune (isRune_unescape he) (ih hrest)
          next heq => cases heq
      | @unicode i j k l rest hhex hrest =>
          dsimp only
          rw [if_pos rfl]
          have hone : IsUTF8 (if (isHighSurrogate (hexRune i j k l) ||
              isLowSurrogate (hexRune i j k l)) = true then replacement ++ unquoteFrom n rest
              else encodeRune (hexRune i j k l) ++ unquoteFrom n rest) := by
            split
            next => exact .rune isRune_replacement (ih hrest)
            next hplane =>
              exact .rune (isRune_unit (hexRune_lt hhex) (Bool.eq_false_iff.2 hplane)) (ih hrest)
          split
          next heq =>
            simp only [List.cons.injEq, true_and] at heq
            obtain ⟨rfl, rfl, rfl, rfl, rfl⟩ := heq
            split
            next =>
              split
              next hpair =>
                exact .rune (isRune_pair hpair) (ih (IsString.of_unicode hrest).2)
              next => exact hone
            next => exact hone
          next hother heq =>
            obtain ⟨rfl, rfl⟩ := List.cons.inj heq
            exact (hother _ _ _ _ _ rfl rfl).elim
          next heq => cases heq

theorem isUTF8_unquote {s : Text} (h : IsString s) : IsUTF8 (unquote s) := isUTF8_unquoteFrom _ h

end RelayLifeline.Lib.Json
