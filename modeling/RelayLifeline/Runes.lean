import RelayLifeline.Lib.Json.Strings

/-!
# The runes of a string of bytes

A Go string is any bytes. Read as runes, each code point that is spelled in
UTF-8 is one, and each byte that does not belong to such a spelling stands for
U+FFFD. So two strings with the same runes need not be the same, but two that
are UTF-8 are.
-/

namespace RelayLifeline.Bytes

open Lib.Json (Text IsUTF8 IsRune runeSize encodeRune)

/-- The code point that is spelled by these bytes. -/
def codePoint : Text → Nat
  | [c] => c.toNat
  | [c, d] => (c.toNat - 0xc0) * 0x40 + (d.toNat - 0x80)
  | [c, d, e] => ((c.toNat - 0xe0) * 0x40 + (d.toNat - 0x80)) * 0x40 + (e.toNat - 0x80)
  | [c, d, e, f] =>
      (((c.toNat - 0xf0) * 0x40 + (d.toNat - 0x80)) * 0x40 + (e.toNat - 0x80)) * 0x40 +
        (f.toNat - 0x80)
  | _ => 0xfffd

/-- The runes of at most so many spellings and stray bytes. -/
def runesFrom : Nat → Text → List Nat
  | 0, _ => []
  | n + 1, s =>
      match s with
      | [] => []
      | _ :: rest =>
          if runeSize s = 0 then 0xfffd :: runesFrom n rest
          else codePoint (s.take (runeSize s)) :: runesFrom n (s.drop (runeSize s))

/-- `[]rune(s)`. -/
def runes (s : Text) : List Nat := runesFrom s.length s

/-! ## Code points -/

/-- A code point is spelled in one way. -/
theorem encodeRune_codePoint {s : Text} (h : runeSize s ≠ 0) :
    encodeRune (codePoint (s.take (runeSize s))) = s.take (runeSize s) := by
  have hbyte {n : Nat} {b : UInt8} (hn : n = b.toNat) : UInt8.ofNat n = b := by
    rw [hn, UInt8.ofNat_toNat]
  cases s with
  | nil => exact absurd rfl h
  | cons c t =>
    rw [RelayLifeline.Lib.Json.runeSize.eq_def] at h ⊢
    dsimp only at h ⊢
    split
    next hc =>
      have hc : c.toNat < 0x80 := UInt8.lt_iff_toNat_lt.1 hc
      show encodeRune c.toNat = [c]
      rw [encodeRune, if_pos hc, hbyte rfl]
    next hc =>
      rw [if_neg hc] at h
      cases t with
      | nil => exact absurd rfl h
      | cons d t =>
        dsimp only at h ⊢
        split
        next htwo =>
          simp only [Bool.and_eq_true, decide_eq_true_eq, Lib.Json.isTail_iff,
            UInt8.le_iff_toNat_le, UInt8.reduceToNat] at htwo
          show encodeRune ((c.toNat - 0xc0) * 0x40 + (d.toNat - 0x80)) = [c, d]
          rw [encodeRune, if_neg (by omega), if_pos (by omega), hbyte (b := c) (by omega),
            hbyte (b := d) (by omega)]
        next htwo =>
          rw [if_neg htwo] at h
          cases t with
          | nil => exact absurd rfl h
          | cons e t =>
            dsimp only at h ⊢
            split
            next hthree =>
              simp only [Bool.and_eq_true, Bool.not_eq_true', Bool.and_eq_false_imp,
                decide_eq_true_eq, decide_eq_false_iff_not, Lib.Json.isTail_iff,
                UInt8.le_iff_toNat_le, UInt8.lt_iff_toNat_lt, ← UInt8.toNat_inj,
                UInt8.reduceToNat] at hthree
              show encodeRune (((c.toNat - 0xe0) * 0x40 + (d.toNat - 0x80)) * 0x40 +
                (e.toNat - 0x80)) = [c, d, e]
              rw [encodeRune, if_neg (by omega), if_neg (by omega), if_pos (by omega),
                hbyte (b := c) (by omega), hbyte (b := d) (by omega), hbyte (b := e) (by omega)]
            next hthree =>
              rw [if_neg hthree] at h
              cases t with
              | nil => exact absurd rfl h
              | cons f t =>
                dsimp only at h ⊢
                split
                next hfour =>
                  simp only [Bool.and_eq_true, Bool.not_eq_true', Bool.and_eq_false_imp,
                    decide_eq_true_eq, decide_eq_false_iff_not, Lib.Json.isTail_iff,
                    UInt8.le_iff_toNat_le, UInt8.lt_iff_toNat_lt, ← UInt8.toNat_inj,
                    UInt8.reduceToNat] at hfour
                  show encodeRune ((((c.toNat - 0xf0) * 0x40 + (d.toNat - 0x80)) * 0x40 +
                    (e.toNat - 0x80)) * 0x40 + (f.toNat - 0x80)) = [c, d, e, f]
                  rw [encodeRune, if_neg (by omega), if_neg (by omega), if_neg (by omega),
                    hbyte (b := c) (by omega), hbyte (b := d) (by omega),
                    hbyte (b := e) (by omega), hbyte (b := f) (by omega)]
                next hfour => exact absurd (if_neg hfour) h

/-! ## Runes -/

/-- A rune of ASCII is a byte of the string. -/
theorem mem_of_runesFrom {n r : Nat} {s : Text} (hr : r < 0x80) (h : r ∈ runesFrom n s) :
    UInt8.ofNat r ∈ s := by
  induction n generalizing s with
  | zero => exact absurd h List.not_mem_nil
  | succ n ih =>
      cases s with
      | nil => exact absurd h List.not_mem_nil
      | cons c s =>
          rw [runesFrom] at h
          split at h
          · obtain rfl | hrest := List.mem_cons.1 h
            · exact absurd hr (by decide)
            · exact List.mem_cons_of_mem _ (ih hrest)
          · next hsize =>
              obtain rfl | hrest := List.mem_cons.1 h
              · have hpoint := encodeRune_codePoint hsize
                rw [encodeRune, if_pos hr] at hpoint
                exact List.mem_of_mem_take (hpoint ▸ List.mem_singleton_self _)
              · exact List.mem_of_mem_drop (ih hrest)

theorem mem_of_runes {r : Nat} {s : Text} (hr : r < 0x80) (h : r ∈ runes s) : UInt8.ofNat r ∈ s :=
  mem_of_runesFrom hr h

/-- What is UTF-8 is spelled again by its runes. -/
theorem flatMap_runesFrom {s : Text} (h : IsUTF8 s) {n : Nat} (hn : s.length ≤ n) :
    (runesFrom n s).flatMap encodeRune = s := by
  induction h generalizing n with
  | nil => cases n <;> rfl
  | @rune r s hr hs ih =>
      have hsize := hr.2 s
      have hpos := List.length_pos_of_ne_nil hr.1
      have hpoint := encodeRune_codePoint (s := r ++ s) (by omega)
      rw [List.length_append] at hn
      obtain ⟨n, rfl⟩ : ∃ k, n = k + 1 := ⟨n - 1, by omega⟩
      obtain ⟨c, t, hcons⟩ := List.exists_cons_of_ne_nil (List.append_ne_nil_of_left_ne_nil hr.1 s)
      have hstep : runesFrom (n + 1) (r ++ s) =
          codePoint ((r ++ s).take (runeSize (r ++ s))) ::
            runesFrom n ((r ++ s).drop (runeSize (r ++ s))) := by
        rw [hcons] at hsize ⊢
        exact if_neg (by omega)
      rw [hstep, List.flatMap_cons, hpoint, hsize, List.take_left, List.drop_left,
        ih (by omega)]

theorem runes_injOn {s t : Text} (hs : IsUTF8 s) (ht : IsUTF8 t) (h : runes s = runes t) :
    s = t := by
  have hflat := congrArg (List.flatMap encodeRune) h
  rwa [runes, runes, flatMap_runesFrom hs (Nat.le_refl _), flatMap_runesFrom ht (Nat.le_refl _)]
    at hflat

end RelayLifeline.Bytes
