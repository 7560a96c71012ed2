import RelayLifeline.Journal.DigestNat
import RelayLifeline.Journal.Texts
import RelayLifeline.Lib.Json.Strings

/-!
# Reading strings back

What JSON has for a string is a string of its grammar, and unquoting it gives
the string. Both go by its characters: each is written as it is, unless it is
one that has to be escaped, and read in one step.
-/

namespace RelayLifeline.Lib.Json

/-- The bytes of a character are one code point. -/
theorem runeSize_char (c : Char) (rest : Text) :
    runeSize (String.utf8EncodeChar c ++ rest) = (String.utf8EncodeChar c).length := by
  have hvalid : c.val.toNat < 0xd800 ∨ 0xdfff < c.val.toNat ∧ c.val.toNat < 0x110000 := c.valid
  unfold String.utf8EncodeChar
  dsimp only
  split
  · refine runeSize_one ?_ rest
    rw [UInt8.toNat_ofNat']
    omega
  · split
    · refine runeSize_two ?_ (isTail_ofNat (by omega) (by omega)) rest
      rw [UInt8.toNat_ofNat']
      omega
    · split
      · refine runeSize_three ?_ (isTail_ofNat (by omega) (by omega))
          (isTail_ofNat (by omega) (by omega)) ?_ ?_ rest
        all_goals simp only [UInt8.toNat_ofNat']
        all_goals omega
      · refine runeSize_four ?_ (isTail_ofNat (by omega) (by omega))
          (isTail_ofNat (by omega) (by omega)) (isTail_ofNat (by omega) (by omega)) ?_ ?_
          rest
        all_goals simp only [UInt8.toNat_ofNat']
        all_goals omega

/-- A byte of a character is the character, if it is not above ASCII. -/
theorem byte_of_char {c : Char} {b : UInt8} (hb : b ∈ String.utf8EncodeChar c) :
    b.toNat = c.toNat ∨ 0x80 ≤ b.toNat := by
  have hvalue : c.val.toNat = c.toNat := rfl
  unfold String.utf8EncodeChar at hb
  dsimp only at hb
  split at hb
  · rw [List.mem_singleton.1 hb, UInt8.toNat_ofNat']
    omega
  · right
    split at hb
    · simp only [List.mem_cons, List.not_mem_nil, or_false] at hb
      rcases hb with rfl | rfl
      all_goals rw [UInt8.toNat_ofNat']
      all_goals omega
    · split at hb
      · simp only [List.mem_cons, List.not_mem_nil, or_false] at hb
        rcases hb with rfl | rfl | rfl
        all_goals rw [UInt8.toNat_ofNat']
        all_goals omega
      · simp only [List.mem_cons, List.not_mem_nil, or_false] at hb
        rcases hb with rfl | rfl | rfl | rfl
        all_goals rw [UInt8.toNat_ofNat']
        all_goals omega

/-! ## One step of reading -/

/-- What may stand in a string for a character. -/
inductive Written (c : Char) : Text → Prop
  | plain (h : ∀ b ∈ String.utf8EncodeChar c, ¬ b < 0x20 ∧ b ≠ quoteMark ∧ b ≠ backslash) :
      Written c (String.utf8EncodeChar c)
  | short {e : UInt8} (he : isEscape e = true) (hc : [unescape e] = String.utf8EncodeChar c) :
      Written c [backslash, e]
  | unicode {i j k l : UInt8}
      (hhex : (isHexDigit i && isHexDigit j && isHexDigit k && isHexDigit l) = true)
      (hplane : (isHighSurrogate (hexRune i j k l) || isLowSurrogate (hexRune i j k l)) = false)
      (hc : encodeRune (hexRune i j k l) = String.utf8EncodeChar c) :
      Written c [backslash, 0x75, i, j, k, l]

theorem length_utf8EncodeChar_pos (c : Char) : 0 < (String.utf8EncodeChar c).length := by
  rw [String.length_utf8EncodeChar]
  exact c.utf8Size_pos

theorem isRune_char (c : Char) : IsRune (String.utf8EncodeChar c) :=
  ⟨List.ne_nil_of_length_pos (length_utf8EncodeChar_pos c), runeSize_char c⟩

variable {ch : Char} {s : Text}

/-- It spells the bytes of the character. -/
theorem Written.spelled (h : Written ch s) : Spelled (String.utf8EncodeChar ch) s := by
  cases h with
  | plain h => exact .plain (isRune_char ch) h
  | short he hc => exact .short he hc
  | unicode hhex hplane hc => exact .unicode hhex hplane hc

end RelayLifeline.Lib.Json

namespace RelayLifeline.Journal

open Lib.Json

/-! ## What is written for a character -/

/-- The byte of a hexadecimal digit. -/
def hexByte (n : Nat) : UInt8 := (String.utf8EncodeChar (hexDigit n)).headD 0

/-- The characters that have only their number to be escaped by are below these. -/
theorem written_control : ∀ n < 64,
    (['\\', 'u', '0', '0', hexDigit (n / 16), hexDigit (n % 16)].flatMap String.utf8EncodeChar =
      [backslash, 0x75, 0x30, 0x30, hexByte (n / 16), hexByte (n % 16)]) ∧
    (isHexDigit 0x30 && isHexDigit 0x30 && isHexDigit (hexByte (n / 16)) &&
      isHexDigit (hexByte (n % 16))) = true ∧
    hexRune 0x30 0x30 (hexByte (n / 16)) (hexByte (n % 16)) = n ∧
    encodeRune n = String.utf8EncodeChar (Char.ofNat n) := by
  decide +kernel

theorem eq_ofNat {c : Char} {n : Nat} (h : c.toNat = n) : c = Char.ofNat n := by
  rw [← h, Char.ofNat_toNat]

/-- A character of which a line separator is one. -/
theorem written_separator {c : Char} (h : c.toNat = 0x2028 ∨ c.toNat = 0x2029) :
    Written c
      (['\\', 'u', '2', '0', '2', hexDigit (c.toNat % 16)].flatMap String.utf8EncodeChar) := by
  rcases h with h | h
  · rw [h, eq_ofNat h]
    exact .unicode (i := 0x32) (j := 0x30) (k := 0x32) (l := 0x38) (by decide)
      (by decide) (by decide)
  · rw [h, eq_ofNat h]
    exact .unicode (i := 0x32) (j := 0x30) (k := 0x32) (l := 0x39) (by decide)
      (by decide) (by decide)

theorem written_escape (c : Char) : Written c ((escape c).flatMap String.utf8EncodeChar) := by
  unfold escape
  split
  · next h => subst h; exact .short (by decide) (by decide)
  next hquote =>
  split
  · next h => subst h; exact .short (by decide) (by decide)
  next hbackslash =>
  split
  · next h => subst h; exact .short (by decide) (by decide)
  split
  · next h => subst h; exact .short (by decide) (by decide)
  split
  · next h => subst h; exact .short (by decide) (by decide)
  split
  · next h => rw [eq_ofNat h]; exact .short (by decide) (by decide)
  split
  · next h => rw [eq_ofNat h]; exact .short (by decide) (by decide)
  split
  · next h =>
      have hlt : c.toNat < 64 := by
        rcases h with h | rfl | rfl | rfl
        · omega
        · decide
        · decide
        · decide
      obtain ⟨htext, hhex, hrune, hchar⟩ := written_control c.toNat hlt
      rw [htext]
      rw [Char.ofNat_toNat] at hchar
      refine .unicode hhex ?_ ?_
      · rw [hrune, isHighSurrogate, isLowSurrogate, Bool.or_eq_false_iff, Bool.and_eq_false_imp,
          Bool.and_eq_false_imp, decide_eq_true_eq, decide_eq_true_eq]
        exact ⟨fun hhigh => by omega, fun hlow => by omega⟩
      · rw [hrune, hchar]
  next hcontrol =>
  split
  · next h => exact written_separator h
  · rw [List.flatMap_singleton]
    refine .plain fun b hb => ?_
    have hascii : ∀ d : Char, c ≠ d → d.toNat < 0x80 → b.toNat ≠ d.toNat := by
      intro d hd hlt heq
      rcases byte_of_char hb with hbyte | hbyte
      · exact hd (Char.toNat_inj.1 (hbyte.symm.trans heq))
      · omega
    refine ⟨?_, ?_, ?_⟩
    · intro hlt
      have hlt : b.toNat < 0x20 := UInt8.lt_iff_toNat_lt.1 hlt
      rcases byte_of_char hb with hbyte | hbyte
      · exact hcontrol (.inl (by omega))
      · omega
    · rintro rfl
      exact hascii '"' hquote (by decide) rfl
    · rintro rfl
      exact hascii '\\' hbackslash (by decide) rfl

/-! ## Whole strings -/

/-- What `encoding/json` writes between the quotes of a string. -/
def escaped (s : String) : Text := utf8 (String.ofList (s.toList.flatMap escape))

theorem escaped_eq (s : String) :
    escaped s = s.toList.flatMap fun c => (escape c).flatMap String.utf8EncodeChar := by
  rw [escaped, utf8, String.toList_ofList, List.flatMap_assoc]

theorem isString_escaped (s : String) : IsString (escaped s) := by
  rw [escaped_eq]
  induction s.toList with
  | nil => exact .nil
  | cons c l ih => exact (written_escape c).spelled.isString ih

theorem unquote_escaped (s : String) : unquote (escaped s) = utf8 s := by
  have hall : ∀ (l : List Char) (n : Nat),
      (l.flatMap fun c => (escape c).flatMap String.utf8EncodeChar).length ≤ n →
      unquoteFrom n (l.flatMap fun c => (escape c).flatMap String.utf8EncodeChar) =
        l.flatMap String.utf8EncodeChar := by
    intro l
    induction l with
    | nil =>
        intro n _
        cases n with
        | zero => rfl
        | succ n => rfl
    | cons c l ih =>
        intro n hn
        have hpos := (written_escape c).spelled.length_pos
        rw [List.flatMap_cons, List.length_append] at hn
        obtain ⟨n, rfl⟩ : ∃ m, n = m + 1 := ⟨n - 1, by omega⟩
        rw [List.flatMap_cons, (written_escape c).spelled.unquoteFrom, ih n (by omega), List.flatMap_cons]
  rw [unquote, utf8, escaped_eq]
  exact hall _ _ (Nat.le_refl _)

end RelayLifeline.Journal
