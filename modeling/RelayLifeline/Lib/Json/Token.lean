import RelayLifeline.Lib.Json.Read

/-!
# Tokens and what reads them

The grammar of strings and numbers, and that each is read back as it is
written, whatever follows it. A number goes as far as it can, so what follows
it must not go on with it.
-/

namespace RelayLifeline.Lib.Json

/-- What may stand between the quotes of a string. -/
inductive IsString : Text → Prop
  | nil : IsString []
  | char {c : UInt8} {rest : Text} (hc : ¬ c < 0x20) (hquote : c ≠ quoteMark)
      (hbackslash : c ≠ backslash) (h : IsString rest) : IsString (c :: rest)
  | escape {e : UInt8} {rest : Text} (he : isEscape e = true) (h : IsString rest) :
      IsString (backslash :: e :: rest)
  | unicode {i j k l : UInt8} {rest : Text}
      (hhex : (isHexDigit i && isHexDigit j && isHexDigit k && isHexDigit l) = true)
      (h : IsString rest) : IsString (backslash :: 0x75 :: i :: j :: k :: l :: rest)

/-- Bytes that are not escaped. -/
theorem isString_append {s rest : Text}
    (h : ∀ b ∈ s, ¬ b < 0x20 ∧ b ≠ quoteMark ∧ b ≠ backslash) (hrest : IsString rest) :
    IsString (s ++ rest) := by
  induction s with
  | nil => exact hrest
  | cons b s ih =>
      obtain ⟨hb, hquote, hbackslash⟩ := h b List.mem_cons_self
      exact .char hb hquote hbackslash (ih fun d hd => h d (List.mem_cons_of_mem _ hd))

theorem isString_of_plain {s : Text}
    (h : ∀ b ∈ s, ¬ b < 0x20 ∧ b ≠ quoteMark ∧ b ≠ backslash) : IsString s := by
  have hstring := isString_append h .nil
  rwa [List.append_nil] at hstring

theorem readString_append {s : Text} (h : IsString s) (rest : Text) :
    readString (s ++ quoteMark :: rest) = some (s, rest) := by
  induction h with
  | nil =>
      rw [List.nil_append, readString.eq_def]
      exact if_pos rfl
  | @char c s hc hquote hbackslash _ ih =>
      rw [List.cons_append, readString.eq_def]
      show (if c = quoteMark then _ else if c = backslash then _ else _) = _
      rw [if_neg hquote, if_neg hbackslash, if_neg hc, ih]
      rfl
  | @escape e s he _ ih =>
      have hu : e ≠ 0x75 := by
        rintro rfl
        exact absurd he (by decide)
      rw [List.cons_append, List.cons_append, readString.eq_def]
      show (if e = 0x75 then _ else if isEscape e then _ else _) = _
      rw [if_neg hu, if_pos he, ih]
      rfl
  | @unicode i j k l s hhex _ ih =>
      rw [List.cons_append, List.cons_append, List.cons_append, List.cons_append,
        List.cons_append, List.cons_append, readString.eq_def]
      show (if (isHexDigit i && isHexDigit j && isHexDigit k && isHexDigit l) = true
        then _ else _) = _
      rw [if_pos hhex, ih]
      rfl

/-! ## Numbers -/

/-- What follows does not go on with digits. -/
def NotDigit (rest : Text) : Prop := ∀ c, rest.head? = some c → isDigit c = false

/-- What follows does not go on with a number. -/
def Ends (rest : Text) : Prop :=
  ∀ c, rest.head? = some c → isDigit c = false ∧ c ≠ 0x2e ∧ isExponent c = false

inductive IsDigits : Text → Prop
  | intro {s : Text} (hne : s ≠ []) (h : ∀ c ∈ s, isDigit c = true) : IsDigits s

inductive IsInteger : Text → Prop
  | zero : IsInteger [0x30]
  | digits {c : UInt8} {rest : Text} (hc : c ≠ 0x30) (h : IsDigits (c :: rest)) :
      IsInteger (c :: rest)

inductive IsFraction : Text → Prop
  | none : IsFraction []
  | digits {s : Text} (h : IsDigits s) : IsFraction (0x2e :: s)

inductive IsExponent : Text → Prop
  | none : IsExponent []
  | plain {e : UInt8} {s : Text} (he : isExponent e = true) (h : IsDigits s) :
      IsExponent (e :: s)
  | signed {e sign : UInt8} {s : Text} (he : isExponent e = true)
      (hsign : (sign = 0x2b || sign = 0x2d) = true) (h : IsDigits s) :
      IsExponent (e :: sign :: s)

inductive IsUnsigned : Text → Prop
  | intro {integer fraction exponent : Text} (hinteger : IsInteger integer)
      (hfraction : IsFraction fraction) (hexponent : IsExponent exponent) :
      IsUnsigned (integer ++ fraction ++ exponent)

inductive IsNumber : Text → Prop
  | plain {s : Text} (h : IsUnsigned s) : IsNumber s
  | negative {s : Text} (h : IsUnsigned s) : IsNumber (0x2d :: s)

theorem Ends.notDigit {rest : Text} (h : Ends rest) : NotDigit rest := fun c hc => (h c hc).1

theorem ends_nil : Ends [] := fun _ hc => absurd hc.symm (Option.some_ne_none _)

theorem readDigits_append {s rest : Text} (h : IsDigits s) (hrest : NotDigit rest) :
    readDigits (s ++ rest) = some (s, rest) := by
  cases h with
  | intro hne hall =>
    have htake : (s ++ rest).takeWhile isDigit = s := by
      rw [List.takeWhile_append_of_pos hall]
      cases rest with
      | nil => exact List.append_nil s
      | cons c rest => rw [List.takeWhile_cons_of_neg (by simp [hrest c rfl]), List.append_nil]
    have hdrop : (s ++ rest).dropWhile isDigit = rest := by
      rw [List.dropWhile_append_of_pos hall]
      cases rest with
      | nil => rfl
      | cons c rest => rw [List.dropWhile_cons_of_neg (by simp [hrest c rfl])]
    rw [readDigits, htake, hdrop, if_neg hne]

theorem readInteger_append {s rest : Text} (h : IsInteger s) (hrest : NotDigit rest) :
    readInteger (s ++ rest) = some (s, rest) := by
  cases h with
  | zero => rfl
  | @digits c s hc hs =>
      rw [List.cons_append, readInteger, if_neg hc, ← List.cons_append]
      exact readDigits_append hs hrest

theorem readFraction_append {s rest : Text} (h : IsFraction s) (hrest : NotDigit rest)
    (hdot : rest.head? ≠ some 0x2e) : readFraction (s ++ rest) = some (s, rest) := by
  cases h with
  | none =>
      cases rest with
      | nil => rfl
      | cons c rest =>
          rw [List.nil_append, readFraction, if_neg fun hc => hdot (by rw [hc]; rfl)]
  | digits hs =>
      rw [List.cons_append, readFraction, if_pos rfl, readDigits_append hs hrest]
      rfl

theorem readSign_digits {s : Text} (h : IsDigits s) (rest : Text) :
    readSign (s ++ rest) = ([], s ++ rest) := by
  cases h with
  | intro hne hall =>
    cases s with
    | nil => exact absurd rfl hne
    | cons c s =>
        have hc := hall c List.mem_cons_self
        have hsign : ¬ (decide (c = 0x2b) || decide (c = 0x2d)) = true := by
          intro hor
          rcases Bool.or_eq_true _ _ ▸ hor with heq | heq
          · rw [of_decide_eq_true heq] at hc
            exact absurd hc (by decide)
          · rw [of_decide_eq_true heq] at hc
            exact absurd hc (by decide)
        rw [List.cons_append, readSign, if_neg hsign]

theorem readExponent_append {s rest : Text} (h : IsExponent s) (hrest : NotDigit rest)
    (hexponent : ∀ c, rest.head? = some c → isExponent c = false) :
    readExponent (s ++ rest) = some (s, rest) := by
  cases h with
  | none =>
      cases rest with
      | nil => rfl
      | cons c rest =>
          have hc := hexponent c rfl
          rw [List.nil_append, readExponent, if_neg (by rw [hc]; exact Bool.false_ne_true)]
  | plain he hs =>
      rw [List.cons_append, readExponent, if_pos he, readSign_digits hs, readDigits_append hs hrest]
      rfl
  | @signed e sign s he hsign hs =>
      have hread : readSign (sign :: (s ++ rest)) = ([sign], s ++ rest) := by
        rw [readSign, if_pos hsign]
      rw [List.cons_append, List.cons_append, readExponent, if_pos he, hread,
        readDigits_append hs hrest]
      rfl

theorem notDigit_exponent {s rest : Text} (h : IsExponent s) (hrest : Ends rest) :
    NotDigit (s ++ rest) ∧ (s ++ rest).head? ≠ some 0x2e := by
  have hplain : ∀ e, isExponent e = true → isDigit e = false ∧ e ≠ 0x2e := by
    intro e he
    simp only [isExponent, Bool.or_eq_true, decide_eq_true_eq] at he
    rcases he with rfl | rfl
    · exact ⟨by decide, by decide⟩
    · exact ⟨by decide, by decide⟩
  cases h with
  | none =>
      refine ⟨hrest.notDigit, fun hdot => ?_⟩
      exact (hrest _ hdot).2.1 rfl
  | @plain e s he hs =>
      refine ⟨fun c hc => ?_, fun hdot => ?_⟩
      · rw [← Option.some.inj hc]
        exact (hplain e he).1
      · exact (hplain e he).2 (Option.some.inj hdot)
  | @signed e sign s he hsign hs =>
      refine ⟨fun c hc => ?_, fun hdot => ?_⟩
      · rw [← Option.some.inj hc]
        exact (hplain e he).1
      · exact (hplain e he).2 (Option.some.inj hdot)

theorem notDigit_fraction {s rest : Text} (h : IsFraction s) (hrest : NotDigit rest) :
    NotDigit (s ++ rest) := by
  cases h with
  | none => exact hrest
  | digits hs =>
      intro c hc
      rw [← Option.some.inj hc]
      decide

theorem readUnsigned_append {s rest : Text} (h : IsUnsigned s) (hrest : Ends rest) :
    readUnsigned (s ++ rest) = some (s, rest) := by
  cases h with
  | @intro integer fraction exponent hinteger hfraction hexponent =>
      obtain ⟨hdigit, hdot⟩ := notDigit_exponent hexponent hrest
      rw [readUnsigned, List.append_assoc, List.append_assoc,
        readInteger_append hinteger (notDigit_fraction hfraction hdigit)]
      simp only [Option.bind_some]
      rw [readFraction_append hfraction hdigit hdot]
      simp only [Option.bind_some]
      rw [readExponent_append hexponent hrest.notDigit fun c hc => (hrest c hc).2.2,
        Option.map_some, List.append_assoc]

theorem readNumber_append {s rest : Text} (h : IsNumber s) (hrest : Ends rest) :
    readNumber (s ++ rest) = some (s, rest) := by
  cases h with
  | negative hs =>
      rw [List.cons_append, readNumber, if_pos rfl, readUnsigned_append hs hrest]
      rfl
  | plain hs =>
      have hread := readUnsigned_append hs hrest
      cases hs with
      | @intro integer fraction exponent hinteger hfraction hexponent =>
          cases hinteger with
          | zero => exact hread
          | @digits c integer hc hdigits =>
              cases hdigits with
              | intro _ hall =>
                have hminus : c ≠ 0x2d := by
                  rintro rfl
                  exact absurd (hall _ List.mem_cons_self) (by decide)
                rw [List.cons_append, List.cons_append, List.cons_append] at hread ⊢
                rw [readNumber, if_neg hminus]
                exact hread

end RelayLifeline.Lib.Json
