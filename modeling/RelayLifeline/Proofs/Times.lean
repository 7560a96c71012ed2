import RelayLifeline.Time
import RelayLifeline.Lib.Json.Document
import RelayLifeline.Lib.Strconv
import Mathlib.Data.List.DropRight

/-!
# Reading times back

A time that RFC 3339 can have is read back from its text: the same instant, shown
in a zone of the same offset, but without the reading of the monotonic clock.
Every field of the text is a number with as many digits as it has to have, and
the fields stand where they are looked for.
-/

namespace RelayLifeline

open Journal Lib.Json

theorem Journal.utf8_append (s t : String) : utf8 (s ++ t) = utf8 s ++ utf8 t := by
  rw [utf8, String.toList_append, List.flatMap_append]
  rfl

namespace Time

/-! ## Digits -/

theorem utf8Size_of_isDigit {c : Char} (h : c.isDigit) : c.utf8Size = 1 := by
  simp only [Char.isDigit, Bool.and_eq_true, decide_eq_true_eq] at h
  have hval : c.val ≤ 0x7f := UInt32.le_trans h.2 (by decide)
  exact if_pos hval

/-- The byte of a digit. -/
def digitByte (c : Char) : UInt8 := UInt8.ofNat c.toNat

theorem utf8_digits {l : List Char} (h : ∀ c ∈ l, c.isDigit) :
    utf8 (String.ofList l) = l.map digitByte := by
  rw [utf8, String.toList_ofList]
  induction l with
  | nil => rfl
  | cons c l ih =>
      rw [List.flatMap_cons, List.map_cons, ih fun d hd => h d (List.mem_cons_of_mem _ hd),
        String.utf8EncodeChar_eq_singleton (utf8Size_of_isDigit (h c List.mem_cons_self))]
      rfl

theorem digitByte_spec {c : Char} (h : c.isDigit) :
    isDigit (digitByte c) = true ∧ (digitByte c).toNat - 0x30 = c.toNat - '0'.toNat := by
  obtain ⟨hlow, hhigh⟩ := Lib.Strconv.bounds_of_isDigit h
  have hnat : (digitByte c).toNat = c.toNat := by
    rw [digitByte, UInt8.toNat_ofNat', Nat.mod_eq_of_lt (by omega)]
  refine ⟨?_, by rw [hnat]; rfl⟩
  rw [isDigit, Bool.and_eq_true, decide_eq_true_eq, decide_eq_true_eq, UInt8.le_iff_toNat_le,
    UInt8.le_iff_toNat_le, hnat]
  exact ⟨hlow, hhigh⟩

theorem value_digits {l : List Char} (h : ∀ c ∈ l, c.isDigit) :
    value (l.map digitByte) = Nat.ofDigitChars 10 l 0 := by
  have hall : ∀ n, (l.map digitByte).foldl (fun n c => n * 10 + (c.toNat - 0x30)) n =
      Nat.ofDigitChars 10 l n := by
    induction l with
    | nil => exact fun n => rfl
    | cons c l ih =>
        intro n
        have hc := (digitByte_spec (h c List.mem_cons_self)).2
        rw [List.map_cons, List.foldl_cons, Nat.ofDigitChars_cons, hc, Nat.mul_comm,
          ih fun d hd => h d (List.mem_cons_of_mem _ hd)]
  exact hall 0

/-- The text is the number, written with so many digits. -/
structure Decimal (width n : Nat) (s : Text) : Prop where
  length : s.length = width
  digits : s.all isDigit = true
  value : value s = n

theorem decimal_digits {l : List Char} (h : ∀ c ∈ l, c.isDigit) :
    Decimal l.length (Nat.ofDigitChars 10 l 0) (l.map digitByte) := by
  refine ⟨List.length_map _, ?_, value_digits h⟩
  rw [List.all_map, List.all_eq_true]
  exact fun c hc => (digitByte_spec (h c hc)).1

/-- The digits of `padded`. -/
def paddedDigits (width n : Nat) : List Char :=
  List.replicate (width - (Nat.toDigits 10 n).length) '0' ++ Nat.toDigits 10 n

theorem padded_eq (width n : Nat) : padded width n = String.ofList (paddedDigits width n) := rfl

theorem isDigit_paddedDigits (width n : Nat) : ∀ c ∈ paddedDigits width n, c.isDigit := by
  intro c hc
  rcases List.mem_append.1 hc with hc | hc
  · rw [List.eq_of_mem_replicate hc]
    rfl
  · exact Nat.isDigit_of_mem_toDigits (by decide) (by decide) hc

theorem length_paddedDigits {width n : Nat} (hwidth : 0 < width) (h : n < 10 ^ width) :
    (paddedDigits width n).length = width := by
  have hle := (Nat.length_toDigits_le_iff (by decide : 1 < 10) hwidth).2 h
  rw [paddedDigits, List.length_append, List.length_replicate]
  omega

theorem ofDigitChars_paddedDigits (width n : Nat) :
    Nat.ofDigitChars 10 (paddedDigits width n) 0 = n := by
  rw [paddedDigits, Nat.ofDigitChars_append, Nat.ofDigitChars_replicate_zero, Nat.mul_zero,
    Nat.ofDigitChars_ten_toDigits]

theorem decimal_padded (width n : Nat) (hwidth : 0 < width) (h : n < 10 ^ width) :
    Decimal width n (utf8 (padded width n)) := by
  have hdecimal := decimal_digits (isDigit_paddedDigits width n)
  rw [length_paddedDigits hwidth h, ofDigitChars_paddedDigits] at hdecimal
  rwa [padded_eq, utf8_digits (isDigit_paddedDigits width n)]

theorem parseUint_decimal (least most : Nat) {width n : Nat} {s : Text} (h : Decimal width n s)
    (hleast : least ≤ n) (hmost : n ≤ most) : parseUint s least most = some n := by
  rw [parseUint, h.value, if_pos ⟨h.digits, hleast, hmost⟩]

/-! ## The fraction of a second -/

theorem append_zeros (l : List Char) :
    ∃ zeros, l = l.rdropWhile (· = '0') ++ List.replicate zeros '0' := by
  have hzeros : l.rtakeWhile (· = '0') = List.replicate (l.rtakeWhile (· = '0')).length '0' :=
    List.eq_replicate_of_mem fun c hc => by simpa using List.mem_rtakeWhile_imp hc
  refine ⟨(l.rtakeWhile (· = '0')).length, ?_⟩
  rw [← hzeros, List.rdropWhile_append_rtakeWhile]

/-- A zone begins with neither a point nor a digit. -/
def EndsFraction (zone : Text) : Prop :=
  ∀ c, zone.head? = some c → c ≠ 0x2e ∧ isDigit c = false

theorem parseFraction_zone {zone : Text} (h : EndsFraction zone) :
    parseFraction zone = (0, zone) := by
  match zone with
  | [] => rfl
  | [c] => rfl
  | c :: d :: rest =>
      rw [parseFraction, if_neg]
      exact fun hpoint => (h c rfl).1 hpoint.1

/-- The digits of the fraction without the zeros at its end. -/
theorem fractionText_eq (nanos : Nat) :
    fractionText nanos =
      if (paddedDigits 9 nanos).rdropWhile (· = '0') = [] then ""
      else String.ofList ('.' :: (paddedDigits 9 nanos).rdropWhile (· = '0')) := by
  rw [fractionText, padded_eq, String.toList_ofList]
  rfl

theorem parseFraction_fractionText (nanos : Nat) (hnanos : nanos < 1000000000) {zone : Text}
    (h : EndsFraction zone) : parseFraction (utf8 (fractionText nanos) ++ zone) =
      (nanos, zone) := by
  obtain ⟨zeros, hzeros⟩ := append_zeros (paddedDigits 9 nanos)
  have hlen := length_paddedDigits (n := nanos) (by decide : 0 < 9) hnanos
  have hvalue := ofDigitChars_paddedDigits 9 nanos
  have hdigits : ∀ c ∈ (paddedDigits 9 nanos).rdropWhile (· = '0'), c.isDigit := by
    intro c hc
    refine isDigit_paddedDigits 9 nanos c ?_
    rw [hzeros]
    exact List.mem_append_left _ hc
  rw [hzeros, List.length_append, List.length_replicate] at hlen
  rw [hzeros, Nat.ofDigitChars_append, Nat.ofDigitChars_replicate_zero] at hvalue
  rw [fractionText_eq]
  generalize (paddedDigits 9 nanos).rdropWhile (· = '0') = l at *
  cases l with
  | nil =>
      rw [Nat.ofDigitChars_nil, Nat.mul_zero] at hvalue
      rw [if_pos rfl, ← hvalue]
      exact parseFraction_zone h
  | cons c l =>
      have hdecimal := decimal_digits hdigits
      have hbytes : utf8 (String.ofList ('.' :: c :: l)) = 0x2e :: (c :: l).map digitByte := by
        have htail := utf8_digits hdigits
        rw [utf8, String.toList_ofList] at htail ⊢
        rw [List.flatMap_cons, htail]
        rfl
      have hall : ∀ d ∈ (c :: l).map digitByte, isDigit d = true :=
        List.all_eq_true.1 hdecimal.digits
      have hstop : zone.takeWhile isDigit = [] ∧ zone.dropWhile isDigit = zone := by
        cases zone with
        | nil => exact ⟨rfl, rfl⟩
        | cons d zone =>
            have hd := (h d rfl).2
            exact ⟨List.takeWhile_cons_of_neg (by simp [hd]),
              List.dropWhile_cons_of_neg (by simp [hd])⟩
      have htake : (((c :: l).map digitByte ++ zone).takeWhile isDigit) =
          (c :: l).map digitByte := by
        rw [List.takeWhile_append_of_pos hall, hstop.1, List.append_nil]
      have hdrop : (((c :: l).map digitByte ++ zone).dropWhile isDigit) = zone := by
        rw [List.dropWhile_append_of_pos hall, hstop.2]
      have hshort : ((c :: l).map digitByte).take 9 = (c :: l).map digitByte :=
        List.take_of_length_le (by rw [hdecimal.length]; omega)
      have hpoint : isDigit (digitByte c) = true := hall _ List.mem_cons_self
      rw [if_neg (List.cons_ne_nil c l), hbytes, List.cons_append]
      show parseFraction (0x2e :: digitByte c :: (l.map digitByte ++ zone)) = _
      rw [parseFraction, if_pos ⟨rfl, hpoint⟩]
      rw [List.map_cons, List.cons_append] at htake hdrop
      rw [htake, hdrop, ← List.map_cons, parseNanoseconds, hshort, hdecimal.value,
        hdecimal.length, show 9 - (c :: l).length = zeros by omega, Nat.mul_comm, hvalue]

/-! ## The zone -/

theorem Decimal.two {n : Nat} {s : Text} (h : Decimal 2 n s) : ∃ a b, s = [a, b] := by
  match s, h.length with
  | [a, b], _ => exact ⟨a, b, rfl⟩

theorem Decimal.four {n : Nat} {s : Text} (h : Decimal 4 n s) : ∃ a b c d, s = [a, b, c, d] := by
  match s, h.length with
  | [a, b, c, d], _ => exact ⟨a, b, c, d, rfl⟩

theorem utf8_dash : utf8 "-" = [0x2d] := by decide

theorem utf8_colon : utf8 ":" = [colon] := by decide

theorem zoneText_zero : utf8 (zoneText 0) = [0x5a] := by decide

theorem zoneText_ne {offset : Int} (h : offset ≠ 0) :
    utf8 (zoneText offset) = (if offset ≤ -60 then 0x2d else 0x2b) ::
      (utf8 (padded 2 (offset.natAbs / 3600)) ++
        colon :: utf8 (padded 2 (offset.natAbs / 60 % 60))) := by
  rw [zoneText, if_neg h, utf8_append, utf8_append, utf8_append, utf8_colon, apply_ite utf8,
    utf8_dash, show utf8 "+" = [0x2b] by decide]
  split
  · rw [List.singleton_append, List.singleton_append]
  · rw [List.singleton_append, List.singleton_append]

/-- An offset of whole minutes is read back. -/
theorem parseZone_zoneText {offset : Int} (hminutes : offset % 60 = 0)
    (hday : offset.natAbs < 86400) : parseZone (utf8 (zoneText offset)) = some offset := by
  by_cases hzero : offset = 0
  · rw [hzero, zoneText_zero]
    rfl
  · have hhours := decimal_padded 2 (offset.natAbs / 3600) (by decide) (by omega)
    have hrest := decimal_padded 2 (offset.natAbs / 60 % 60) (by decide) (by omega)
    have hparse := parseUint_decimal 0 23 hhours (by omega) (by omega)
    have hparse' := parseUint_decimal 0 59 hrest (by omega) (by omega)
    rw [zoneText_ne hzero]
    obtain ⟨h, h', hh⟩ := hhours.two
    obtain ⟨m, m', hm⟩ := hrest.two
    rw [hh] at hparse ⊢
    rw [hm] at hparse' ⊢
    show parseZone [_, h, h', colon, m, m'] = _
    rw [parseZone, hparse, Option.bind_some, hparse', Option.bind_some]
    by_cases hwest : offset ≤ -60
    · rw [if_pos hwest, if_pos ⟨.inl rfl, rfl⟩]
      dsimp only
      rw [if_pos rfl]
      exact congrArg some (by omega)
    · rw [if_neg hwest, if_pos ⟨.inr rfl, rfl⟩]
      dsimp only
      rw [if_neg (by decide)]
      exact congrArg some (by omega)

theorem endsFraction_zoneText (offset : Int) : EndsFraction (utf8 (zoneText offset)) := by
  intro c hc
  by_cases hzero : offset = 0
  · rw [hzero, zoneText_zero] at hc
    rw [← Option.some.inj hc]
    decide
  · rw [zoneText_ne hzero] at hc
    rw [← Option.some.inj hc]
    split
    · decide
    · decide

/-! ## The whole text -/

/-- The date is one of the calendar. -/
theorem date_spec {t : Time} (h : 0 ≤ t.date.1) :
    (1 ≤ t.date.2.1 ∧ t.date.2.1 ≤ 12) ∧
      (1 ≤ t.date.2.2 ∧ t.date.2.2 ≤ daysIn t.date.2.1 t.date.1.toNat) ∧
      dateDays t.date.1.toNat t.date.2.1 t.date.2.2 = t.shown / 86400 := by
  rw [date] at h ⊢
  dsimp only at h ⊢
  have hafter : 0 ≤ t.shown / 86400 + eraDays := by
    by_contra hbefore
    rw [Int.toNat_of_nonpos (by omega)] at h
    exact absurd h (by decide)
  have hnat := Int.toNat_of_nonneg hafter
  generalize (t.shown / 86400 + eraDays).toNat = n at *
  obtain ⟨hmonth, hday, hdays⟩ := civil_spec n
  obtain ⟨year, hyear⟩ : ∃ year, (civil n).1 = year + 400 := ⟨(civil n).1 - 400, by omega⟩
  have hshift : (((civil n).1 : Int) - 400).toNat = year := by omega
  rw [hyear, daysIn_era] at hday
  rw [hyear, dateDays_era] at hdays
  rw [hshift]
  refine ⟨hmonth, hday, ?_⟩
  rw [eraDays] at hnat
  omega

/-- What is written is read back, without the reading of the clock. -/
theorem parseRFC3339_format {t : Time} (h : t.Writable) (hminutes : t.offset % 60 = 0) :
    parseRFC3339 (utf8 t.format) = some { t with monotonic := none } := by
  obtain ⟨hyear, hyear', hoffset⟩ := h
  obtain ⟨⟨hmonth, hmonth'⟩, ⟨hday, hday'⟩, hdays⟩ := date_spec hyear
  have hclock : t.clock < 86400 := by
    rw [clock]
    omega
  have hin := daysIn_le t.date.2.1 t.date.1.toNat
  have hyears := decimal_padded 4 (t.date.1.toNat) (by decide) (by omega)
  have hmonths := decimal_padded 2 (t.date.2.1) (by decide) (by omega)
  have hdates := decimal_padded 2 (t.date.2.2) (by decide) (by omega)
  have hhours := decimal_padded 2 (t.clock / 3600) (by decide) (by omega)
  have hmins := decimal_padded 2 (t.clock / 60 % 60) (by decide) (by omega)
  have hsecs := decimal_padded 2 (t.clock % 60) (by decide) (by omega)
  have pyear := parseUint_decimal 0 9999 hyears (by omega) (by omega)
  have pmonth := parseUint_decimal 1 12 hmonths hmonth hmonth'
  have pday := parseUint_decimal 1 _ hdates hday hday'
  have phour := parseUint_decimal 0 23 hhours (by omega) (by omega)
  have pmin := parseUint_decimal 0 59 hmins (by omega) (by omega)
  have psec := parseUint_decimal 0 59 hsecs (by omega) (by omega)
  have hfraction := parseFraction_fractionText t.nanosecond
    (by rw [nanosecond]; omega) (endsFraction_zoneText t.offset)
  have hzone := parseZone_zoneText hminutes hoffset
  obtain ⟨y₁, y₂, y₃, y₄, hy⟩ := hyears.four
  obtain ⟨m₁, m₂, hm⟩ := hmonths.two
  obtain ⟨d₁, d₂, hd⟩ := hdates.two
  obtain ⟨h₁, h₂, hh⟩ := hhours.two
  obtain ⟨n₁, n₂, hn⟩ := hmins.two
  obtain ⟨s₁, s₂, hs⟩ := hsecs.two
  have htext : utf8 t.format = y₁ :: y₂ :: y₃ :: y₄ :: 0x2d :: m₁ :: m₂ :: 0x2d :: d₁ :: d₂ ::
      0x54 :: h₁ :: h₂ :: colon :: n₁ :: n₂ :: colon :: s₁ :: s₂ ::
        (utf8 (fractionText t.nanosecond) ++ utf8 (zoneText t.offset)) := by
    rw [format]
    simp only [utf8_append, utf8_dash, utf8_colon, show utf8 "T" = [0x54] by decide, hy, hm, hd, hh,
      hn, hs, List.cons_append, List.nil_append]
  rw [htext]
  rw [hy] at pyear
  rw [hm] at pmonth
  rw [hd] at pday
  rw [hh] at phour
  rw [hn] at pmin
  rw [hs] at psec
  generalize utf8 (fractionText t.nanosecond) ++ utf8 (zoneText t.offset) = rest at *
  have hlong : 19 ≤ (y₁ :: y₂ :: y₃ :: y₄ :: 0x2d :: m₁ :: m₂ :: 0x2d :: d₁ :: d₂ :: 0x54 :: h₁ ::
      h₂ :: colon :: n₁ :: n₂ :: colon :: s₁ :: s₂ :: rest).length := by
    simp only [List.length_cons]
    omega
  have hdrop : (y₁ :: y₂ :: y₃ :: y₄ :: 0x2d :: m₁ :: m₂ :: 0x2d :: d₁ :: d₂ :: 0x54 :: h₁ ::
      h₂ :: colon :: n₁ :: n₂ :: colon :: s₁ :: s₂ :: rest).drop 19 = rest := rfl
  rw [parseRFC3339]
  show (parseUint [y₁, y₂, y₃, y₄] 0 9999).bind _ = _
  rw [pyear, Option.bind_some]
  show (parseUint [m₁, m₂] 1 12).bind _ = _
  rw [pmonth, Option.bind_some]
  show (parseUint [d₁, d₂] 1 _).bind _ = _
  rw [pday, Option.bind_some]
  show (parseUint [h₁, h₂] 0 23).bind _ = _
  rw [phour, Option.bind_some]
  show (parseUint [n₁, n₂] 0 59).bind _ = _
  rw [pmin, Option.bind_some]
  show (parseUint [s₁, s₂] 0 59).bind _ = _
  rw [psec, Option.bind_some, if_pos ⟨hlong, rfl, rfl, rfl, rfl, rfl⟩]
  rw [hdrop, hfraction, hzone, Option.map_some, hdays]
  refine congrArg some (Time.mk.injEq .. ▸ ⟨?_, rfl, rfl⟩)
  simp only [clock, nanosecond, shown]
  omega

/-! ## The text of a time in a string -/

/-- The bytes stand in a string as they are. -/
def Plain (s : Text) : Prop := ∀ b ∈ s, ¬ b < 0x20 ∧ b ≠ quoteMark ∧ b ≠ backslash

instance (s : Text) : Decidable (Plain s) := List.decidableBAll _ s

theorem plain_append {s t : Text} : Plain (s ++ t) ↔ Plain s ∧ Plain t := List.forall_mem_append

theorem plain_of_isDigit {s : Text} (h : ∀ b ∈ s, isDigit b = true) : Plain s := by
  intro b hb
  have hdigit := h b hb
  rw [isDigit, Bool.and_eq_true, decide_eq_true_eq, decide_eq_true_eq] at hdigit
  refine ⟨UInt8.not_lt.2 (UInt8.le_trans (by decide) hdigit.1), ?_, ?_⟩
  · rintro rfl
    exact absurd hdigit.1 (by decide)
  · rintro rfl
    exact absurd hdigit.2 (by decide)

theorem plain_digits {l : List Char} (h : ∀ c ∈ l, c.isDigit) : Plain (utf8 (String.ofList l)) := by
  rw [utf8_digits h]
  exact plain_of_isDigit (List.all_eq_true.1 (decimal_digits h).digits)

theorem plain_padded (width n : Nat) : Plain (utf8 (padded width n)) := by
  rw [padded_eq]
  exact plain_digits (isDigit_paddedDigits width n)

theorem plain_fractionText (nanos : Nat) : Plain (utf8 (fractionText nanos)) := by
  have hdigits : ∀ c ∈ (paddedDigits 9 nanos).rdropWhile (· = '0'), c.isDigit := fun c hc =>
    isDigit_paddedDigits 9 nanos c ((List.rdropWhile_prefix _ _).subset hc)
  have hplain := plain_digits hdigits
  rw [fractionText_eq]
  split
  · exact fun b hb => absurd hb List.not_mem_nil
  · rw [utf8, String.toList_ofList] at hplain ⊢
    rw [List.flatMap_cons]
    exact plain_append.2 ⟨by decide, hplain⟩

theorem plain_zoneText (offset : Int) : Plain (utf8 (zoneText offset)) := by
  by_cases hzero : offset = 0
  · rw [hzero, zoneText_zero]
    decide
  · rw [zoneText_ne hzero]
    refine List.forall_mem_cons.2 ⟨?_, plain_append.2 ⟨plain_padded _ _,
      List.forall_mem_cons.2 ⟨by decide, plain_padded _ _⟩⟩⟩
    split
    · decide
    · decide

theorem isString_format (t : Time) : IsString (utf8 t.format) := by
  have hplain : Plain (utf8 t.format) := by
    rw [format]
    simp only [utf8_append, plain_append]
    exact ⟨plain_padded _ _, by decide, plain_padded _ _, by decide, plain_padded _ _, by decide,
      plain_padded _ _, by decide, plain_padded _ _, by decide, plain_padded _ _,
      plain_fractionText _, plain_zoneText _⟩
  exact isString_of_plain hplain

theorem string_ne_null (text : Text) : (Token.string text).text ≠ nullWord :=
  fun heq => absurd (List.cons.inj heq).1 (by decide)

/-- A time in quotes is read as the time. -/
theorem unmarshalJSON_format (elsewhere : Text → Option (Int × Int)) {t : Time} (h : t.Writable)
    (hminutes : t.offset % 60 = 0) :
    unmarshalJSON elsewhere (Token.string (utf8 t.format)).text =
      some (some { t with monotonic := none }) := by
  have hlast : (quoteMark :: (utf8 t.format ++ [quoteMark])).getLast? = some quoteMark := by
    rw [← List.cons_append, List.getLast?_concat]
  have hlong : 2 ≤ (quoteMark :: (utf8 t.format ++ [quoteMark])).length := by
    rw [List.length_cons, List.length_append, List.length_singleton]
    omega
  rw [unmarshalJSON, if_neg (string_ne_null _), Token.text, if_pos ⟨hlong, rfl, hlast⟩,
    List.tail_cons, List.dropLast_concat, parse, parseRFC3339_format h hminutes]
  rfl

end Time

end RelayLifeline
