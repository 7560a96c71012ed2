import RelayLifeline.Policy.Config
import RelayLifeline.Settings.ByteSize

/-!
# Sizes through floating point

A size that a binary unit divides is written with few enough digits for a
float64, and its product with the unit is exact. Any other size is written out
in bytes, and comes back as the nearest float64: it survives as long as 53 bits
can say it. Close to the largest int64 the nearest float64 is beyond it, and
what the machine makes of that decides; so it does for a text that stands for
more than there are bytes, or for no number at all.
-/

namespace RelayLifeline.Settings

open Lib Policy

variable {upper : Upper} {elsewhere : Binary64 → Int}

/-! ## Reading what was written -/

/-- The digits of a number and the unit after them, in capitals. -/
def written (n : Nat) (suffix : String) : String :=
  String.ofList (Nat.toDigits 10 n ++ suffix.toList)

theorem isDigit_of_mem {n : Nat} {c : Char} (hc : c ∈ Nat.toDigits 10 n) : c.isDigit = true :=
  Nat.isDigit_of_mem_toDigits (by decide) (by decide) hc

theorem rune_digit (upper : Upper) {c : Char} (h : c.isDigit = true) : upper.rune c = c := by
  have hle := (Strconv.bounds_of_isDigit h).2
  rw [upper.ascii c (by omega), Strconv.toUpper_of_isDigit h]

theorem isSpace_digit {c : Char} (h : c.isDigit = true) : isSpace c = false := by
  obtain ⟨hge, hle⟩ := Strconv.bounds_of_isDigit h
  unfold isSpace
  simp only [Bool.or_eq_false_iff, Bool.and_eq_false_iff, decide_eq_false_iff_not,
    beq_eq_false_iff_ne]
  omega

/-- The capitals of a text that begins with a number. -/
theorem string_written (upper : Upper) (n : Nat) {suffix capitals : String}
    (h : suffix.toList.map Char.toUpper = capitals.toList)
    (hascii : suffix.toList.all (·.toNat < 128) = true) :
    upper.string (toString n ++ suffix) = written n capitals := by
  have hdigits : (Nat.toDigits 10 n).map upper.rune = Nat.toDigits 10 n :=
    (List.map_congr_left fun c hc => rune_digit upper (isDigit_of_mem hc)).trans (List.map_id _)
  have hsuffix : suffix.toList.map upper.rune = capitals.toList :=
    (List.map_congr_left fun c hc =>
      upper.ascii c (of_decide_eq_true (List.all_eq_true.1 hascii c hc))).trans h
  rw [Upper.string, written, String.toList_append, Nat.toString_eq_repr, Nat.toList_repr,
    List.map_append, hdigits, hsuffix]

theorem trimSpace_written (n : Nat) {capitals : String}
    (h : capitals.toList.any isSpace = false) :
    trimSpace (written n capitals) = written n capitals := by
  refine trimSpace_of_no_space fun c hc => ?_
  rw [written, String.toList_ofList] at hc
  rcases List.mem_append.1 hc with hc | hc
  · exact isSpace_digit (isDigit_of_mem hc)
  · exact Bool.eq_false_iff.2 (List.any_eq_false.1 h c hc)

theorem hasSuffix_written (n : Nat) (capitals suffix : String) :
    hasSuffix (written n capitals) suffix =
      suffix.toList.isSuffixOf (Nat.toDigits 10 n ++ capitals.toList) := by
  rw [hasSuffix, written, String.toList_ofList]

/-- The last digit tells the unit from a longer one. -/
theorem unitOf_written (n : Nat) :
    unitOf (written n "GIB") = some ("GIB", 2 ^ 30) ∧
      unitOf (written n "MIB") = some ("MIB", 2 ^ 20) ∧
      unitOf (written n "KIB") = some ("KIB", 2 ^ 10) ∧ unitOf (written n "B") = some ("B", 1) := by
  obtain ⟨front, d, hdigits⟩ : ∃ front d, Nat.toDigits 10 n = front ++ [d] :=
    (List.eq_nil_or_concat' _).resolve_left Nat.toDigits_ne_nil
  have hd : d.isDigit = true := by
    refine isDigit_of_mem (n := n) ?_
    rw [hdigits]
    simp
  have hI : ('I' == d) = false := beq_eq_false_iff_ne.2 (Strconv.not_digit hd (by decide)).symm
  have hG : ('G' == d) = false := beq_eq_false_iff_ne.2 (Strconv.not_digit hd (by decide)).symm
  have hM : ('M' == d) = false := beq_eq_false_iff_ne.2 (Strconv.not_digit hd (by decide)).symm
  have hK : ('K' == d) = false := beq_eq_false_iff_ne.2 (Strconv.not_digit hd (by decide)).symm
  simp [unitOf, units, List.find?, hasSuffix_written, hdigits, List.isSuffixOf,
    List.isPrefixOf, hI, hG, hM, hK]

/-- What is read from a number and its unit. -/
theorem parse_written {raw capitals : String} {n factor : Nat}
    (hraw : upper.string raw = written n capitals)
    (hspace : capitals.toList.any isSpace = false)
    (hunit : unitOf (written n capitals) = some (capitals, factor))
    (hsmall : Binary64.nearest n < 2 ^ 1024) :
    parseByteSize upper elsewhere raw =
      if (Binary64.ofNat n).isNegative then none
      else some (((Binary64.ofNat n).mul (.ofNat factor)).toInt64 elsewhere) := by
  have hnumber : trimSuffix (written n capitals) capitals = String.ofList (Nat.toDigits 10 n) :=
    trimSuffix_append _ _
  have htrim : trimSpace (String.ofList (Nat.toDigits 10 n)) =
      String.ofList (Nat.toDigits 10 n) := by
    refine trimSpace_of_no_space fun c hc => ?_
    rw [String.toList_ofList] at hc
    exact isSpace_digit (isDigit_of_mem hc)
  rw [parseByteSize, hraw, trimSpace_written n hspace]
  dsimp only
  rw [hunit]
  dsimp only
  rw [hnumber, htrim, String.toList_ofList, Strconv.parseFloat_toDigits hsmall]

/-! ## What survives -/

theorem two_pow_lt : (2 : ℚ) ^ 63 < 2 ^ 1024 := pow_lt_pow_right₀ (by norm_num) (by norm_num)

theorem nearest_lt {n : Nat} (h : n < 2 ^ 63) : Binary64.nearest n < 2 ^ 1024 := by
  have hle : (n : ℚ) ≤ 2 ^ 63 := by exact_mod_cast h.le
  exact lt_of_le_of_lt (Binary64.nearest_le_two_pow hle) two_pow_lt

theorem ofNat_eq {n : Nat} (h : n < 2 ^ 63) :
    Binary64.ofNat n =
      .finite false ⟨Binary64.nearest n, Binary64.representable_nearest n, nearest_lt h⟩ :=
  Binary64.round_eq false (nearest_lt h)

/-- An integer that is a float64 stays what it is. -/
theorem toInt64_natCast {v : Nat} {q : Binary64.Magnitude} (hq : q.val = v) :
    Binary64.toInt64 elsewhere (.finite false q) =
      if v < 2 ^ 63 then (v : Int) else elsewhere (.finite false q) := by
  have htruncate : Binary64.truncate false q = v := by
    simp [Binary64.truncate, hq]
  simp only [Binary64.toInt64, htruncate]
  by_cases hlt : v < 2 ^ 63
  · rw [if_pos hlt, if_pos (by omega)]
  · rw [if_neg hlt, if_neg (by omega)]

/-- The product of a small enough number and a unit is exact. -/
theorem mul_unit {n factor v : Nat} (hn : n < 2 ^ 53) (hfactor : factor < 2 ^ 53)
    (hproduct : n * factor = v) (hv : Binary64.Representable v) (hlt : v < 2 ^ 63) :
    ((Binary64.ofNat n).mul (.ofNat factor)).toInt64 elsewhere = v := by
  have hnat : ∀ m : Nat, m < 2 ^ 53 → Binary64.nearest (m : ℚ) = m := fun m hm =>
    Binary64.nearest_of_representable (Binary64.representable_of_lt hm)
  have hval : Binary64.nearest n * Binary64.nearest factor = (v : ℚ) := by
    rw [hnat n hn, hnat factor hfactor, ← hproduct]
    push_cast
    rfl
  have hsmall : (v : ℚ) < 2 ^ 1024 := lt_trans (by exact_mod_cast hlt) two_pow_lt
  rw [ofNat_eq (by omega : n < 2 ^ 63), ofNat_eq (by omega : factor < 2 ^ 63),
    Binary64.mul_of_representable (by rw [hval]; exact hv) (by rw [hval]; exact hsmall),
    Bool.xor_self, toInt64_natCast (v := v) hval, if_pos hlt]

theorem nearest_one : Binary64.nearest ((1 : Nat) : ℚ) = 1 := by
  have := Binary64.nearest_of_representable (Binary64.representable_of_lt (n := 1) (by norm_num))
  simpa using this

theorem nearest_two_pow : Binary64.nearest ((2 ^ 63 : Nat) : ℚ) = ((2 ^ 63 : Nat) : ℚ) :=
  Binary64.nearest_of_representable
    (Binary64.representable_natCast_iff.2 ⟨1, 63, by norm_num, by norm_num⟩)

/-- What a size becomes that no unit divides: the nearest float64. -/
theorem mul_bytes {v r : Nat} (hlt : v < 2 ^ 63) (hr : Binary64.nearest v = r) :
    ((Binary64.ofNat v).mul (.ofNat 1)).toInt64 elsewhere =
      if r < 2 ^ 63 then (r : Int) else elsewhere (.ofNat (2 ^ 63)) := by
  have hval : Binary64.nearest v * Binary64.nearest ((1 : Nat) : ℚ) = (r : ℚ) := by
    rw [nearest_one, Rat.mul_one, hr]
  have hrepresentable : Binary64.Representable (r : ℚ) := hr ▸ Binary64.representable_nearest v
  have hsmall : (r : ℚ) < 2 ^ 1024 := hr ▸ nearest_lt hlt
  have hle : r ≤ 2 ^ 63 := by
    have hv : (v : ℚ) ≤ 2 ^ 63 := by exact_mod_cast hlt.le
    have := Binary64.nearest_le_two_pow hv
    rw [hr] at this
    exact_mod_cast this
  rw [ofNat_eq hlt, ofNat_eq (by norm_num : 1 < 2 ^ 63),
    Binary64.mul_of_representable (by rw [hval]; exact hrepresentable) (by rw [hval]; exact hsmall),
    Bool.xor_self, toInt64_natCast (v := r) hval]
  split
  · rfl
  · next hbeyond =>
      have hmax : r = 2 ^ 63 := by omega
      have hround : Binary64.nearest ((2 ^ 63 : Nat) : ℚ) < 2 ^ 1024 :=
        by rw [nearest_two_pow, ← hmax]; exact hsmall
      rw [Binary64.ofNat, Binary64.round_eq false hround]
      congr 2
      rw [Binary64.Magnitude.mk.injEq, nearest_two_pow, hval, hmax]

/-- Of 53 bits, up to the zeros at the end, or so close to the end of int64 that
the machine decides, which makes it the size again. -/
def Survives (elsewhere : Binary64 → Int) (v : Nat) : Prop :=
  (∃ m k : Nat, m < 2 ^ 53 ∧ v = m * 2 ^ k) ∨
    2 ^ 63 - 512 ≤ v ∧ elsewhere (.ofNat (2 ^ 63)) = (v : Int)

/-- What a size is written as: so many of a binary unit, or so many bytes. -/
theorem format_cases (v : Nat) :
    (∃ n k suffix, (suffix, k) ∈ [("GiB", 30), ("MiB", 20), ("KiB", 10)] ∧ n * 2 ^ k = v ∧
        formatByteSize v = toString n ++ suffix) ∨
      formatByteSize v = toString v ++ "B" := by
  have hquotient : ∀ factor : Nat, toString ((v : Int) / (factor : Int)) = toString (v / factor) :=
    fun factor => rfl
  unfold formatByteSize
  split
  · exact .inl ⟨v / 1073741824, 30, "GiB", by simp, by omega, by rw [← hquotient]; rfl⟩
  · split
    · exact .inl ⟨v / 1048576, 20, "MiB", by simp, by omega, by rw [← hquotient]; rfl⟩
    · split
      · exact .inl ⟨v / 1024, 10, "KiB", by simp, by omega, by rw [← hquotient]; rfl⟩
      · exact .inr rfl

/-- So many of a binary unit are read as what they are. -/
theorem parse_unit {n k v : Nat} {suffix : String}
    (hmem : (suffix, k) ∈ [("GiB", 30), ("MiB", 20), ("KiB", 10)]) (hv : n * 2 ^ k = v)
    (hlt : v < 2 ^ 63) :
    parseByteSize upper elsewhere (toString n ++ suffix) = some (v : Int) ∧ n < 2 ^ 53 := by
  obtain ⟨hG, hM, hK, -⟩ := unitOf_written n
  have hread : ∀ capitals : String, suffix.toList.map Char.toUpper = capitals.toList →
      suffix.toList.all (·.toNat < 128) = true → capitals.toList.any isSpace = false →
      unitOf (written n capitals) = some (capitals, 2 ^ k) → 2 ^ k < 2 ^ 53 → n < 2 ^ 53 →
      parseByteSize upper elsewhere (toString n ++ suffix) = some (v : Int) ∧ n < 2 ^ 53 := by
    intro capitals hupper hascii hspace hunit hk hn
    have hrepresentable : Binary64.Representable (v : ℚ) :=
      Binary64.representable_natCast_iff.2 ⟨n, k, hn, hv.symm⟩
    refine ⟨?_, hn⟩
    rw [parse_written (string_written upper n hupper hascii) hspace hunit (nearest_lt (by omega)),
      mul_unit hn hk hv hrepresentable hlt, ofNat_eq (by omega)]
    rfl
  simp only [List.mem_cons, Prod.mk.injEq, List.not_mem_nil, or_false] at hmem
  rcases hmem with ⟨rfl, rfl⟩ | ⟨rfl, rfl⟩ | ⟨rfl, rfl⟩
  · exact hread "GIB" (by decide) (by decide) (by decide) hG (by norm_num) (by omega)
  · exact hread "MIB" (by decide) (by decide) (by decide) hM (by norm_num) (by omega)
  · exact hread "KIB" (by decide) (by decide) (by decide) hK (by norm_num) (by omega)

/-- A size in bytes is read as the nearest float64. -/
theorem parse_bytes {v r : Nat} (hlt : v < 2 ^ 63) (hr : Binary64.nearest v = r) :
    parseByteSize upper elsewhere (toString v ++ "B") =
      some (if r < 2 ^ 63 then (r : Int) else elsewhere (.ofNat (2 ^ 63))) := by
  have hwritten : upper.string (toString v ++ "B") = written v "B" :=
    string_written upper v (by decide) (by decide)
  rw [parse_written hwritten (by decide)
    (unitOf_written v).2.2.2 (nearest_lt hlt), mul_bytes hlt hr, ofNat_eq hlt]
  rfl

theorem parse_format_iff {v : Nat} (hlt : v < 2 ^ 63) :
    parseByteSize upper elsewhere (formatByteSize v) = some (v : Int) ↔ Survives elsewhere v := by
  rcases format_cases v with ⟨n, k, suffix, hmem, hv, hformat⟩ | hformat
  · obtain ⟨hparse, hn⟩ : parseByteSize upper elsewhere (toString n ++ suffix) = some (v : Int) ∧
        n < 2 ^ 53 := parse_unit hmem hv hlt
    rw [hformat]
    exact iff_of_true hparse (.inl ⟨n, k, hn, hv.symm⟩)
  · obtain ⟨r, hr⟩ := Binary64.exists_nearest_natCast v
    have hlast := Binary64.nearest_eq_two_pow_iff hlt
    have hsame : r = v ↔ ∃ m k : Nat, m < 2 ^ 53 ∧ v = m * 2 ^ k := by
      rw [← Binary64.representable_natCast_iff]
      constructor
      · rintro rfl
        exact hr ▸ Binary64.representable_nearest _
      · intro hrepresentable
        rw [Binary64.nearest_of_representable hrepresentable] at hr
        exact_mod_cast hr.symm
    have hbeyond : r = 2 ^ 63 ↔ 2 ^ 63 - 512 ≤ v := by
      rw [← hlast, hr]
      norm_cast
    have hle : r ≤ 2 ^ 63 := by
      have hv : (v : ℚ) ≤ 2 ^ 63 := by exact_mod_cast hlt.le
      have hnearest := Binary64.nearest_le_two_pow hv
      rw [hr] at hnearest
      exact_mod_cast hnearest
    rw [hformat, parse_bytes hlt hr, Survives, ← hsame, ← hbeyond, Option.some.injEq]
    split
    · next hin => omega
    · next hout => omega

/-! ## What is accepted -/

/-- The float64 that a text with a unit stands for. -/
def product (upper : Upper) (raw : String) : Option Binary64 :=
  let value := trimSpace (upper.string raw)
  (unitOf value).bind fun unit =>
    (Strconv.parseFloat (trimSpace (trimSuffix value unit.1)).toList).map fun parsed =>
      parsed.mul (.ofNat unit.2)

theorem parse_nonneg_iff {raw : String} {size : Int}
    (h : parseByteSize upper elsewhere raw = some size) :
    0 ≤ size ↔ ∀ x ∈ product upper raw, x.Fits ∨ 0 ≤ elsewhere x := by
  unfold parseByteSize at h
  dsimp only at h
  unfold product
  dsimp only
  cases hunit : unitOf (trimSpace (upper.string raw)) with
  | none =>
      rw [hunit] at h
      dsimp only at h
      refine iff_of_true ?_ fun x hx => by simp at hx
      split at h
      · cases h
      · split at h
        · cases h
        · cases h
          omega
  | some unit =>
      rw [hunit] at h
      dsimp only at h
      cases hparsed : Strconv.parseFloat
          (trimSpace (trimSuffix (trimSpace (upper.string raw)) unit.1)).toList with
      | none =>
          rw [hparsed] at h
          cases h
      | some parsed =>
          rw [hparsed] at h
          dsimp only at h
          split at h
          · cases h
          · next hsign =>
              have hfactor : unit.2 < 2 ^ 63 := by
                have hmem : unit ∈ units := List.mem_of_find?_eq_some hunit
                simp only [units, List.mem_cons, List.not_mem_nil, or_false] at hmem
                rcases hmem with rfl | rfl | rfl | rfl | rfl | rfl | rfl <;> norm_num
              have hnonneg : (parsed.mul (.ofNat unit.2)).isNegative = false := by
                rw [ofNat_eq hfactor]
                exact Binary64.mul_nonneg (Bool.not_eq_true _ ▸ hsign)
              rw [← Option.some.inj h, Binary64.toInt64_nonneg_iff hnonneg]
              simp [hparsed]

/-- A size comes back as it was just when 53 bits say it, or the machine helps;
and what a text is read as is negative just when it stands for no int64 and the
machine makes it so. -/
theorem byteSize_codec (upper : Upper) (elsewhere : Binary64 → Int) :
    (∀ v : Nat, v < 2 ^ 63 →
      (parseByteSize upper elsewhere (formatByteSize v) = some (v : Int) ↔ Survives elsewhere v)) ∧
    ∀ raw size, parseByteSize upper elsewhere raw = some size →
      (0 ≤ size ↔ ∀ x ∈ product upper raw, x.Fits ∨ 0 ≤ elsewhere x) :=
  ⟨fun _ hlt => parse_format_iff hlt, fun _ _ hparse => parse_nonneg_iff hparse⟩

/-- ASCII, as the Unicode tables have it. -/
def ascii : Upper := ⟨Char.toUpper, fun _ _ => rfl⟩

/-- The conversion of amd64. -/
def amd64 (_ : Binary64) : Int := -2 ^ 63

/-- The first size that 53 bits do not say, the largest one, and a text that
stands for no number. -/
theorem not_survives :
    parseByteSize ascii amd64 (formatByteSize (2 ^ 53 + 1)) = some (2 ^ 53) ∧
      parseByteSize ascii amd64 (formatByteSize (2 ^ 63 - 1)) = some (-2 ^ 63) ∧
      parseByteSize ascii amd64 "NaNB" = some (-2 ^ 63) := by
  decide +kernel

end RelayLifeline.Settings
