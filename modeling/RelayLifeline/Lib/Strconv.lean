import RelayLifeline.Lib.Binary64

/-!
# Reading numbers

`ParseFloat` and `ParseInt` of Go's `strconv`: a number is decimal, or
hexadecimal with a binary exponent, its digits may be grouped by underscores,
and the words for the infinities and for no number are known in either case of
their letters. An integer is plain decimal.

A number that is too large for float64 is not read. The number that is read is
the nearest to what is written.
-/

namespace RelayLifeline.Lib.Strconv

/-! ## Parts of a number -/

/-- Whether there is a minus, and what follows the sign. -/
def readSign : List Char → Bool × List Char
  | '-' :: rest => (true, rest)
  | '+' :: rest => (false, rest)
  | s => (false, s)

def digitOf (hex : Bool) (c : Char) : Option Nat :=
  if c.isDigit then some (c.toNat - '0'.toNat)
  else if hex && 'a' ≤ c.toLower && c.toLower ≤ 'f' then some (c.toLower.toNat - 'a'.toNat + 10)
  else none

/-- What has been read of the digits: their number, whether there was a dot and
a digit, and how many digits came after the dot. -/
structure Mantissa where
  value : Nat := 0
  sawDot : Bool := false
  sawDigits : Bool := false
  fraction : Nat := 0

def Mantissa.push (m : Mantissa) (base digit : Nat) : Mantissa :=
  { m with
    value := base * m.value + digit
    sawDigits := true
    fraction := if m.sawDot then m.fraction + 1 else m.fraction }

def readMantissa (hex : Bool) (m : Mantissa) : List Char → Mantissa × List Char
  | [] => (m, [])
  | c :: rest =>
      if c = '_' then readMantissa hex m rest
      else if c = '.' then
        if m.sawDot then (m, c :: rest) else readMantissa hex { m with sawDot := true } rest
      else
        match digitOf hex c with
        | none => (m, c :: rest)
        | some digit => readMantissa hex (m.push (if hex then 16 else 10) digit) rest

/-- The digits of an exponent, which is not read on once it is beyond all
numbers. -/
def readExponentDigits (e : Nat) : List Char → Option Nat
  | [] => some e
  | c :: rest =>
      if c = '_' then readExponentDigits e rest
      else if c.isDigit then
        readExponentDigits (if e < 10000 then e * 10 + (c.toNat - '0'.toNat) else e) rest
      else none

/-- What follows the mark of an exponent. -/
def readExponent (s : List Char) : Option Int :=
  let (negative, digits) := readSign s
  match digits with
  | [] => none
  | c :: _ =>
      if c.isDigit then
        (readExponentDigits 0 digits).map fun e => if negative then -(e : Int) else e
      else none

/-- The number is written to a base, as one of the marks after a zero says. -/
def isBased (marks : List Char) (unsigned : List Char) : Bool :=
  unsigned.head? = some '0' && (unsigned[1]?.map Char.toLower).any fun c => c ∈ marks

/-- What an underscore was last seen after. -/
inductive Saw where
  | start
  | digit
  | underscore
  | other
  deriving DecidableEq

def underscoreStep (hex : Bool) (saw : Saw) (c : Char) : Option Saw :=
  if (digitOf hex c).isSome then some .digit
  else if c = '_' then if saw = .digit then some .underscore else none
  else if saw = .underscore then none
  else some .other

/-- Underscores separate digits, and the first of them from the base. -/
def underscoreOK (s : List Char) : Bool :=
  let unsigned := (readSign s).2
  let based := isBased ['b', 'o', 'x'] unsigned
  let number := if based then unsigned.drop 2 else unsigned
  match number.foldlM (underscoreStep (isBased ['x'] unsigned))
      (if based then .digit else .start) with
  | none => false
  | some saw => saw ≠ .underscore

/-! ## Floating point -/

/-- `special`. -/
def special (s : List Char) : Option Binary64 :=
  if s.map Char.toLower = ['n', 'a', 'n'] then some .nan
  else if (readSign s).2.map Char.toLower ∈ ["inf".toList, "infinity".toList] then
    some (.infinite (readSign s).1)
  else none

/-- `readFloat`: the sign, and the size as it is written. -/
def readFloat (s : List Char) : Option (Bool × ℚ) :=
  let unsigned := (readSign s).2
  let hex := isBased ['x'] unsigned
  let (m, rest) := readMantissa hex {} (if hex then unsigned.drop 2 else unsigned)
  let exponent : Option Int :=
    match rest with
    | [] => if hex then none else some 0
    | c :: rest => if c.toLower = (if hex then 'p' else 'e') then readExponent rest else none
  if m.sawDigits && underscoreOK s then
    exponent.map fun e =>
      ((readSign s).1,
        if hex then (m.value : ℚ) * 2 ^ (e - 4 * (m.fraction : Int))
        else (m.value : ℚ) * 10 ^ (e - (m.fraction : Int)))
  else none

def parseFloat (s : List Char) : Option Binary64 :=
  match special s with
  | some x => some x
  | none =>
      match readFloat s with
      | none => none
      | some (negative, x) =>
          match Binary64.round negative x with
          | .infinite _ => none
          | x => some x

/-! ## Integers -/

/-- `ParseInt` with base 10 and 64 bits. -/
def parseInt (s : List Char) : Option Int :=
  let digits := (readSign s).2
  if digits = [] || !digits.all Char.isDigit then none
  else
    let n := Nat.ofDigitChars 10 digits 0
    if (readSign s).1 then if n ≤ 2 ^ 63 then some (-(n : Int)) else none
    else if n < 2 ^ 63 then some (n : Int) else none

/-! ## Plain digits -/

theorem not_digit {c d : Char} (h : c.isDigit = true) (hd : d.isDigit = false) : c ≠ d := by
  rintro rfl
  rw [h] at hd
  cases hd

theorem bounds_of_isDigit {c : Char} (h : c.isDigit = true) : 48 ≤ c.toNat ∧ c.toNat ≤ 57 := by
  have hbounds : 48 ≤ c.val ∧ c.val ≤ 57 := by simpa [Char.isDigit] using h
  exact hbounds

theorem toLower_of_isDigit {c : Char} (h : c.isDigit = true) : c.toLower = c := by
  refine dif_neg fun hupper => ?_
  have hle := (bounds_of_isDigit h).2
  have hge : 65 ≤ c.toNat := hupper.1
  omega

theorem toUpper_of_isDigit {c : Char} (h : c.isDigit = true) : c.toUpper = c := by
  refine dif_neg fun hlower => ?_
  have hle := (bounds_of_isDigit h).2
  have hge : 97 ≤ c.toNat := hlower.1
  omega

variable {c : Char} {l : List Char}

theorem readSign_digits (h : ∀ c ∈ l, c.isDigit = true) : readSign l = (false, l) := by
  unfold readSign
  split
  · exact absurd (h '-' List.mem_cons_self) (by decide)
  · exact absurd (h '+' List.mem_cons_self) (by decide)
  · rfl

theorem digitOf_digit (hex : Bool) (h : c.isDigit = true) :
    digitOf hex c = some (c.toNat - '0'.toNat) :=
  if_pos h

theorem readMantissa_digits (h : ∀ c ∈ l, c.isDigit = true) (m : Mantissa)
    (hdot : m.sawDot = false) :
    readMantissa false m l =
      ({ m with
          value := Nat.ofDigitChars 10 l m.value
          sawDigits := m.sawDigits || l ≠ [] }, []) := by
  induction l generalizing m with
  | nil => simp [readMantissa]
  | cons c l ih =>
      have hc := h c List.mem_cons_self
      rw [readMantissa, if_neg (not_digit hc (by decide)), if_neg (not_digit hc (by decide)),
        digitOf_digit false hc]
      refine (ih (fun d hd => h d (List.mem_cons_of_mem _ hd)) (m.push 10 _) hdot).trans ?_
      rw [Nat.ofDigitChars_cons]
      simp [Mantissa.push, hdot]

theorem isBased_digits {marks : List Char} (hmarks : marks.any Char.isDigit = false)
    (h : ∀ c ∈ l, c.isDigit = true) : isBased marks l = false := by
  refine Bool.and_eq_false_iff.2 (.inr ?_)
  cases hget : l[1]? with
  | none => rfl
  | some c =>
      have hc := h c (List.mem_of_getElem? hget)
      show decide (c.toLower ∈ marks) = false
      rw [toLower_of_isDigit hc, decide_eq_false_iff_not]
      exact fun hmem => not_digit hc (Bool.eq_false_iff.2 (List.any_eq_false.1 hmarks c hmem)) rfl

theorem underscoreOK_digits (h : ∀ c ∈ l, c.isDigit = true) : underscoreOK l = true := by
  have hfold : ∀ saw : Saw, saw ≠ .underscore →
      ∃ last, l.foldlM (underscoreStep false) saw = some last ∧ last ≠ .underscore := by
    induction l with
    | nil => exact fun saw hsaw => ⟨saw, rfl, hsaw⟩
    | cons c l ih =>
        intro saw _
        have hstep : underscoreStep false saw c = some .digit := by
          rw [underscoreStep, digitOf_digit false (h c List.mem_cons_self)]
          rfl
        rw [List.foldlM_cons, hstep]
        exact ih (fun d hd => h d (List.mem_cons_of_mem _ hd)) .digit (by decide)
  obtain ⟨last, hlast, hne⟩ := hfold .start (by decide)
  unfold underscoreOK
  rw [readSign_digits h]
  dsimp only
  rw [isBased_digits (by decide) h, isBased_digits (by decide) h]
  simp only [Bool.false_eq_true, if_false, hlast]
  exact decide_eq_true hne

theorem special_digits (h : ∀ c ∈ l, c.isDigit = true) : special l = none := by
  have hlower : l.map Char.toLower = l :=
    (List.map_congr_left fun c hc => toLower_of_isDigit (h c hc)).trans (List.map_id _)
  have hword : ∀ word : List Char, word.all Char.isDigit = false → l ≠ word := by
    rintro word hany rfl
    rw [List.all_eq_true.2 h] at hany
    cases hany
  have hinfinite : l ∉ ["inf".toList, "infinity".toList] := by
    intro hmem
    rcases List.mem_cons.1 hmem with heq | hmem
    · exact hword _ (by decide) heq
    · exact hword _ (by decide) (List.mem_singleton.1 hmem)
  rw [special, readSign_digits h, hlower, if_neg (hword _ (by decide)), if_neg hinfinite]

theorem readFloat_digits (h : ∀ c ∈ l, c.isDigit = true) (hne : l ≠ []) :
    readFloat l = some (false, (Nat.ofDigitChars 10 l 0 : ℚ)) := by
  unfold readFloat
  rw [readSign_digits h]
  dsimp only
  rw [isBased_digits (by decide) h]
  simp only [Bool.false_eq_true, if_false, readMantissa_digits h {} rfl]
  simp [hne, underscoreOK_digits h]

/-- The digits of an integer are read as the nearest float64. -/
theorem parseFloat_toDigits {n : Nat} (h : Binary64.nearest n < 2 ^ 1024) :
    parseFloat (Nat.toDigits 10 n) = some (Binary64.ofNat n) := by
  have hdigits : ∀ c ∈ Nat.toDigits 10 n, c.isDigit = true := fun c hc =>
    Nat.isDigit_of_mem_toDigits (by decide) (by decide) hc
  rw [parseFloat, special_digits hdigits, readFloat_digits hdigits Nat.toDigits_ne_nil,
    Nat.ofDigitChars_ten_toDigits, Binary64.ofNat]
  dsimp only
  rw [Binary64.round_eq false h]

end RelayLifeline.Lib.Strconv
