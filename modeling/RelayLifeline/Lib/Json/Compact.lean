import RelayLifeline.Lib.Json.Twin
import Mathlib.Data.Bool.AllAny
import RelayLifeline.Lib.Json.Write

/-!
# Compacting a text

`json.Marshal` writes a `json.RawMessage`, and what a `MarshalJSON` returns, as it
is but for the whitespace between the tokens, and escapes in the strings what may
not stand in HTML. It goes through the text byte by byte. On the text of a
document that makes the text of another, without whitespace, and on that one it
changes nothing.
-/

namespace RelayLifeline.Lib.Json

/-- Where the scanner is: between tokens or in one that is no string, in a
string, or behind a backslash in it. -/
inductive Place where
  | outside
  | inside
  | escaped
  deriving DecidableEq

def Place.next (place : Place) (c : UInt8) : Place :=
  match place with
  | .outside => if c = quoteMark then .inside else .outside
  | .inside =>
      if c = quoteMark then .outside else if c = backslash then .escaped else .inside
  | .escaped => .inside

def isHTML (c : UInt8) : Bool := c = 0x3c || c = 0x3e || c = 0x26

/-- The text begins with U+2028 or U+2029. -/
def isSeparator : Text → Bool
  | c :: d :: e :: _ => c = 0xe2 && d = 0x80 && (e = 0xa8 || e = 0xa9)
  | _ => false

/-- How a separator is escaped, by its last byte. -/
def escapeSeparator (e : UInt8) : Text :=
  [backslash, 0x75, 0x32, 0x30, 0x32, hexDigit (e % 16)]

/-- The loop of `appendCompact`, HTML escaping on. So many bytes belong to a
separator that is written already. -/
def compactFrom : Place → Nat → Text → Text
  | _, _, [] => []
  | place, skip + 1, c :: rest => compactFrom (place.next c) skip rest
  | place, 0, c :: rest =>
      if isHTML c then escapeUnit c ++ compactFrom (place.next c) 0 rest
      else if isSeparator (c :: rest) then
        escapeSeparator (rest.getD 1 0) ++ compactFrom (place.next c) 2 rest
      else if place = .outside ∧ isSpace c = true then compactFrom place 0 rest
      else c :: compactFrom (place.next c) 0 rest

/-- `appendCompact`: none where the text is not valid. -/
def compact (s : Text) : Option Text := if valid s then some (compactFrom .outside 0 s) else none

/-! ## In a string -/

/-- What is written for the text between the quotes of a string. -/
inductive Shielded : Text → Text → Prop
  | nil : Shielded [] []
  | char {c : UInt8} {s t : Text} (hc : ¬ c < 0x20) (hquote : c ≠ quoteMark)
      (hbackslash : c ≠ backslash) (hhtml : isHTML c = false)
      (hseparator : isSeparator (c :: s) = false) (h : Shielded s t) : Shielded (c :: s) (c :: t)
  | html {c : UInt8} {s t : Text} (hhtml : isHTML c = true) (h : Shielded s t) :
      Shielded (c :: s) (escapeUnit c ++ t)
  | separator {e : UInt8} {s t : Text} (he : e = 0xa8 ∨ e = 0xa9) (h : Shielded s t) :
      Shielded (0xe2 :: 0x80 :: e :: s) (escapeSeparator e ++ t)
  | escape {e : UInt8} {s t : Text} (he : isEscape e = true) (h : Shielded s t) :
      Shielded (backslash :: e :: s) (backslash :: e :: t)
  | unicode {i j k l : UInt8} {s t : Text}
      (hhex : (isHexDigit i && isHexDigit j && isHexDigit k && isHexDigit l) = true)
      (h : Shielded s t) :
      Shielded (backslash :: 0x75 :: i :: j :: k :: l :: s)
        (backslash :: 0x75 :: i :: j :: k :: l :: t)

theorem isHTML_iff {c : UInt8} : isHTML c = true ↔ c = 0x3c ∨ c = 0x3e ∨ c = 0x26 := by
  simp only [isHTML, Bool.or_eq_true, decide_eq_true_eq, or_assoc]

theorem isSeparator_iff {s : Text} :
    isSeparator s = true ↔ ∃ e rest, s = 0xe2 :: 0x80 :: e :: rest ∧ (e = 0xa8 ∨ e = 0xa9) := by
  constructor
  · intro h
    match s with
    | c :: d :: e :: rest =>
      simp only [isSeparator, Bool.and_eq_true, Bool.or_eq_true, decide_eq_true_eq] at h
      obtain ⟨⟨rfl, rfl⟩, he⟩ := h
      exact ⟨e, rest, rfl, he⟩
  · rintro ⟨e, rest, rfl, he⟩
    simpa [isSeparator] using he

theorem IsString.tail_of_plain {c : UInt8} {s : Text} (h : IsString (c :: s))
    (hc : c ≠ backslash) : IsString s := by
  cases h with
  | char _ _ _ h => exact h
  | escape _ _ => exact absurd rfl hc
  | unicode _ _ => exact absurd rfl hc

/-- Every string is written somehow. The induction is on its length, since a
separator takes three bytes of it. -/
theorem exists_shielded : ∀ (n : Nat) {s : Text}, s.length ≤ n → IsString s →
    ∃ t, Shielded s t := by
  intro n
  induction n with
  | zero =>
      intro s hn _
      obtain rfl := List.length_eq_zero_iff.1 (Nat.le_zero.1 hn)
      exact ⟨[], .nil⟩
  | succ n ih =>
      intro s hn h
      cases h with
      | nil => exact ⟨[], .nil⟩
      | @char c s hc hquote hbackslash h =>
          rw [List.length_cons] at hn
          cases hhtml : isHTML c with
          | true =>
              obtain ⟨t, ht⟩ := ih (by omega) h
              exact ⟨_, .html hhtml ht⟩
          | false =>
              cases hseparator : isSeparator (c :: s) with
              | true =>
                  obtain ⟨e, rest, heq, he⟩ := isSeparator_iff.1 hseparator
                  obtain ⟨rfl, rfl⟩ := List.cons.inj heq
                  have hlast : e ≠ backslash := by
                    rintro rfl
                    exact absurd he (by decide)
                  have hrest := (h.tail_of_plain (by decide)).tail_of_plain hlast
                  simp only [List.length_cons] at hn
                  obtain ⟨t, ht⟩ := ih (by omega) hrest
                  exact ⟨_, .separator he ht⟩
              | false =>
                  obtain ⟨t, ht⟩ := ih (by omega) h
                  exact ⟨_, .char hc hquote hbackslash hhtml hseparator ht⟩
      | escape he h =>
          simp only [List.length_cons] at hn
          obtain ⟨t, ht⟩ := ih (by omega) h
          exact ⟨_, .escape he ht⟩
      | unicode hhex h =>
          simp only [List.length_cons] at hn
          obtain ⟨t, ht⟩ := ih (by omega) h
          exact ⟨_, .unicode hhex ht⟩

/-- What is written is a string. -/
theorem Shielded.isString {s t : Text} (h : Shielded s t) : IsString t := by
  induction h with
  | nil => exact .nil
  | char hc hquote hbackslash _ _ _ ih => exact .char hc hquote hbackslash ih
  | html hhtml _ ih =>
      refine .unicode ?_ ih
      rcases isHTML_iff.1 hhtml with rfl | rfl | rfl <;> decide
  | separator he _ ih =>
      refine .unicode ?_ ih
      rcases he with rfl | rfl <;> decide
  | escape he _ ih => exact .escape he ih
  | unicode hhex _ ih => exact .unicode hhex ih

/-- A byte of it that is no backslash was there before. -/
theorem Shielded.of_plain {s t : Text} {c : UInt8} (h : Shielded s (c :: t)) (hc : c ≠ backslash) :
    ∃ s', s = c :: s' ∧ Shielded s' t := by
  generalize ht : c :: t = u at h
  cases h with
  | nil => cases ht
  | char _ _ _ _ _ h =>
      obtain ⟨rfl, rfl⟩ := List.cons.inj ht
      exact ⟨_, rfl, h⟩
  | html _ _ => exact absurd (List.cons.inj ht).1 hc
  | separator _ _ => exact absurd (List.cons.inj ht).1 hc
  | escape _ _ => exact absurd (List.cons.inj ht).1 hc
  | unicode _ _ => exact absurd (List.cons.inj ht).1 hc

/-- It makes no separator of what was none. -/
theorem Shielded.isSeparator {s t : Text} {c : UInt8} (h : Shielded s t)
    (hc : isSeparator (c :: s) = false) : isSeparator (c :: t) = false := by
  cases ht : Json.isSeparator (c :: t) with
  | false => rfl
  | true =>
      obtain ⟨e, rest, heq, he⟩ := isSeparator_iff.1 ht
      obtain ⟨rfl, rfl⟩ := List.cons.inj heq
      have hlast : e ≠ backslash := by
        rintro rfl
        exact absurd he (by decide)
      obtain ⟨s', rfl, h'⟩ := h.of_plain (by decide)
      obtain ⟨s'', rfl, -⟩ := h'.of_plain hlast
      rw [isSeparator_iff.2 ⟨e, s'', rfl, he⟩] at hc
      cases hc

/-- What is written is written as it is. -/
theorem Shielded.idem {s t : Text} (h : Shielded s t) : Shielded t t := by
  induction h with
  | nil => exact .nil
  | char hc hquote hbackslash hhtml hseparator h ih =>
      exact .char hc hquote hbackslash hhtml (h.isSeparator hseparator) ih
  | html hhtml _ ih =>
      refine .unicode ?_ ih
      rcases isHTML_iff.1 hhtml with rfl | rfl | rfl <;> decide
  | separator he _ ih =>
      refine .unicode ?_ ih
      rcases he with rfl | rfl <;> decide
  | escape he _ ih => exact .escape he ih
  | unicode hhex _ ih => exact .unicode hhex ih

/-! ## What the loop makes of it -/

theorem compactFrom_byte {place : Place} {c : UInt8} {rest : Text} (hhtml : isHTML c = false)
    (hseparator : isSeparator (c :: rest) = false)
    (hspace : ¬ (place = .outside ∧ isSpace c = true)) :
    compactFrom place 0 (c :: rest) = c :: compactFrom (place.next c) 0 rest := by
  rw [compactFrom, hhtml, if_neg Bool.false_ne_true, hseparator, if_neg Bool.false_ne_true,
    if_neg hspace]

theorem isSeparator_of_ne {c : UInt8} (h : c ≠ 0xe2) (rest : Text) :
    isSeparator (c :: rest) = false := by
  rw [Bool.eq_false_iff, ne_eq, isSeparator_iff]
  rintro ⟨e, rest', heq, -⟩
  exact h (List.cons.inj heq).1

/-- A text begins with ASCII, if it begins. -/
def BeginsASCII (rest : Text) : Prop := ∀ b, rest.head? = some b → b < 0x80

theorem beginsASCII_nil : BeginsASCII [] := fun b hb => absurd hb.symm (Option.some_ne_none b)

/-- What follows makes no separator of what was none, where it begins with ASCII. -/
theorem isSeparator_append {c : UInt8} {s rest : Text} (h : isSeparator (c :: s) = false)
    (hrest : BeginsASCII rest) : isSeparator (c :: (s ++ rest)) = false := by
  rw [Bool.eq_false_iff, ne_eq, isSeparator_iff]
  rintro ⟨e, more, heq, he⟩
  have hhead : ∀ b more, 0x80 ≤ b → rest ≠ b :: more := by
    rintro b more hb rfl
    exact absurd (hrest b rfl) (UInt8.not_lt.2 hb)
  obtain ⟨rfl, htail⟩ := List.cons.inj heq
  match s with
  | [] => exact hhead 0x80 _ (by decide) htail
  | [d] =>
      refine hhead e more ?_ (List.cons.inj htail).2
      rcases he with rfl | rfl <;> decide
  | d :: e' :: s =>
      obtain ⟨rfl, hmore⟩ := List.cons.inj htail
      obtain ⟨rfl, -⟩ := List.cons.inj hmore
      rw [isSeparator_iff.2 ⟨e', s, rfl, he⟩] at h
      cases h

/-- A byte of ASCII in a string that ends it not and that stands for itself. -/
theorem compactFrom_inside {c : UInt8} (h : c ≠ quoteMark ∧ c ≠ backslash ∧ c ≠ 0xe2)
    (hhtml : isHTML c = false) (rest : Text) :
    compactFrom .inside 0 (c :: rest) = c :: compactFrom .inside 0 rest := by
  rw [compactFrom_byte hhtml (isSeparator_of_ne h.2.2 rest) (by rintro ⟨hplace, -⟩; cases hplace),
    Place.next, if_neg h.1, if_neg h.2.1]

theorem compactFrom_backslash {e : UInt8} (h : e ≠ 0xe2) (hhtml : isHTML e = false) (rest : Text) :
    compactFrom .inside 0 (backslash :: e :: rest) =
      backslash :: e :: compactFrom .inside 0 rest := by
  rw [compactFrom_byte (by decide) (isSeparator_of_ne (by decide) _)
    (by rintro ⟨hplace, -⟩; cases hplace)]
  show backslash :: compactFrom .escaped 0 (e :: rest) = _
  rw [compactFrom_byte hhtml (isSeparator_of_ne h _) (by rintro ⟨hplace, -⟩; cases hplace)]
  rfl

theorem plain_of_isHexDigit {c : UInt8} (h : isHexDigit c = true) :
    (c ≠ quoteMark ∧ c ≠ backslash ∧ c ≠ 0xe2) ∧ isHTML c = false := by
  refine ⟨⟨?_, ?_, ?_⟩, ?_⟩
  · rintro rfl
    exact absurd h (by decide)
  · rintro rfl
    exact absurd h (by decide)
  · rintro rfl
    exact absurd h (by decide)
  · rw [Bool.eq_false_iff, ne_eq, isHTML_iff]
    rintro (rfl | rfl | rfl) <;> exact absurd h (by decide)

theorem Shielded.compactFrom {s t : Text} (h : Shielded s t) {rest : Text}
    (hrest : BeginsASCII rest) :
    compactFrom .inside 0 (s ++ rest) = t ++ compactFrom .inside 0 rest := by
  induction h with
  | nil => rfl
  | char hc hquote hbackslash hhtml hseparator _ ih =>
      rw [List.cons_append, compactFrom_byte hhtml (isSeparator_append hseparator hrest)
        (by rintro ⟨hplace, -⟩; cases hplace), Place.next, if_neg hquote, if_neg hbackslash, ih]
      rfl
  | @html c s t hhtml _ ih =>
      have hnext : Place.inside.next c = .inside := by
        rcases isHTML_iff.1 hhtml with rfl | rfl | rfl <;> decide
      rw [List.cons_append, Json.compactFrom, if_pos hhtml, hnext, ih, List.append_assoc]
  | @separator e s t he _ ih =>
      have hseparator : Json.isSeparator (0xe2 :: 0x80 :: e :: (s ++ rest)) = true :=
        isSeparator_iff.2 ⟨e, s ++ rest, rfl, he⟩
      have hnext : Place.inside.next e = .inside := by
        rcases he with rfl | rfl <;> decide
      rw [List.cons_append, List.cons_append, List.cons_append, Json.compactFrom,
        if_neg (by decide), if_pos hseparator]
      show escapeSeparator e ++ Json.compactFrom (Place.inside.next e) 0 (s ++ rest) = _
      rw [hnext, ih, List.append_assoc]
  | @escape e s t he _ ih =>
      have hplain : e ≠ 0xe2 ∧ isHTML e = false := by
        simp only [isEscape, List.mem_cons, List.not_mem_nil, or_false, decide_eq_true_eq] at he
        rcases he with rfl | rfl | rfl | rfl | rfl | rfl | rfl | rfl <;> decide
      rw [List.cons_append, List.cons_append, compactFrom_backslash hplain.1 hplain.2, ih]
      rfl
  | @unicode i j k l s t hhex _ ih =>
      simp only [Bool.and_eq_true] at hhex
      obtain ⟨hi, hi'⟩ := plain_of_isHexDigit hhex.1.1.1
      obtain ⟨hj, hj'⟩ := plain_of_isHexDigit hhex.1.1.2
      obtain ⟨hk, hk'⟩ := plain_of_isHexDigit hhex.1.2
      obtain ⟨hl, hl'⟩ := plain_of_isHexDigit hhex.2
      simp only [List.cons_append]
      rw [compactFrom_backslash (by decide) (by decide), compactFrom_inside hi hi',
        compactFrom_inside hj hj', compactFrom_inside hk hk', compactFrom_inside hl hl', ih]

/-! ## The document that is left -/

/-- What is written between the quotes of a string. -/
def compactString (s : Text) : Text := compactFrom .inside 0 s

theorem shielded_compactString {s : Text} (h : IsString s) : Shielded s (compactString s) := by
  obtain ⟨t, ht⟩ := exists_shielded s.length (Nat.le_refl _) h
  have heq := ht.compactFrom beginsASCII_nil
  rw [List.append_nil, compactFrom, List.append_nil] at heq
  rwa [compactString, heq]

theorem compactString_idem {s : Text} (h : IsString s) :
    compactString (compactString s) = compactString s := by
  have heq := (shielded_compactString h).idem.compactFrom beginsASCII_nil
  rwa [List.append_nil, compactFrom, List.append_nil] at heq

/-- A string is left with its quotes, and what follows is outside it. -/
theorem compactFrom_string {s : Text} (h : IsString s) (rest : Text) :
    compactFrom .inside 0 (s ++ quoteMark :: rest) =
      compactString s ++ quoteMark :: compactFrom .outside 0 rest := by
  have hquote : compactFrom .inside 0 (quoteMark :: rest) =
      quoteMark :: compactFrom .outside 0 rest :=
    compactFrom_byte (by decide) (isSeparator_of_ne (by decide) rest)
      (by rintro ⟨hplace, -⟩; cases hplace)
  rw [(shielded_compactString h).compactFrom, hquote]
  intro b hb
  rw [← Option.some.inj hb]
  decide

def Token.compact : Token → Token
  | .null => .null
  | .bool b => .bool b
  | .number text => .number text
  | .string text => .string (compactString text)

mutual

/-- The document without its whitespace, and with its strings escaped. -/
def Document.compact : Document → Document
  | .token token => .token token.compact
  | .emptyArray _ => .emptyArray []
  | .array items => .array items.compact
  | .emptyObject _ => .emptyObject []
  | .object members => .object members.compact

def Items.compact : Items → Items
  | .last _ item _ => .last [] item.compact []
  | .more _ item _ rest => .more [] item.compact [] rest.compact

def Members.compact : Members → Members
  | .last _ name _ _ value _ => .last [] (compactString name) [] [] value.compact []
  | .more _ name _ _ value _ rest =>
      .more [] (compactString name) [] [] value.compact [] rest.compact

end

theorem Token.wellFormed_compact {token : Token} (h : token.WellFormed) :
    token.compact.WellFormed := by
  cases token with
  | null => exact h
  | bool _ => exact h
  | number _ => exact h
  | string _ => exact (shielded_compactString h).isString

mutual

theorem Document.wellFormed_compact : ∀ {d : Document}, d.WellFormed → d.compact.WellFormed
  | .token _, h => Token.wellFormed_compact h
  | .emptyArray _, _ => isSpaces_nil
  | .array _, h => Items.wellFormed_compact h
  | .emptyObject _, _ => isSpaces_nil
  | .object _, h => Members.wellFormed_compact h

theorem Items.wellFormed_compact : ∀ {items : Items}, items.WellFormed → items.compact.WellFormed
  | .last _ _ _, ⟨_, hitem, _⟩ =>
      ⟨isSpaces_nil, Document.wellFormed_compact hitem, isSpaces_nil⟩
  | .more _ _ _ _, ⟨_, hitem, _, hrest⟩ =>
      ⟨isSpaces_nil, Document.wellFormed_compact hitem, isSpaces_nil,
        Items.wellFormed_compact hrest⟩

theorem Members.wellFormed_compact :
    ∀ {members : Members}, members.WellFormed → members.compact.WellFormed
  | .last _ _ _ _ _ _, ⟨_, hname, _, _, hvalue, _⟩ =>
      ⟨isSpaces_nil, (shielded_compactString hname).isString, isSpaces_nil, isSpaces_nil,
        Document.wellFormed_compact hvalue, isSpaces_nil⟩
  | .more _ _ _ _ _ _ _, ⟨_, hname, _, _, hvalue, _, hrest⟩ =>
      ⟨isSpaces_nil, (shielded_compactString hname).isString, isSpaces_nil, isSpaces_nil,
        Document.wellFormed_compact hvalue, isSpaces_nil, Members.wellFormed_compact hrest⟩

end

mutual

theorem Document.depth_compact : ∀ d : Document, d.compact.depth = d.depth
  | .token _ => rfl
  | .emptyArray _ => rfl
  | .array items => congrArg (· + 1) (Items.depth_compact items)
  | .emptyObject _ => rfl
  | .object members => congrArg (· + 1) (Members.depth_compact members)

theorem Items.depth_compact : ∀ items : Items, items.compact.depth = items.depth
  | .last _ item _ => Document.depth_compact item
  | .more _ item _ rest =>
      congrArg₂ max (Document.depth_compact item) (Items.depth_compact rest)

theorem Members.depth_compact : ∀ members : Members, members.compact.depth = members.depth
  | .last _ _ _ _ value _ => Document.depth_compact value
  | .more _ _ _ _ value _ rest =>
      congrArg₂ max (Document.depth_compact value) (Members.depth_compact rest)

end

mutual

theorem Document.compact_idem : ∀ {d : Document}, d.WellFormed → d.compact.compact = d.compact
  | .token token, h => by
      cases token with
      | null => rfl
      | bool _ => rfl
      | number _ => rfl
      | string text =>
          exact congrArg (fun text => Document.token (.string text)) (compactString_idem h)
  | .emptyArray _, _ => rfl
  | .array _, h => congrArg Document.array (Items.compact_idem h)
  | .emptyObject _, _ => rfl
  | .object _, h => congrArg Document.object (Members.compact_idem h)

theorem Items.compact_idem :
    ∀ {items : Items}, items.WellFormed → items.compact.compact = items.compact
  | .last _ _ _, ⟨_, hitem, _⟩ =>
      congrArg (fun item => Items.last [] item []) (Document.compact_idem hitem)
  | .more _ _ _ _, ⟨_, hitem, _, hrest⟩ =>
      congrArg₂ (fun item rest => Items.more [] item [] rest) (Document.compact_idem hitem)
        (Items.compact_idem hrest)

theorem Members.compact_idem :
    ∀ {members : Members}, members.WellFormed → members.compact.compact = members.compact
  | .last _ _ _ _ _ _, ⟨_, hname, _, _, hvalue, _⟩ =>
      congrArg₂ (fun name value => Members.last [] name [] [] value []) (compactString_idem hname)
        (Document.compact_idem hvalue)
  | .more _ _ _ _ _ _ _, ⟨_, hname, _, _, hvalue, _, hrest⟩ => by
      rw [Members.compact, Members.compact, compactString_idem hname,
        Document.compact_idem hvalue, Members.compact_idem hrest]

end

/-! ## The text that is left -/

/-- Bytes of a token that is no string. -/
def Bare (c : UInt8) : Prop :=
  ¬ c < 0x20 ∧ isSpace c = false ∧ c ≠ quoteMark ∧ isHTML c = false ∧ c ≠ 0xe2

instance (c : UInt8) : Decidable (Bare c) := inferInstanceAs (Decidable (_ ∧ _))

theorem compactFrom_bare {s : Text} (h : ∀ c ∈ s, Bare c) (rest : Text) :
    compactFrom .outside 0 (s ++ rest) = s ++ compactFrom .outside 0 rest := by
  induction s with
  | nil => rfl
  | cons c s ih =>
      obtain ⟨⟨-, hspace, hquote, hhtml, hseparator⟩, hs⟩ := List.forall_mem_cons.1 h
      rw [List.cons_append, compactFrom_byte hhtml (isSeparator_of_ne hseparator _)
        (by rw [hspace]; rintro ⟨-, htrue⟩; cases htrue), Place.next, if_neg hquote, ih hs]
      rfl

theorem compactFrom_spaces {s : Text} (h : IsSpaces s) (rest : Text) :
    compactFrom .outside 0 (s ++ rest) = compactFrom .outside 0 rest := by
  induction s with
  | nil => rfl
  | cons c s ih =>
      obtain ⟨hc, hs⟩ := List.forall_mem_cons.1 h
      have hplain : isHTML c = false ∧ c ≠ 0xe2 := by
        simp only [isSpace, Bool.or_eq_true, decide_eq_true_eq] at hc
        rcases hc with ((rfl | rfl) | rfl) | rfl <;> decide
      rw [List.cons_append, compactFrom, hplain.1, if_neg Bool.false_ne_true,
        isSeparator_of_ne hplain.2, if_neg Bool.false_ne_true, if_pos ⟨rfl, hc⟩, ih hs]

theorem compactFrom_mark {c : UInt8} (h : Bare c) (rest : Text) :
    compactFrom .outside 0 (c :: rest) = c :: compactFrom .outside 0 rest :=
  compactFrom_bare (s := [c]) (List.forall_mem_singleton.2 h) rest

theorem compactFrom_quoted {s : Text} (h : IsString s) (rest : Text) :
    compactFrom .outside 0 (quoteMark :: (s ++ quoteMark :: rest)) =
      quoteMark :: (compactString s ++ quoteMark :: compactFrom .outside 0 rest) := by
  rw [compactFrom_byte (by decide) (isSeparator_of_ne (by decide) _)
    (by rintro ⟨-, hspace⟩; exact absurd hspace (by decide))]
  exact congrArg (quoteMark :: ·) (compactFrom_string h rest)

theorem bare_digit {c : UInt8} (h : isDigit c = true) : Bare c := by
  refine ⟨?_, (begins_digit h).1, ?_, ?_, ?_⟩
  · rw [isDigit, Bool.and_eq_true, decide_eq_true_eq] at h
    exact UInt8.not_lt.2 (UInt8.le_trans (by decide) h.1)
  · rintro rfl
    exact absurd h (by decide)
  · rw [Bool.eq_false_iff, ne_eq, isHTML_iff]
    rintro (rfl | rfl | rfl) <;> exact absurd h (by decide)
  · rintro rfl
    exact absurd h (by decide)

theorem bare_digits {s : Text} (h : IsDigits s) : ∀ c ∈ s, Bare c := by
  cases h with
  | intro _ hall => exact fun c hc => bare_digit (hall c hc)

theorem bare_exponent {c : UInt8} (h : isExponent c = true) : Bare c := by
  simp only [isExponent, Bool.or_eq_true, decide_eq_true_eq] at h
  rcases h with rfl | rfl <;> decide

theorem bare_unsigned {s : Text} (h : IsUnsigned s) : ∀ c ∈ s, Bare c := by
  cases h with
  | intro hinteger hfraction hexponent =>
      refine List.forall_mem_append.2 ⟨List.forall_mem_append.2 ⟨?_, ?_⟩, ?_⟩
      · cases hinteger with
        | zero => exact List.forall_mem_singleton.2 (by decide)
        | digits _ h => exact bare_digits h
      · cases hfraction with
        | none => exact fun c hc => absurd hc List.not_mem_nil
        | digits h => exact List.forall_mem_cons.2 ⟨by decide, bare_digits h⟩
      · cases hexponent with
        | none => exact fun c hc => absurd hc List.not_mem_nil
        | plain he h => exact List.forall_mem_cons.2 ⟨bare_exponent he, bare_digits h⟩
        | @signed e sign s he hsign h =>
            have hbare : Bare sign := by
              simp only [Bool.or_eq_true, decide_eq_true_eq] at hsign
              rcases hsign with rfl | rfl <;> decide
            exact List.forall_mem_cons.2
              ⟨bare_exponent he, List.forall_mem_cons.2 ⟨hbare, bare_digits h⟩⟩

theorem bare_number {s : Text} (h : IsNumber s) : ∀ c ∈ s, Bare c := by
  cases h with
  | plain h => exact bare_unsigned h
  | negative h => exact List.forall_mem_cons.2 ⟨by decide, bare_unsigned h⟩

theorem Token.compactFrom {token : Token} (h : token.WellFormed) (rest : Text) :
    compactFrom .outside 0 (token.text ++ rest) =
      token.compact.text ++ compactFrom .outside 0 rest := by
  cases token with
  | null => exact compactFrom_bare (List.all_iff_forall_prop.1 (by decide)) rest
  | bool b =>
      cases b with
      | false => exact compactFrom_bare (List.all_iff_forall_prop.1 (by decide)) rest
      | true => exact compactFrom_bare (List.all_iff_forall_prop.1 (by decide)) rest
  | number text => exact compactFrom_bare (bare_number h) rest
  | string text =>
      rw [Token.text, List.cons_append, List.append_assoc, List.singleton_append,
        compactFrom_quoted h, Token.compact, Token.text, List.cons_append, List.append_assoc]
      rfl

mutual

/-- The text of a document is written as the text of the document that is left. -/
theorem Document.compactFrom : ∀ {d : Document} (_ : d.WellFormed) (rest : Text),
    compactFrom .outside 0 (d.text ++ rest) = d.compact.text ++ compactFrom .outside 0 rest
  | .token _, h, rest => Token.compactFrom h rest
  | .emptyArray space, h, rest => by
      rw [Document.text, List.cons_append, List.append_assoc, compactFrom_mark (by decide),
        compactFrom_spaces h, List.singleton_append, compactFrom_mark (by decide)]
      rfl
  | .array items, h, rest => by
      rw [Document.text, List.cons_append, List.append_assoc, compactFrom_mark (by decide),
        Items.compactFrom h, List.singleton_append, compactFrom_mark (by decide), Document.compact,
        Document.text, List.cons_append, List.append_assoc]
      rfl
  | .emptyObject space, h, rest => by
      rw [Document.text, List.cons_append, List.append_assoc, compactFrom_mark (by decide),
        compactFrom_spaces h, List.singleton_append, compactFrom_mark (by decide)]
      rfl
  | .object members, h, rest => by
      rw [Document.text, List.cons_append, List.append_assoc, compactFrom_mark (by decide),
        Members.compactFrom h, List.singleton_append, compactFrom_mark (by decide),
        Document.compact, Document.text, List.cons_append, List.append_assoc]
      rfl

theorem Items.compactFrom : ∀ {items : Items} (_ : items.WellFormed) (rest : Text),
    compactFrom .outside 0 (items.text ++ rest) =
      items.compact.text ++ compactFrom .outside 0 rest
  | .last before item after, ⟨hbefore, hitem, hafter⟩, rest => by
      rw [Items.text, List.append_assoc, List.append_assoc, compactFrom_spaces hbefore,
        Document.compactFrom hitem, compactFrom_spaces hafter, Items.compact, Items.text,
        List.nil_append, List.append_nil]
  | .more before item after more, ⟨hbefore, hitem, hafter, hmore⟩, rest => by
      rw [Items.text, List.append_assoc, List.append_assoc, List.append_assoc, List.cons_append,
        compactFrom_spaces hbefore, Document.compactFrom hitem, compactFrom_spaces hafter,
        compactFrom_mark (by decide), Items.compactFrom hmore, Items.compact, Items.text,
        List.nil_append, List.nil_append, List.append_assoc, List.cons_append]

theorem Members.compactFrom : ∀ {members : Members} (_ : members.WellFormed) (rest : Text),
    compactFrom .outside 0 (members.text ++ rest) =
      members.compact.text ++ compactFrom .outside 0 rest
  | .last before name middle space value after, ⟨hbefore, hname, hmiddle, hspace, hvalue, hafter⟩,
      rest => by
      simp only [Members.text, List.append_assoc, List.cons_append]
      rw [compactFrom_spaces hbefore, compactFrom_quoted hname, compactFrom_spaces hmiddle,
        compactFrom_mark (by decide), compactFrom_spaces hspace, Document.compactFrom hvalue,
        compactFrom_spaces hafter]
      simp only [Members.compact, Members.text, List.nil_append, List.append_nil,
        List.append_assoc, List.cons_append]
  | .more before name middle space value after more,
      ⟨hbefore, hname, hmiddle, hspace, hvalue, hafter, hmore⟩, rest => by
      simp only [Members.text, List.append_assoc, List.cons_append]
      rw [compactFrom_spaces hbefore, compactFrom_quoted hname, compactFrom_spaces hmiddle,
        compactFrom_mark (by decide), compactFrom_spaces hspace, Document.compactFrom hvalue,
        compactFrom_spaces hafter, compactFrom_mark (by decide), Members.compactFrom hmore]
      simp only [Members.compact, Members.text, List.nil_append, List.append_assoc,
        List.cons_append]

end

theorem Document.compactFrom_text {d : Document} (h : d.WellFormed) :
    Json.compactFrom .outside 0 d.text = d.compact.text := by
  have heq := Document.compactFrom h []
  rwa [List.append_nil, Json.compactFrom, List.append_nil] at heq

theorem Document.valid {d : Document} (h : d.WellFormed) (hdepth : d.depth ≤ maxNestingDepth) :
    valid d.text = true := by
  have hread := unmarshal_document (⟨some, id⟩ : Numbers Text) h hdepth isSpaces_nil isSpaces_nil
  rw [List.nil_append, List.append_nil] at hread
  rw [Json.valid, hread]
  exact d.isSome_value

/-- **The text of a document is compacted to the text of the document that is left.** -/
theorem compact_document {d : Document} (h : d.WellFormed) (hdepth : d.depth ≤ maxNestingDepth) :
    compact d.text = some d.compact.text := by
  rw [compact, if_pos (Document.valid h hdepth), Document.compactFrom_text h]

end RelayLifeline.Lib.Json
