import RelayLifeline.Lib.Json.Token

/-!
# Documents

A document is a JSON text with its structure: the tokens and the whitespace
between them as they are written. Decoding its text gives the value of the
document, where the values in it nest no deeper than the bound and `strconv`
takes the numbers.
-/

namespace RelayLifeline.Lib.Json

inductive Token where
  | null
  | bool (b : Bool)
  | number (text : Text)
  | string (text : Text)

mutual

inductive Document where
  | token (token : Token)
  | emptyArray (space : Text)
  | array (items : Items)
  | emptyObject (space : Text)
  | object (members : Members)

/-- The items of an array, each with the whitespace around it. -/
inductive Items where
  | last (before : Text) (item : Document) (after : Text)
  | more (before : Text) (item : Document) (after : Text) (rest : Items)

/-- The members of an object, each with the whitespace before its name, around
the colon and after its value. -/
inductive Members where
  | last (before name middle space : Text) (value : Document) (after : Text)
  | more (before name middle space : Text) (value : Document) (after : Text) (rest : Members)

end

def Token.text : Token → Text
  | .null => nullWord
  | .bool b => if b then trueWord else falseWord
  | .number text => text
  | .string text => quoteMark :: (text ++ [quoteMark])

mutual

def Document.text : Document → Text
  | .token token => token.text
  | .emptyArray space => openBracket :: (space ++ [closeBracket])
  | .array items => openBracket :: (items.text ++ [closeBracket])
  | .emptyObject space => openBrace :: (space ++ [closeBrace])
  | .object members => openBrace :: (members.text ++ [closeBrace])

def Items.text : Items → Text
  | .last before item after => before ++ (item.text ++ after)
  | .more before item after rest => before ++ (item.text ++ (after ++ comma :: rest.text))

def Members.text : Members → Text
  | .last before name middle space value after =>
      before ++ quoteMark :: (name ++ quoteMark ::
        (middle ++ colon :: (space ++ (value.text ++ after))))
  | .more before name middle space value after rest =>
      before ++ quoteMark :: (name ++ quoteMark ::
        (middle ++ colon :: (space ++ (value.text ++ (after ++ comma :: rest.text)))))

end

/-- Nothing but whitespace. -/
def IsSpaces (s : Text) : Prop := ∀ c ∈ s, isSpace c = true

theorem isSpaces_nil : IsSpaces [] := fun _ hc => absurd hc List.not_mem_nil

def Token.WellFormed : Token → Prop
  | .null | .bool _ => True
  | .number text => IsNumber text
  | .string text => IsString text

mutual

/-- The text of the document follows the grammar. -/
def Document.WellFormed : Document → Prop
  | .token token => token.WellFormed
  | .emptyArray space | .emptyObject space => IsSpaces space
  | .array items => items.WellFormed
  | .object members => members.WellFormed

def Items.WellFormed : Items → Prop
  | .last before item after => IsSpaces before ∧ item.WellFormed ∧ IsSpaces after
  | .more before item after rest =>
      IsSpaces before ∧ item.WellFormed ∧ IsSpaces after ∧ rest.WellFormed

def Members.WellFormed : Members → Prop
  | .last before name middle space value after =>
      IsSpaces before ∧ IsString name ∧ IsSpaces middle ∧ IsSpaces space ∧ value.WellFormed ∧
        IsSpaces after
  | .more before name middle space value after rest =>
      IsSpaces before ∧ IsString name ∧ IsSpaces middle ∧ IsSpaces space ∧ value.WellFormed ∧
        IsSpaces after ∧ rest.WellFormed

end

mutual

/-- How deep the values in the document nest. -/
def Document.depth : Document → Nat
  | .token _ => 0
  | .emptyArray _ | .emptyObject _ => 1
  | .array items => items.depth + 1
  | .object members => members.depth + 1

def Items.depth : Items → Nat
  | .last _ item _ => item.depth
  | .more _ item _ rest => max item.depth rest.depth

def Members.depth : Members → Nat
  | .last _ _ _ _ value _ => value.depth
  | .more _ _ _ _ value _ rest => max value.depth rest.depth

end

variable {F : Type} (numbers : Numbers F)

def Token.value : Token → Option (Value F)
  | .null => some .null
  | .bool b => some (.bool b)
  | .number text => (numbers.parse text).map .number
  | .string text => some (.string (unquote text))

mutual

/-- What the document decodes to, if `strconv` takes its numbers. -/
def Document.value : Document → Option (Value F)
  | .token token => token.value numbers
  | .emptyArray _ => some (.array [])
  | .array items => items.values.map .array
  | .emptyObject _ => some (.object [])
  | .object members => members.values.map fun values => .object (collect values)

def Items.values : Items → Option (List (Value F))
  | .last _ item _ => item.value.map ([·])
  | .more _ item _ rest => item.value.bind fun value => rest.values.map (value :: ·)

def Members.values : Members → Option (List (Text × Value F))
  | .last _ name _ _ value _ => value.value.map fun value => [(unquote name, value)]
  | .more _ name _ _ value _ rest =>
      value.value.bind fun value => rest.values.map ((unquote name, value) :: ·)

end

/-! ## Reading a document -/

theorem dropWhile_spaces {s : Text} (h : IsSpaces s) (t : Text) :
    (s ++ t).dropWhile isSpace = t.dropWhile isSpace :=
  List.dropWhile_append_of_pos h

theorem dropWhile_cons {c : UInt8} (h : isSpace c = false) (t : Text) :
    (c :: t).dropWhile isSpace = c :: t :=
  List.dropWhile_cons_of_neg (by simp [h])

/-- What the text of a value begins with. -/
def Begins (c : UInt8) : Prop := isSpace c = false ∧ c ≠ closeBracket

instance (c : UInt8) : Decidable (Begins c) := inferInstanceAs (Decidable (_ ∧ _))

theorem begins_digit {c : UInt8} (h : isDigit c = true) : Begins c := by
  constructor
  · rw [isSpace]
    simp only [Bool.or_eq_false_iff, decide_eq_false_iff_not]
    refine ⟨⟨⟨?_, ?_⟩, ?_⟩, ?_⟩ <;> rintro rfl <;> exact absurd h (by decide)
  · rintro rfl
    exact absurd h (by decide)

theorem IsNumber.cons {s : Text} (h : IsNumber s) :
    ∃ c t, s = c :: t ∧ (c = 0x2d ∨ isDigit c = true) := by
  cases h with
  | negative => exact ⟨_, _, rfl, .inl rfl⟩
  | plain h =>
    cases h with
    | intro hinteger _ _ =>
      cases hinteger with
      | zero => exact ⟨_, _, rfl, .inr (by decide)⟩
      | digits _ hdigits =>
        cases hdigits with
        | intro _ hall => exact ⟨_, _, rfl, .inr (hall _ List.mem_cons_self)⟩

theorem Token.cons {token : Token} (h : token.WellFormed) :
    ∃ c t, token.text = c :: t ∧ Begins c ∧ c ≠ openBracket ∧ c ≠ openBrace := by
  cases token with
  | null => exact ⟨_, _, rfl, by decide⟩
  | bool b =>
    cases b with
    | false => exact ⟨_, _, rfl, by decide⟩
    | true => exact ⟨_, _, rfl, by decide⟩
  | string text => exact ⟨_, _, rfl, by decide⟩
  | number text =>
    obtain ⟨c, t, rfl, hc⟩ := IsNumber.cons h
    refine ⟨c, t, rfl, ?_⟩
    rcases hc with rfl | hdigit
    · decide
    · refine ⟨begins_digit hdigit, ?_, ?_⟩ <;> rintro rfl <;> exact absurd hdigit (by decide)

theorem Document.cons {d : Document} (h : d.WellFormed) : ∃ c t, d.text = c :: t ∧ Begins c := by
  cases d with
  | token token =>
    obtain ⟨c, t, htext, hc, -⟩ := Token.cons h
    exact ⟨c, t, htext, hc⟩
  | emptyArray space => exact ⟨_, _, rfl, by decide⟩
  | array items => exact ⟨_, _, rfl, by decide⟩
  | emptyObject space => exact ⟨_, _, rfl, by decide⟩
  | object members => exact ⟨_, _, rfl, by decide⟩

/-- A token is read as it is written. -/
theorem Token.read {token : Token} (h : token.WellFormed) {rest : Text} (hrest : Ends rest) :
    readScalar numbers (token.text ++ rest) = (token.value numbers).map (·, rest) := by
  cases token with
  | null => rfl
  | bool b =>
    cases b with
    | false => rfl
    | true => rfl
  | string text =>
    have hread := readString_append h rest
    show (readString (text ++ [quoteMark] ++ rest)).map _ = _
    rw [List.append_assoc, List.singleton_append, hread]
    rfl
  | number text =>
    have hread := readNumber_append h hrest
    obtain ⟨c, t, rfl, hc⟩ := IsNumber.cons h
    have hword : c ≠ quoteMark ∧ c ≠ 0x74 ∧ c ≠ 0x66 ∧ c ≠ 0x6e := by
      rcases hc with rfl | hdigit
      · decide
      · refine ⟨?_, ?_, ?_, ?_⟩ <;> rintro rfl <;> exact absurd hdigit (by decide)
    show readScalar numbers (c :: (t ++ rest)) = _
    rw [readScalar, if_neg hword.1, if_neg hword.2.1, if_neg hword.2.2.1, if_neg hword.2.2.2,
      ← List.cons_append, hread, Option.bind_some, Token.value]
    cases numbers.parse (c :: t) with
    | none => rfl
    | some x => rfl

theorem ends_of_space {c : UInt8} (h : isSpace c = true) (rest : Text) : Ends (c :: rest) := by
  intro b hb
  rw [← Option.some.inj hb]
  simp only [isSpace, Bool.or_eq_true, decide_eq_true_eq] at h
  rcases h with ((rfl | rfl) | rfl) | rfl <;> decide

theorem ends_of_begin {c : UInt8} (h : isDigit c = false ∧ c ≠ 0x2e ∧ isExponent c = false)
    {s : Text} (hs : IsSpaces s) (rest : Text) : Ends (s ++ c :: rest) := by
  cases s with
  | nil =>
    intro b hb
    rw [← Option.some.inj hb]
    exact h
  | cons d s => exact ends_of_space (hs d List.mem_cons_self) _

theorem Items.cons {items : Items} (h : items.WellFormed) (rest : Text) :
    ∃ c t, (items.text ++ rest).dropWhile isSpace = c :: t ∧ c ≠ closeBracket := by
  cases items with
  | last before item after =>
    obtain ⟨c, t, htext, hspace, hc⟩ := Document.cons h.2.1
    refine ⟨c, t ++ (after ++ rest), ?_, hc⟩
    rw [Items.text, htext, List.append_assoc, dropWhile_spaces h.1, List.append_assoc]
    exact dropWhile_cons hspace _
  | more before item after more =>
    obtain ⟨c, t, htext, hspace, hc⟩ := Document.cons h.2.1
    refine ⟨c, t ++ ((after ++ comma :: more.text) ++ rest), ?_, hc⟩
    rw [Items.text, htext, List.append_assoc, dropWhile_spaces h.1, List.append_assoc]
    exact dropWhile_cons hspace _

theorem Members.cons {members : Members} (h : members.WellFormed) (rest : Text) :
    ∃ c t, (members.text ++ rest).dropWhile isSpace = c :: t ∧ c ≠ closeBrace := by
  cases members with
  | last before name middle space value after =>
    rw [Members.text, List.append_assoc, dropWhile_spaces h.1]
    exact ⟨quoteMark, _, dropWhile_cons (by decide) _, by decide⟩
  | more before name middle space value after more =>
    rw [Members.text, List.append_assoc, dropWhile_spaces h.1]
    exact ⟨quoteMark, _, dropWhile_cons (by decide) _, by decide⟩

theorem Document.length_pos {d : Document} (h : d.WellFormed) : 0 < d.text.length := by
  obtain ⟨c, t, htext, -⟩ := Document.cons h
  rw [htext, List.length_cons]
  omega

theorem dropWhile_document {before : Text} {d : Document} (hbefore : IsSpaces before)
    (hd : d.WellFormed) (t : Text) :
    (before ++ (d.text ++ t)).dropWhile isSpace = d.text ++ t := by
  obtain ⟨c, s, htext, hc, -⟩ := Document.cons hd
  rw [dropWhile_spaces hbefore, htext]
  exact dropWhile_cons hc (s ++ t)

theorem dropWhile_mark {after : Text} (hafter : IsSpaces after) {c : UInt8}
    (hc : isSpace c = false) (t : Text) : (after ++ c :: t).dropWhile isSpace = c :: t := by
  rw [dropWhile_spaces hafter]
  exact dropWhile_cons hc t

mutual

/-- The text of a document is read as the value of the document. -/
theorem Document.read (d : Document) (hd : d.WellFormed) {n k : Nat} {rest : Text}
    (hn : 2 * d.text.length ≤ n) (hk : d.depth ≤ k) (hrest : Ends rest) :
    readValue numbers n k (d.text ++ rest) = (d.value numbers).map (·, rest) := by
  have hpos := Document.length_pos hd
  obtain ⟨n, rfl⟩ : ∃ m, n = m + 1 := ⟨n - 1, by omega⟩
  match d with
  | .token token =>
    obtain ⟨c, t, htext, -, hbracket, hbrace⟩ := Token.cons hd
    have hread := Token.read numbers hd hrest
    rw [Document.text, htext, List.cons_append] at *
    rw [readValue]
    show (if c = openBracket then _ else if c = openBrace then _ else _) = _
    rw [if_neg hbracket, if_neg hbrace]
    exact hread
  | .emptyArray space =>
    obtain ⟨k, rfl⟩ : ∃ m, k = m + 1 := ⟨k - 1, by rw [Document.depth] at hk; omega⟩
    have hdrop : (space ++ [closeBracket] ++ rest).dropWhile isSpace = closeBracket :: rest := by
      rw [List.append_assoc, dropWhile_spaces hd]
      exact dropWhile_cons (by decide) rest
    rw [Document.text, List.cons_append, readValue]
    show (if openBracket = openBracket then _ else _) = _
    rw [if_pos rfl, if_neg (Nat.succ_ne_zero k), hdrop, List.head?_cons, if_pos rfl]
    rfl
  | .emptyObject space =>
    obtain ⟨k, rfl⟩ : ∃ m, k = m + 1 := ⟨k - 1, by rw [Document.depth] at hk; omega⟩
    have hdrop : (space ++ [closeBrace] ++ rest).dropWhile isSpace = closeBrace :: rest := by
      rw [List.append_assoc, dropWhile_spaces hd]
      exact dropWhile_cons (by decide) rest
    rw [Document.text, List.cons_append, readValue]
    show (if openBrace = openBracket then _ else if openBrace = openBrace then _ else _) = _
    rw [if_neg (by decide), if_pos rfl, if_neg (Nat.succ_ne_zero k), hdrop, List.head?_cons,
      if_pos rfl]
    rfl
  | .array items =>
    rw [Document.depth] at hk
    obtain ⟨k, rfl⟩ : ∃ m, k = m + 1 := ⟨k - 1, by omega⟩
    rw [Document.text, List.length_cons, List.length_append, List.length_singleton] at hn
    have hread := @Items.read items hd n k rest (by omega) (by omega)
    obtain ⟨c, t, hdrop, hc⟩ := Items.cons hd (closeBracket :: rest)
    rw [Document.text, List.cons_append, List.append_assoc, List.singleton_append, readValue]
    show (if openBracket = openBracket then _ else _) = _
    rw [if_pos rfl, if_neg (Nat.succ_ne_zero k), hdrop, List.head?_cons,
      if_neg fun heq => hc (Option.some.inj heq), Nat.add_sub_cancel, hread, Document.value]
    cases items.values numbers with
    | none => rfl
    | some values => rfl
  | .object members =>
    rw [Document.depth] at hk
    obtain ⟨k, rfl⟩ : ∃ m, k = m + 1 := ⟨k - 1, by omega⟩
    rw [Document.text, List.length_cons, List.length_append, List.length_singleton] at hn
    have hread := @Members.read members hd n k rest (by omega) (by omega)
    obtain ⟨c, t, hdrop, hc⟩ := Members.cons hd (closeBrace :: rest)
    rw [Document.text, List.cons_append, List.append_assoc, List.singleton_append, readValue]
    show (if openBrace = openBracket then _ else if openBrace = openBrace then _ else _) = _
    rw [if_neg (by decide), if_pos rfl, if_neg (Nat.succ_ne_zero k), hdrop, List.head?_cons,
      if_neg fun heq => hc (Option.some.inj heq), Nat.add_sub_cancel, hread, Document.value]
    cases members.values numbers with
    | none => rfl
    | some values => rfl

theorem Items.read (items : Items) (h : items.WellFormed) {n k : Nat} {rest : Text}
    (hn : 2 * items.text.length + 1 ≤ n) (hk : items.depth ≤ k) :
    readItems numbers n k (items.text ++ closeBracket :: rest) =
      (items.values numbers).map (·, rest) := by
  obtain ⟨n, rfl⟩ : ∃ m, n = m + 1 := ⟨n - 1, by omega⟩
  match items with
  | .last before item after =>
    obtain ⟨hbefore, hitem, hafter⟩ := h
    rw [Items.text, List.length_append, List.length_append] at hn
    have hread := @Document.read item hitem n k (after ++ closeBracket :: rest) (by omega) hk
      (ends_of_begin (by decide) hafter rest)
    rw [Items.text, List.append_assoc, List.append_assoc, readItems,
      dropWhile_document hbefore hitem, hread, Items.values]
    cases item.value numbers with
    | none => rfl
    | some value =>
      simp only [Option.map_some, Option.bind_some, dropWhile_mark hafter (c := closeBracket) rfl]
      rfl
  | .more before item after more =>
    obtain ⟨hbefore, hitem, hafter, hmore⟩ := h
    rw [Items.text, List.length_append, List.length_append, List.length_append,
      List.length_cons] at hn
    rw [Items.depth] at hk
    have hpos := Document.length_pos hitem
    have hread := @Document.read item hitem n k
      (after ++ comma :: (more.text ++ closeBracket :: rest)) (by omega) (by omega)
      (ends_of_begin (by decide) hafter _)
    have hnext := @Items.read more hmore n k rest (by omega) (by omega)
    rw [Items.text, List.append_assoc, List.append_assoc, List.append_assoc, List.cons_append,
      readItems, dropWhile_document hbefore hitem, hread, Items.values]
    cases item.value numbers with
    | none => rfl
    | some value =>
      simp only [Option.map_some, Option.bind_some, dropWhile_mark hafter (c := comma) rfl]
      rw [if_pos trivial, hnext]
      cases more.values numbers with
      | none => rfl
      | some values => rfl

theorem Members.read (members : Members) (h : members.WellFormed) {n k : Nat} {rest : Text}
    (hn : 2 * members.text.length + 1 ≤ n) (hk : members.depth ≤ k) :
    readMembers numbers n k (members.text ++ closeBrace :: rest) =
      (members.values numbers).map (·, rest) := by
  obtain ⟨n, rfl⟩ : ∃ m, n = m + 1 := ⟨n - 1, by omega⟩
  match members with
  | .last before name middle space value after =>
    obtain ⟨hbefore, hname, hmiddle, hspace, hvalue, hafter⟩ := h
    simp only [Members.text, List.length_append, List.length_cons] at hn
    have hread := @Document.read value hvalue n k (after ++ closeBrace :: rest) (by omega) hk
      (ends_of_begin (by decide) hafter rest)
    simp only [Members.text, List.append_assoc, List.cons_append]
    rw [readMembers, dropWhile_mark hbefore rfl]
    show (if quoteMark = quoteMark then _ else _) = _
    rw [if_pos rfl, readString_append hname, Option.bind_some]
    simp only [dropWhile_mark hmiddle (c := colon) rfl]
    rw [if_pos trivial, dropWhile_document hspace hvalue, hread, Members.values]
    cases value.value numbers with
    | none => rfl
    | some result =>
      simp only [Option.map_some, Option.bind_some, dropWhile_mark hafter (c := closeBrace) rfl]
      rfl
  | .more before name middle space value after more =>
    obtain ⟨hbefore, hname, hmiddle, hspace, hvalue, hafter, hmore⟩ := h
    simp only [Members.text, List.length_append, List.length_cons] at hn
    rw [Members.depth] at hk
    have hread := @Document.read value hvalue n k
      (after ++ comma :: (more.text ++ closeBrace :: rest)) (by omega) (by omega)
      (ends_of_begin (by decide) hafter _)
    have hnext := @Members.read more hmore n k rest (by omega) (by omega)
    simp only [Members.text, List.append_assoc, List.cons_append]
    rw [readMembers, dropWhile_mark hbefore rfl]
    show (if quoteMark = quoteMark then _ else _) = _
    rw [if_pos rfl, readString_append hname, Option.bind_some]
    simp only [dropWhile_mark hmiddle (c := colon) rfl]
    rw [if_pos trivial, dropWhile_document hspace hvalue, hread, Members.values]
    cases value.value numbers with
    | none => rfl
    | some result =>
      simp only [Option.map_some, Option.bind_some, dropWhile_mark hafter (c := comma) rfl]
      rw [if_pos trivial, hnext]
      cases more.values numbers with
      | none => rfl
      | some values => rfl

end

/-- **Decoding the text of a document, with any whitespace around it, gives the
value of the document.** -/
theorem unmarshal_document {d : Document} (hd : d.WellFormed) (hdepth : d.depth ≤ maxNestingDepth)
    {before after : Text} (hbefore : IsSpaces before) (hafter : IsSpaces after) :
    unmarshal numbers (before ++ (d.text ++ after)) = d.value numbers := by
  have hends : Ends after := by
    cases after with
    | nil => exact ends_nil
    | cons c after => exact ends_of_space (hafter c List.mem_cons_self) after
  have hread := @Document.read _ numbers d hd (2 * (d.text ++ after).length) maxNestingDepth after
    (by rw [List.length_append]; omega) hdepth hends
  rw [unmarshal, dropWhile_document hbefore hd, hread]
  cases d.value numbers with
  | none => rfl
  | some value => exact if_pos (List.all_eq_true.2 hafter)

end RelayLifeline.Lib.Json
