import RelayLifeline.Lib.Json.Twin

/-!
# The fields of an object

Decoding into a struct goes by the members of an object one after another, and
a field may take the text of its value as it is written. Other members of the
object only have to be of the grammar.
-/

namespace RelayLifeline.Lib.Json

/-- Numbers that are taken as they are written. -/
abbrev anyNumbers : Numbers Text := ⟨some, id⟩

/-- The members of an object up to its end, each with its name and the text of
its value. -/
def readFields : Nat → Nat → Text → Option (List (Text × Text) × Text)
  | 0, _, _ => none
  | n + 1, depth, s =>
      match s.dropWhile isSpace with
      | [] => none
      | c :: rest =>
          if c = quoteMark then
            (readString rest).bind fun name =>
              match name.2.dropWhile isSpace with
              | [] => none
              | d :: rest =>
                  if d = colon then
                    let text := rest.dropWhile isSpace
                    (readValue anyNumbers n depth text).bind fun value =>
                      let field := (unquote name.1, text.take (text.length - value.2.length))
                      match value.2.dropWhile isSpace with
                      | [] => none
                      | e :: rest =>
                          if e = comma then
                            (readFields n depth rest).map fun read => (field :: read.1, read.2)
                          else if e = closeBrace then some ([field], rest)
                          else none
                  else none
          else none

/-- `json.Unmarshal` into a struct, as far as it finds the members: none where
it returns an error. A null has none and is no error. -/
def unmarshalFields (s : Text) : Option (List (Text × Text)) :=
  match s.dropWhile isSpace with
  | [] => none
  | c :: rest =>
      if c = openBrace then
        if (rest.dropWhile isSpace).head? = some closeBrace then
          if (rest.dropWhile isSpace).tail.all isSpace then some [] else none
        else
          (readFields (2 * (c :: rest).length) (maxNestingDepth - 1) rest).bind fun read =>
            if read.2.all isSpace then some read.1 else none
      else
        match unmarshal anyNumbers s with
        | some .null => some []
        | _ => none

/-- A name is that of a field in upper or lower case. -/
def namesField (field name : Text) : Bool :=
  let upper (c : UInt8) : UInt8 := if 0x61 ≤ c && c ≤ 0x7a then c - 0x20 else c
  name.map upper = field.map upper

/-! ## The fields of a document -/

/-- The fields of the members. -/
def Members.fields : Members → List (Text × Text)
  | .last _ name _ _ value _ => [(unquote name, value.text)]
  | .more _ name _ _ value _ rest => (unquote name, value.text) :: rest.fields

/-- A value is read up to its end. -/
theorem Document.read_text {d : Document} (hd : d.WellFormed) (n k : Nat) (rest : Text)
    (hn : 2 * d.text.length ≤ n) (hk : d.depth ≤ k) (hrest : Ends rest) :
    ∃ value, readValue anyNumbers n k (d.text ++ rest) = some (value, rest) ∧
      (d.text ++ rest).take ((d.text ++ rest).length - rest.length) = d.text := by
  obtain ⟨value, hvalue⟩ := Option.isSome_iff_exists.1 d.isSome_value
  refine ⟨value, ?_, ?_⟩
  · rw [Document.read anyNumbers d hd hn hk hrest, hvalue]
    rfl
  · rw [List.length_append, Nat.add_sub_cancel, List.take_left]

theorem Members.read_fields (members : Members) (h : members.WellFormed) (n k : Nat) (rest : Text)
    (hn : 2 * members.text.length + 1 ≤ n) (hk : members.depth ≤ k) :
    readFields n k (members.text ++ closeBrace :: rest) = some (members.fields, rest) := by
  obtain ⟨n, rfl⟩ : ∃ m, n = m + 1 := ⟨n - 1, by omega⟩
  cases members with
  | last before name middle space value after =>
    obtain ⟨hbefore, hname, hmiddle, hspace, hvalue, hafter⟩ := h
    simp only [Members.text, List.length_append, List.length_cons] at hn
    obtain ⟨result, hread, htext⟩ := value.read_text hvalue n k
      (after ++ closeBrace :: rest) (by omega) hk (ends_of_begin (by decide) hafter rest)
    simp only [Members.text, List.append_assoc, List.cons_append]
    rw [readFields, dropWhile_mark hbefore rfl]
    show (if quoteMark = quoteMark then _ else _) = _
    rw [if_pos rfl, readString_append hname, Option.bind_some]
    simp only [dropWhile_mark hmiddle (c := colon) rfl]
    rw [if_pos trivial, dropWhile_document hspace hvalue]
    simp only [hread, Option.bind_some, htext, dropWhile_mark hafter (c := closeBrace) rfl]
    rfl
  | more before name middle space value after others =>
    obtain ⟨hbefore, hname, hmiddle, hspace, hvalue, hafter, hothers⟩ := h
    simp only [Members.text, List.length_append, List.length_cons] at hn
    rw [Members.depth] at hk
    obtain ⟨result, hread, htext⟩ := value.read_text hvalue n k
      (after ++ comma :: (others.text ++ closeBrace :: rest)) (by omega) (by omega)
      (ends_of_begin (by decide) hafter _)
    have hnext := others.read_fields hothers n k rest (by omega) (by omega)
    simp only [Members.text, List.append_assoc, List.cons_append]
    rw [readFields, dropWhile_mark hbefore rfl]
    show (if quoteMark = quoteMark then _ else _) = _
    rw [if_pos rfl, readString_append hname, Option.bind_some]
    simp only [dropWhile_mark hmiddle (c := colon) rfl]
    rw [if_pos trivial, dropWhile_document hspace hvalue]
    simp only [hread, Option.bind_some, htext, dropWhile_mark hafter (c := comma) rfl]
    rw [if_pos trivial, hnext]
    rfl

/-- The fields of an object are those of its members, whatever whitespace
follows it. -/
theorem unmarshalFields_append {members : Members} (h : members.WellFormed)
    (hdepth : members.depth < maxNestingDepth) {after : Text} (hafter : IsSpaces after) :
    unmarshalFields ((Document.object members).text ++ after) = some members.fields := by
  obtain ⟨c, t, hdrop, hc⟩ := Members.cons h (closeBrace :: after)
  have hread := members.read_fields h
    (2 * (openBrace :: (members.text ++ closeBrace :: after)).length) (maxNestingDepth - 1) after
    (by rw [List.length_cons, List.length_append]; omega) (by omega)
  rw [Document.text, List.cons_append, List.append_assoc, List.singleton_append, unmarshalFields,
    dropWhile_cons rfl]
  show (if openBrace = openBrace then _ else _) = _
  rw [if_pos rfl, hdrop, List.head?_cons, if_neg fun heq => hc (Option.some.inj heq), hread,
    Option.bind_some, if_pos (List.all_eq_true.2 hafter)]

theorem unmarshalFields_object {members : Members} (h : members.WellFormed)
    (hdepth : members.depth < maxNestingDepth) :
    unmarshalFields (Document.object members).text = some members.fields := by
  have hread := unmarshalFields_append h hdepth isSpaces_nil
  rwa [List.append_nil] at hread

end RelayLifeline.Lib.Json
