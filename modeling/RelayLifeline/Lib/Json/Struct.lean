import RelayLifeline.Lib.Json.Compact
import RelayLifeline.Lib.Json.Fields
import RelayLifeline.Lib.Json.Strings

/-!
# Structs

A struct is written as an object of its fields, one after another without
whitespace. The object is read back as the fields, each with the text of its
value, and a string among them as the string if that is UTF-8.
-/

namespace RelayLifeline.Lib.Json

/-- A field with its name. -/
def fieldText (field : Text × Text) : Text :=
  quoteMark :: (field.1 ++ quoteMark :: colon :: field.2)

/-- The object that `json.Marshal` writes for a struct with these fields. -/
def objectText (fields : List (Text × Text)) : Text :=
  openBrace :: (List.intercalate [comma] (fields.map fieldText) ++ [closeBrace])

/-- `foldName`, as far as it matters for a name that is ASCII: two letters that
are not fold to one that is. -/
def foldName : Text → Text
  | [] => []
  | 0xc5 :: 0xbf :: rest => 0x53 :: foldName rest
  | 0xe2 :: 0x84 :: 0xaa :: rest => 0x4b :: foldName rest
  | c :: rest => (if 0x61 ≤ c && c ≤ 0x7a then c - 0x20 else c) :: foldName rest

/-- A value for a field of type `string`, which for null is left as it is. None
where it is no string. -/
def unmarshalText (data : Text) : Option (Option Text) :=
  if data = nullWord then some none
  else if data.head? = some quoteMark then some (some (unquote data.tail.dropLast))
  else none

/-! ## The document -/

/-- A value that may stand in a struct. -/
structure IsField (field : Text × Text) (d : Document) : Prop where
  name : IsString field.1
  wellFormed : d.WellFormed
  depth : d.depth < maxNestingDepth
  text : d.text = field.2

/-- The fields as members. -/
def membersOf (name : Text) (d : Document) : List (Text × Document) → Members
  | [] => .last [] name [] [] d []
  | (name', d') :: rest => .more [] name [] [] d [] (membersOf name' d' rest)

theorem exists_documents : ∀ {fields : List (Text × Text)},
    (∀ field ∈ fields, ∃ d, IsField field d) →
    ∃ ds : List (Text × Document), List.Forall₂ (fun field d => field.1 = d.1 ∧ IsField field d.2)
      fields ds
  | [], _ => ⟨[], .nil⟩
  | field :: fields, h => by
      obtain ⟨⟨d, hd⟩, hfields⟩ := List.forall_mem_cons.1 h
      obtain ⟨ds, hds⟩ := exists_documents hfields
      exact ⟨(field.1, d) :: ds, .cons ⟨rfl, hd⟩ hds⟩

section

variable {field : Text × Text} {d : Document} {fields : List (Text × Text)}
  {ds : List (Text × Document)}

theorem wellFormed_membersOf (h : IsField field d)
    (hs : List.Forall₂ (fun field d => field.1 = d.1 ∧ IsField field d.2) fields ds) :
    (membersOf field.1 d ds).WellFormed ∧ (membersOf field.1 d ds).depth < maxNestingDepth := by
  induction hs generalizing field d with
  | nil =>
      exact ⟨⟨isSpaces_nil, h.name, isSpaces_nil, isSpaces_nil, h.wellFormed, isSpaces_nil⟩,
        h.depth⟩
  | @cons field' d' fields ds hd hs ih =>
      obtain ⟨hname, hfield⟩ := hd
      obtain ⟨hwell, hdepth⟩ := ih hfield
      rw [hname] at hwell hdepth
      exact ⟨⟨isSpaces_nil, h.name, isSpaces_nil, isSpaces_nil, h.wellFormed, isSpaces_nil, hwell⟩,
        Nat.max_lt.2 ⟨h.depth, hdepth⟩⟩

theorem fields_membersOf (h : IsField field d)
    (hs : List.Forall₂ (fun field d => field.1 = d.1 ∧ IsField field d.2) fields ds) :
    (membersOf field.1 d ds).fields =
      (field :: fields).map fun field => (unquote field.1, field.2) := by
  induction hs generalizing field d with
  | nil => rw [membersOf, Members.fields, h.text]; rfl
  | @cons field' d' fields ds hd hs ih =>
      obtain ⟨hname, hfield⟩ := hd
      have hrest := ih hfield
      rw [hname] at hrest
      rw [membersOf, Members.fields, h.text, hrest]
      rfl

theorem text_membersOf (h : IsField field d)
    (hs : List.Forall₂ (fun field d => field.1 = d.1 ∧ IsField field d.2) fields ds) :
    (membersOf field.1 d ds).text =
      List.intercalate [comma] ((field :: fields).map fieldText) := by
  induction hs generalizing field d with
  | nil =>
      simp [membersOf, Members.text, h.text, fieldText, List.intercalate]
  | @cons field' d' fields ds hd hs ih =>
      obtain ⟨hname, hfield⟩ := hd
      have hrest := ih hfield
      rw [hname] at hrest
      rw [membersOf, Members.text, hrest, h.text, List.map_cons, List.map_cons, List.map_cons,
        List.intercalate_cons_cons]
      simp [fieldText]

end

/-- An object that is written so is that of a document. -/
theorem exists_object {field : Text × Text} {fields : List (Text × Text)}
    (h : ∀ f ∈ field :: fields, ∃ d, IsField f d) :
    ∃ members : Members, members.WellFormed ∧ members.depth < maxNestingDepth ∧
      members.fields = (field :: fields).map (fun field => (unquote field.1, field.2)) ∧
      objectText (field :: fields) = (Document.object members).text := by
  obtain ⟨⟨d, hd⟩, hfields⟩ := List.forall_mem_cons.1 h
  obtain ⟨ds, hds⟩ := exists_documents hfields
  obtain ⟨hwell, hdepth⟩ := wellFormed_membersOf hd hds
  refine ⟨membersOf field.1 d ds, hwell, hdepth, fields_membersOf hd hds, ?_⟩
  rw [objectText, Document.text, text_membersOf hd hds]

/-- **The fields of a struct are read back.** -/
theorem unmarshalFields_objectText {field : Text × Text} {fields : List (Text × Text)}
    (h : ∀ f ∈ field :: fields, ∃ d, IsField f d) {after : Text} (hafter : IsSpaces after) :
    unmarshalFields (objectText (field :: fields) ++ after) =
      some ((field :: fields).map fun field => (unquote field.1, field.2)) := by
  obtain ⟨members, hwell, hdepth, hread, htext⟩ := exists_object h
  rw [htext, unmarshalFields_append hwell hdepth hafter, hread]

/-! ## Strings -/

/-- A string that is UTF-8 is read back. -/
theorem unmarshalText_encodeString {s : Text} (h : IsUTF8 s) :
    unmarshalText (encodeString s) = some (some s) := by
  have hnull : encodeString s ≠ nullWord := fun heq => absurd (List.cons.inj heq).1 (by decide)
  rw [unmarshalText, if_neg hnull, encodeString, List.cons_append, List.head?_cons, if_pos rfl,
    List.tail_cons, List.dropLast_concat, unquote_encodeFrom h _ (Nat.le_refl _)]

theorem wellFormed_encodeString {s : Text} (h : IsUTF8 s) :
    (Document.token (.string (encodeFrom s.length s))).WellFormed :=
  isString_encodeFrom h _ (Nat.le_refl _)

/-! ## Bytes that are no controls -/

/-- No byte is a control character. -/
def Printable (s : Text) : Prop := ∀ c ∈ s, ¬ c < 0x20

theorem printable_append {s t : Text} : Printable (s ++ t) ↔ Printable s ∧ Printable t :=
  List.forall_mem_append

theorem printable_cons {c : UInt8} {s : Text} : Printable (c :: s) ↔ ¬ c < 0x20 ∧ Printable s :=
  List.forall_mem_cons

theorem printable_nil : Printable [] := fun _ hc => absurd hc List.not_mem_nil

theorem printable_of_isHexDigit {c : UInt8} (h : isHexDigit c = true) : ¬ c < 0x20 := by
  simp only [isHexDigit, isDigit, Bool.or_eq_true, Bool.and_eq_true, decide_eq_true_eq,
    UInt8.le_iff_toNat_le] at h
  rw [UInt8.lt_iff_toNat_lt]
  change ((0x30 ≤ c.toNat ∧ c.toNat ≤ 0x39) ∨ 0x61 ≤ c.toNat ∧ c.toNat ≤ 0x66) ∨
    0x41 ≤ c.toNat ∧ c.toNat ≤ 0x46 at h
  change ¬ c.toNat < 0x20
  omega

theorem IsString.printable {s : Text} (h : IsString s) : Printable s := by
  induction h with
  | nil => exact printable_nil
  | char hc _ _ _ ih => exact printable_cons.2 ⟨hc, ih⟩
  | @escape e s he _ ih =>
      have hplain : ¬ e < 0x20 := by
        simp only [isEscape, List.mem_cons, List.not_mem_nil, or_false, decide_eq_true_eq] at he
        rcases he with rfl | rfl | rfl | rfl | rfl | rfl | rfl | rfl <;> decide
      exact printable_cons.2 ⟨by decide, printable_cons.2 ⟨hplain, ih⟩⟩
  | unicode hhex _ ih =>
      simp only [Bool.and_eq_true] at hhex
      simp only [printable_cons]
      exact ⟨by decide, by decide, printable_of_isHexDigit hhex.1.1.1,
        printable_of_isHexDigit hhex.1.1.2, printable_of_isHexDigit hhex.1.2,
        printable_of_isHexDigit hhex.2, ih⟩

theorem printable_of_bare {s : Text} (h : ∀ c ∈ s, Bare c) : Printable s := fun c hc => (h c hc).1

theorem Token.printable {token : Token} (h : token.WellFormed) : Printable token.text := by
  cases token with
  | null => exact printable_of_bare (List.all_iff_forall_prop.1 (by decide))
  | bool b =>
      cases b with
      | false => exact printable_of_bare (List.all_iff_forall_prop.1 (by decide))
      | true => exact printable_of_bare (List.all_iff_forall_prop.1 (by decide))
  | number text => exact printable_of_bare (bare_number h)
  | string text =>
      exact printable_cons.2 ⟨by decide,
        printable_append.2 ⟨IsString.printable h, printable_cons.2 ⟨by decide, printable_nil⟩⟩⟩

mutual

/-- A document that is compacted has no control characters. -/
theorem Document.printable : ∀ {d : Document}, d.WellFormed → Printable d.compact.text
  | .token _, h => Token.printable (Token.wellFormed_compact h)
  | .emptyArray _, _ =>
      printable_cons.2 ⟨by decide, printable_cons.2 ⟨by decide, printable_nil⟩⟩
  | .array _, h =>
      printable_cons.2 ⟨by decide, printable_append.2
        ⟨Items.printable h, printable_cons.2 ⟨by decide, printable_nil⟩⟩⟩
  | .emptyObject _, _ =>
      printable_cons.2 ⟨by decide, printable_cons.2 ⟨by decide, printable_nil⟩⟩
  | .object _, h =>
      printable_cons.2 ⟨by decide, printable_append.2
        ⟨Members.printable h, printable_cons.2 ⟨by decide, printable_nil⟩⟩⟩

theorem Items.printable : ∀ {items : Items}, items.WellFormed → Printable items.compact.text
  | .last _ _ _, ⟨_, hitem, _⟩ => by
      simp only [Items.compact, Items.text, List.nil_append, List.append_nil]
      exact Document.printable hitem
  | .more _ _ _ _, ⟨_, hitem, _, hrest⟩ => by
      simp only [Items.compact, Items.text, List.nil_append, printable_append, printable_cons]
      exact ⟨Document.printable hitem, by decide, Items.printable hrest⟩

theorem Members.printable : ∀ {members : Members}, members.WellFormed →
    Printable members.compact.text
  | .last _ _ _ _ _ _, ⟨_, hname, _, _, hvalue, _⟩ => by
      simp only [Members.compact, Members.text, List.nil_append, List.append_nil, printable_append,
        printable_cons]
      exact ⟨by decide, (shielded_compactString hname).isString.printable, by decide, by decide,
        Document.printable hvalue⟩
  | .more _ _ _ _ _ _ _, ⟨_, hname, _, _, hvalue, _, hrest⟩ => by
      simp only [Members.compact, Members.text, List.nil_append, printable_append, printable_cons]
      exact ⟨by decide, (shielded_compactString hname).isString.printable, by decide, by decide,
        Document.printable hvalue, by decide, Members.printable hrest⟩

end

/-- An object has none where its values have none. -/
theorem printable_objectText {fields : List (Text × Text)}
    (h : ∀ field ∈ fields, Printable field.1 ∧ Printable field.2) :
    Printable (objectText fields) := by
  have hfields : ∀ parts ∈ fields.map fieldText, Printable parts := by
    intro part hpart
    obtain ⟨field, hmem, rfl⟩ := List.mem_map.1 hpart
    obtain ⟨hname, hvalue⟩ := h field hmem
    simp only [fieldText, printable_cons, printable_append]
    exact ⟨by decide, hname, by decide, by decide, hvalue⟩
  refine printable_cons.2 ⟨by decide, printable_append.2 ⟨?_, printable_cons.2
    ⟨by decide, printable_nil⟩⟩⟩
  generalize fields.map fieldText = parts at hfields
  induction parts with
  | nil => exact printable_nil
  | cons part parts ih =>
      obtain ⟨hpart, hparts⟩ := List.forall_mem_cons.1 hfields
      cases parts with
      | nil =>
          rw [List.intercalate_singleton]
          exact hpart
      | cons part' parts =>
          rw [List.intercalate_cons_cons, printable_append, printable_append]
          exact ⟨⟨hpart, printable_cons.2 ⟨by decide, printable_nil⟩⟩, ih hparts⟩

end RelayLifeline.Lib.Json
