import RelayLifeline.Lib.Json.Document

/-!
# Documents that differ in hidden values

Two documents are twins where they differ in nothing but the values under
hidden names: the same structure, the same whitespace and names, and, under a
hidden name, any value.
-/

namespace RelayLifeline.Lib.Json

variable (hidden : Text → Bool)

mutual

inductive Document.Twin : Document → Document → Prop
  | token (token : Token) : Document.Twin (.token token) (.token token)
  | emptyArray (space : Text) : Document.Twin (.emptyArray space) (.emptyArray space)
  | array {items items' : Items} (h : Items.Twin items items') :
      Document.Twin (.array items) (.array items')
  | emptyObject (space : Text) : Document.Twin (.emptyObject space) (.emptyObject space)
  | object {members members' : Members} (h : Members.Twin members members') :
      Document.Twin (.object members) (.object members')

inductive Items.Twin : Items → Items → Prop
  | last {before after : Text} {item item' : Document} (h : Document.Twin item item') :
      Items.Twin (.last before item after) (.last before item' after)
  | more {before after : Text} {item item' : Document} {rest rest' : Items}
      (h : Document.Twin item item') (hrest : Items.Twin rest rest') :
      Items.Twin (.more before item after rest) (.more before item' after rest')

inductive Members.Twin : Members → Members → Prop
  | last {before name middle space after : Text} {value value' : Document}
      (h : Document.Twin value value') :
      Members.Twin (.last before name middle space value after)
        (.last before name middle space value' after)
  | lastHidden {before name middle space after : Text} {value value' : Document}
      (h : hidden (unquote name) = true) :
      Members.Twin (.last before name middle space value after)
        (.last before name middle space value' after)
  | more {before name middle space after : Text} {value value' : Document} {rest rest' : Members}
      (h : Document.Twin value value') (hrest : Members.Twin rest rest') :
      Members.Twin (.more before name middle space value after rest)
        (.more before name middle space value' after rest')
  | moreHidden {before name middle space after : Text} {value value' : Document}
      {rest rest' : Members} (h : hidden (unquote name) = true)
      (hrest : Members.Twin rest rest') :
      Members.Twin (.more before name middle space value after rest)
        (.more before name middle space value' after rest')

end

/-- Two texts of the same length, which hold twins with the same whitespace
around them. -/
structure Twins (s s' : Text) (d d' : Document) : Prop where
  wellFormed : d.WellFormed ∧ d'.WellFormed
  twin : Document.Twin hidden d d'
  around : ∃ before after, IsSpaces before ∧ IsSpaces after ∧
    s = before ++ (d.text ++ after) ∧ s' = before ++ (d'.text ++ after)
  length_eq : s.length = s'.length

variable {F : Type} (numbers : Numbers F)

/-- `json.Unmarshal` takes the document: its numbers are ones that `strconv`
takes, and its values nest no deeper than they may. -/
def Document.Readable (d : Document) : Prop :=
  d.depth ≤ maxNestingDepth ∧ (d.value numbers).isSome = true

/-! ## A document that is readable is valid -/

mutual

/-- A document decodes where numbers are taken as they are written. -/
theorem Document.isSome_value (d : Document) :
    (d.value (⟨some, id⟩ : Numbers Text)).isSome = true := by
  match d with
  | .token token => cases token <;> rfl
  | .emptyArray _ => rfl
  | .emptyObject _ => rfl
  | .array items => simpa [Document.value] using Items.isSome_values items
  | .object members => simpa [Document.value] using Members.isSome_values members

theorem Items.isSome_values (items : Items) :
    (items.values (⟨some, id⟩ : Numbers Text)).isSome = true := by
  match items with
  | .last _ item _ => simpa [Items.values] using Document.isSome_value item
  | .more _ item _ rest =>
    obtain ⟨value, hvalue⟩ := Option.isSome_iff_exists.1 (Document.isSome_value item)
    simpa [Items.values, hvalue] using Items.isSome_values rest

theorem Members.isSome_values (members : Members) :
    (members.values (⟨some, id⟩ : Numbers Text)).isSome = true := by
  match members with
  | .last _ _ _ _ value _ => simpa [Members.values] using Document.isSome_value value
  | .more _ _ _ _ value _ rest =>
    obtain ⟨value, hvalue⟩ := Option.isSome_iff_exists.1 (Document.isSome_value value)
    simpa [Members.values, hvalue] using Members.isSome_values rest

end

end RelayLifeline.Lib.Json
