import RelayLifeline.Admin.Query
import RelayLifeline.Proofs.Quoted
import RelayLifeline.Proofs.Times

/-!
# The cursor of a list

A cursor is an object of JSON in base64. It is read back as what it was made
from, in layers: the bytes of the text, the members of the object, and of these
the time and the ID.
-/

namespace RelayLifeline

open Journal Lib Lib.Json

namespace Admin

/-! ## The object -/

/-- The members of the cursor's object. -/
def cursorMembers (t : Time) (id : String) : Members :=
  .more [] (utf8 "time") [] [] (.token (.string (utf8 t.format))) []
    (.last [] (utf8 "id") [] [] (.token (.string (escaped id))) [])

theorem isString_names : IsString (utf8 "time") ∧ IsString (utf8 "id") :=
  have hplain (s : Text) (h : Time.Plain s) : IsString s := isString_of_plain h
  ⟨hplain _ (by decide), hplain _ (by decide)⟩

theorem wellFormed_cursor (t : Time) (id : String) : (cursorMembers t id).WellFormed := by
  have hspace : IsSpaces [] := fun c hc => absurd hc List.not_mem_nil
  exact ⟨hspace, isString_names.1, hspace, hspace, Time.isString_format t, hspace, hspace,
    isString_names.2, hspace, hspace, isString_escaped id, hspace⟩

theorem utf8_marshalCursor {t : Time} (h : t.Writable) (id : String) :
    utf8 ((marshalCursor t id).getD "") = (Document.object (cursorMembers t id)).text := by
  have hid : utf8 (jsonString id) = quoteMark :: (escaped id ++ [quoteMark]) := by
    rw [jsonString, utf8_append, utf8_append, escaped, show utf8 "\"" = [quoteMark] by decide,
      List.singleton_append]
  rw [marshalCursor, Time.marshalJSON, if_pos h, Option.map_some, Option.getD_some]
  simp only [utf8_append, hid, show utf8 "\"" = [quoteMark] by decide,
    show utf8 "\x7b\"time\":" =
      openBrace :: quoteMark :: (utf8 "time" ++ [quoteMark, colon]) by decide,
    show utf8 ",\"id\":" = comma :: quoteMark :: (utf8 "id" ++ [quoteMark, colon]) by decide,
    show utf8 "\x7d" = [closeBrace] by decide, cursorMembers, Document.text, Members.text,
    Token.text, List.cons_append, List.nil_append, List.append_assoc]

theorem fromUTF8_utf8 (s : String) : String.fromUTF8? ⟨(utf8 s).toArray⟩ = some s := by
  have hbytes : (⟨(utf8 s).toArray⟩ : ByteArray) = s.toByteArray := by
    rw [utf8_eq_bytes]
  rw [hbytes, String.fromUTF8?, dif_pos s.isValidUTF8]
  rfl

theorem unmarshalString_escaped (id : String) :
    unmarshalString (Token.string (escaped id)).text = some (some id) := by
  rw [unmarshalString, if_neg (Time.string_ne_null _), Token.text, List.head?_cons, if_pos rfl,
    List.tail_cons, List.dropLast_concat, unquote_escaped, fromUTF8_utf8]
  rfl

variable (elsewhere : Text → Option (Int × Int))

theorem set_time (cursor : ListCursor) {t : Time} (h : t.Writable) (hminutes : t.offset % 60 = 0) :
    cursor.set elsewhere (utf8 "time", (Token.string (utf8 t.format)).text) =
      some { cursor with time := { t with monotonic := none } } := by
  have hname : namesField (utf8 "time") (utf8 "time") = true := by decide
  rw [ListCursor.set, if_pos hname, Time.unmarshalJSON_format elsewhere h hminutes,
    Option.map_some, Option.getD_some]

theorem set_id (cursor : ListCursor) (id : String) :
    cursor.set elsewhere (utf8 "id", (Token.string (escaped id)).text) =
      some { cursor with id := id } := by
  have hname : ¬ namesField (utf8 "time") (utf8 "id") = true := by decide
  have hname' : namesField (utf8 "id") (utf8 "id") = true := by decide
  rw [ListCursor.set, if_neg hname, if_pos hname', unmarshalString_escaped, Option.map_some,
    Option.getD_some]

/-- The object is decoded to the time and the ID. -/
theorem unmarshalCursor_marshalCursor {t : Time} (h : t.Writable) (hminutes : t.offset % 60 = 0)
    (id : String) :
    unmarshalCursor elsewhere (utf8 ((marshalCursor t id).getD "")) =
      some { time := { t with monotonic := none }, id } := by
  have hfields : (cursorMembers t id).fields =
      [(utf8 "time", (Token.string (utf8 t.format)).text),
        (utf8 "id", (Token.string (escaped id)).text)] := by
    rw [cursorMembers, Members.fields, Members.fields, Document.text, Document.text,
      show unquote (utf8 "time") = utf8 "time" by decide,
      show unquote (utf8 "id") = utf8 "id" by decide]
  have hdepth : (cursorMembers t id).depth < maxNestingDepth := by
    rw [cursorMembers, Members.depth, Members.depth, Document.depth, Document.depth]
    decide
  rw [utf8_marshalCursor h, unmarshalCursor,
    unmarshalFields_object (wellFormed_cursor t id) hdepth, Option.bind_some, hfields,
    List.foldlM_cons, set_time elsewhere _ h hminutes, Option.bind_eq_bind, Option.bind_some,
    List.foldlM_cons, set_id, Option.bind_eq_bind, Option.bind_some, List.foldlM_nil]
  rfl

/-! ## The cursor -/

theorem encodeCursor_ne {t : Time} (h : t.Writable) (id : String) : encodeCursor t id ≠ "" := by
  intro hempty
  have hlist := congrArg String.toList hempty
  rw [encodeCursor, String.toList_ofList, utf8_marshalCursor h] at hlist
  exact Base64.encode_ne_nil (List.cons_ne_nil _ _) hlist

/-- A cursor that a page gives is taken, and is where the page ended. -/
theorem parseCursor_encodeCursor {t : Time} (h : t.Writable) (hminutes : t.offset % 60 = 0)
    (hzero : t.instant ≠ 0) {id : String} (hid : id ≠ "") :
    parseCursor elsewhere (encodeCursor t id) =
      some (some { time := { t with monotonic := none }, id }) := by
  rw [parseCursor, if_neg (encodeCursor_ne h id), encodeCursor, String.toList_ofList,
    Base64.decode_encode, Option.bind_some, unmarshalCursor_marshalCursor elsewhere h hminutes,
    Option.bind_some, if_neg]
  rw [Bool.or_eq_true, Time.isZero, decide_eq_true_eq, decide_eq_true_eq]
  exact fun hor => hor.elim hzero hid

end Admin

end RelayLifeline
