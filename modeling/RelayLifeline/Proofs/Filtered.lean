import RelayLifeline.Lib.Json.Twin
import RelayLifeline.Proofs.Authentic
import RelayLifeline.Proofs.Views

/-!
# What the filtered views show of sensitive values

Two bodies that differ in nothing but the values under sensitive names are
filtered to the same where the filter has the names: where the bytes at hand are
a whole document, or, in an event stream, the line is one. Where a body is cut
inside a document, a document goes over several lines, or a number or the
nesting keeps it from being decoded, the text is shown as it is but for what the
patterns match.
-/

namespace RelayLifeline.Capture

open Lib Lib.Json
open Proxy (utf8 newline)

/-! ## Filtering twins -/

section Filter

variable {F : Type} {numbers : Numbers F}

theorem filterJSON_sensitive {key : Bytes} (h : sensitiveName key = true) (value : Value F) :
    filterJSON value key = .string redacted := by
  cases value <;> simp [filterJSON, h]

theorem filterMembers_insert (name : Text) (value : Value F) (members : List (Text × Value F)) :
    filterMembers (Json.insert name value members) =
      Json.insert name (filterJSON value name) (filterMembers members) := by
  induction members with
  | nil => rfl
  | cons member members ih =>
      obtain ⟨other, child⟩ := member
      simp only [Json.insert, filterMembers]
      split
      · rfl
      · rw [filterMembers, ih]

theorem filterMembers_collect (members : List (Text × Value F)) :
    filterMembers (collect members) = collect (filterMembers members) := by
  have hfold (found : List (Text × Value F)) :
      filterMembers (members.foldl (fun found member => Json.insert member.1 member.2 found) found) =
        (filterMembers members).foldl (fun found member => Json.insert member.1 member.2 found)
          (filterMembers found) := by
    induction members generalizing found with
    | nil => rfl
    | cons member members ih =>
        obtain ⟨name, value⟩ := member
        rw [List.foldl_cons, ih, filterMembers_insert]
        rfl
  exact hfold []

mutual

/-- What twins decode to is filtered to the same. -/
theorem filterJSON_twin {d d' : Document} (h : Document.Twin sensitiveName d d') {v v' : Value F}
    (hv : d.value numbers = some v) (hv' : d'.value numbers = some v') (key : Bytes) :
    filterJSON v key = filterJSON v' key := by
  match d, d', h with
  | _, _, .token token => rw [Option.some.inj (hv.symm.trans hv')]
  | _, _, .emptyArray space => rw [Option.some.inj (hv.symm.trans hv')]
  | _, _, .emptyObject space => rw [Option.some.inj (hv.symm.trans hv')]
  | _, _, .array hitems =>
      obtain ⟨values, hvalues, rfl⟩ := Option.map_eq_some_iff.1 hv
      obtain ⟨values', hvalues', rfl⟩ := Option.map_eq_some_iff.1 hv'
      rw [filterJSON, filterJSON, filterItems_twin hitems hvalues hvalues' key]
  | _, _, .object hmembers =>
      obtain ⟨values, hvalues, rfl⟩ := Option.map_eq_some_iff.1 hv
      obtain ⟨values', hvalues', rfl⟩ := Option.map_eq_some_iff.1 hv'
      rw [filterJSON, filterJSON, filterMembers_collect, filterMembers_collect,
        filterMembers_twin hmembers hvalues hvalues']

theorem filterItems_twin {items items' : Items} (h : Items.Twin sensitiveName items items')
    {vs vs' : List (Value F)} (hv : items.values numbers = some vs)
    (hv' : items'.values numbers = some vs') (key : Bytes) :
    filterItems vs key = filterItems vs' key := by
  match items, items', h with
  | _, _, .last hitem =>
      obtain ⟨v, hvalue, rfl⟩ := Option.map_eq_some_iff.1 hv
      obtain ⟨v', hvalue', rfl⟩ := Option.map_eq_some_iff.1 hv'
      rw [filterItems, filterItems, filterJSON_twin hitem hvalue hvalue' key]
      rfl
  | _, _, .more hitem hrest =>
      obtain ⟨v, hvalue, hv⟩ := Option.bind_eq_some_iff.1 hv
      obtain ⟨v', hvalue', hv'⟩ := Option.bind_eq_some_iff.1 hv'
      obtain ⟨values, hvalues, rfl⟩ := Option.map_eq_some_iff.1 hv
      obtain ⟨values', hvalues', rfl⟩ := Option.map_eq_some_iff.1 hv'
      rw [filterItems, filterItems, filterJSON_twin hitem hvalue hvalue' key,
        filterItems_twin hrest hvalues hvalues' key]

theorem filterMembers_twin {members members' : Members}
    (h : Members.Twin sensitiveName members members') {vs vs' : List (Text × Value F)}
    (hv : members.values numbers = some vs) (hv' : members'.values numbers = some vs') :
    filterMembers vs = filterMembers vs' := by
  match members, members', h with
  | _, _, .last htwin =>
      obtain ⟨v, hvalue, rfl⟩ := Option.map_eq_some_iff.1 hv
      obtain ⟨v', hvalue', rfl⟩ := Option.map_eq_some_iff.1 hv'
      simp only [filterMembers, filterJSON_twin htwin hvalue hvalue']
  | _, _, .lastHidden hname =>
      obtain ⟨v, hvalue, rfl⟩ := Option.map_eq_some_iff.1 hv
      obtain ⟨v', hvalue', rfl⟩ := Option.map_eq_some_iff.1 hv'
      simp only [filterMembers, filterJSON_sensitive hname]
  | _, _, .more htwin hrest =>
      obtain ⟨v, hvalue, hv⟩ := Option.bind_eq_some_iff.1 hv
      obtain ⟨v', hvalue', hv'⟩ := Option.bind_eq_some_iff.1 hv'
      obtain ⟨values, hvalues, rfl⟩ := Option.map_eq_some_iff.1 hv
      obtain ⟨values', hvalues', rfl⟩ := Option.map_eq_some_iff.1 hv'
      simp only [filterMembers, filterJSON_twin htwin hvalue hvalue',
        filterMembers_twin hrest hvalues hvalues']
  | _, _, .moreHidden hname hrest =>
      obtain ⟨v, hvalue, hv⟩ := Option.bind_eq_some_iff.1 hv
      obtain ⟨v', hvalue', hv'⟩ := Option.bind_eq_some_iff.1 hv'
      obtain ⟨values, hvalues, rfl⟩ := Option.map_eq_some_iff.1 hv
      obtain ⟨values', hvalues', rfl⟩ := Option.map_eq_some_iff.1 hv'
      simp only [filterMembers, filterJSON_sensitive hname,
        filterMembers_twin hrest hvalues hvalues']

end

end Filter

/-! ## Filtering a body -/

section Filtering

variable {F : Type} {numbers : Numbers F}

/-- A body that is one readable document is filtered by its names. -/
theorem filterBody_document {cut before after : Text} {d : Document} {value : Value F}
    (hcut : Bytes.trimSpace cut = before ++ (d.text ++ after)) (hd : d.WellFormed)
    (hread : d.Readable numbers) (hbefore : IsSpaces before) (hafter : IsSpaces after)
    (hvalue : d.value numbers = some value) {contentType : String}
    (htype : ¬ utf8 "event-stream" <:+: toLower (utf8 contentType)) :
    filterBody numbers cut contentType = marshalIndent numbers (filterJSON value []) := by
  have hvalid : valid (Bytes.trimSpace cut) = true := by
    rw [hcut, valid, unmarshal_document _ hd hread.1 hbefore hafter]
    exact Document.isSome_value d
  rw [filterBody, if_neg htype, if_pos (.inr hvalid), hcut,
    unmarshal_document numbers hd hread.1 hbefore hafter, hvalue]

/-- **A body that is one readable document shows nothing of its hidden
values.** -/
theorem filterBody_twins {cut cut' : Bytes} {d d' : Document}
    (h : Twins sensitiveName (Bytes.trimSpace cut) (Bytes.trimSpace cut') d d')
    (hread : d.Readable numbers) (hread' : d'.Readable numbers) {contentType : String}
    (htype : ¬ utf8 "event-stream" <:+: toLower (utf8 contentType)) :
    filterBody numbers cut contentType = filterBody numbers cut' contentType := by
  obtain ⟨⟨hd, hd'⟩, htwin, ⟨before, after, hbefore, hafter, hcut, hcut'⟩, -⟩ := h
  obtain ⟨value, hvalue⟩ := Option.isSome_iff_exists.1 hread.2
  obtain ⟨value', hvalue'⟩ := Option.isSome_iff_exists.1 hread'.2
  rw [filterBody_document hcut hd hread hbefore hafter hvalue htype,
    filterBody_document hcut' hd' hread' hbefore hafter hvalue' htype,
    filterJSON_twin htwin hvalue hvalue']

/-! ## Filtering a line of an event stream -/

/-- What stands before `data:` on a line. -/
def IsIndent (s : Bytes) : Prop := ∀ b ∈ s, (b = 0x20 || b = 0x09) = true

/-- A data line with one readable document is filtered by its names. -/
theorem filterLine_document {indent payload before after : Text} {d : Document} {value : Value F}
    (hindent : IsIndent indent) (hpayload : Bytes.trimSpace payload = before ++ (d.text ++ after))
    (hd : d.WellFormed) (hread : d.Readable numbers) (hbefore : IsSpaces before)
    (hafter : IsSpaces after) (hvalue : d.value numbers = some value) :
    filterLine numbers (indent ++ utf8 "data:" ++ payload) =
      indent ++ utf8 "data: " ++ marshal numbers (filterJSON value []) := by
  have hcons : utf8 "data:" = 0x64 :: utf8 "ata:" := rfl
  have hdrop : (indent ++ utf8 "data:" ++ payload).dropWhile (fun b => b = 0x20 || b = 0x09) =
      utf8 "data:" ++ payload := by
    rw [List.append_assoc, List.dropWhile_append_of_pos hindent, hcons, List.cons_append]
    rfl
  have htake : (indent ++ utf8 "data:" ++ payload).takeWhile (fun b => b = 0x20 || b = 0x09) =
      indent := by
    rw [List.append_assoc, List.takeWhile_append_of_pos hindent, hcons, List.cons_append]
    show indent ++ [] = indent
    rw [List.append_nil]
  have hrest : (utf8 "data:" ++ payload).drop 5 = payload := List.drop_left' rfl
  have hstart : (utf8 "data:").isPrefixOf (utf8 "data:" ++ payload) = true :=
    List.isPrefixOf_iff_prefix.2 (List.prefix_append _ _)
  rw [filterLine, hdrop, htake, if_pos hstart, hrest, hpayload,
    unmarshal_document numbers hd hread.1 hbefore hafter, hvalue]

/-- Two lines of an event stream that are the same, or data lines with one
readable document each, which are twins. -/
inductive SameLine (numbers : Numbers F) : Bytes → Bytes → Prop
  | same (line : Bytes) : SameLine numbers line line
  | data {indent payload payload' : Bytes} {d d' : Document} (hindent : IsIndent indent)
      (h : Twins sensitiveName (Bytes.trimSpace payload) (Bytes.trimSpace payload') d d')
      (hread : d.Readable numbers) (hread' : d'.Readable numbers) :
      SameLine numbers (indent ++ utf8 "data:" ++ payload) (indent ++ utf8 "data:" ++ payload')

theorem SameLine.filterLine {line line' : Bytes} (h : SameLine numbers line line') :
    filterLine numbers line = filterLine numbers line' := by
  cases h with
  | same line => rfl
  | data hindent h hread hread' =>
      obtain ⟨⟨hd, hd'⟩, htwin, ⟨before, after, hbefore, hafter, htext, htext'⟩, -⟩ := h
      obtain ⟨value, hvalue⟩ := Option.isSome_iff_exists.1 hread.2
      obtain ⟨value', hvalue'⟩ := Option.isSome_iff_exists.1 hread'.2
      rw [filterLine_document hindent htext hd hread hbefore hafter hvalue,
        filterLine_document hindent htext' hd' hread' hbefore hafter hvalue',
        filterJSON_twin htwin hvalue hvalue']

theorem filterSSE_lines {s s' : Bytes}
    (h : List.Forall₂ (SameLine numbers) (s.splitOn newline) (s'.splitOn newline)) :
    filterSSE numbers s = filterSSE numbers s' := by
  have hlines : (s.splitOn newline).map (filterLine numbers) =
      (s'.splitOn newline).map (filterLine numbers) := by
    generalize s.splitOn newline = lines, s'.splitOn newline = lines' at h
    induction h with
    | nil => rfl
    | cons hline _ ih => rw [List.map_cons, List.map_cons, hline.filterLine, ih]
  rw [filterSSE, filterSSE, hlines]

/-- What a view has of two bodies tells them apart nowhere but in what is
filtered by its name: the bytes at hand are the same, or each is one readable
document, and the two are twins. In an event stream this goes for each line. -/
def Covered (numbers : Numbers F) (contentType : String) (cut cut' : Bytes) : Prop :=
  cut = cut' ∨
    if utf8 "event-stream" <:+: toLower (utf8 contentType) then
      List.Forall₂ (SameLine numbers) (cut.splitOn newline) (cut'.splitOn newline)
    else ∃ d d', Twins sensitiveName (Bytes.trimSpace cut) (Bytes.trimSpace cut') d d' ∧
      d.Readable numbers ∧ d'.Readable numbers

theorem Covered.filterBody {contentType : String} {cut cut' : Bytes}
    (h : Covered numbers contentType cut cut') :
    filterBody numbers cut contentType = filterBody numbers cut' contentType := by
  rcases h with rfl | h
  · rfl
  by_cases htype : utf8 "event-stream" <:+: toLower (utf8 contentType)
  · rw [if_pos htype] at h
    rw [Capture.filterBody, Capture.filterBody, if_pos htype, if_pos htype, filterSSE_lines h]
  · rw [if_neg htype] at h
    obtain ⟨d, d', htwins, hread, hread'⟩ := h
    exact filterBody_twins htwins hread hread' htype

/-- What is not decoded and holds nothing the patterns match. -/
structure Bare (numbers : Numbers F) (contentType : String) (cut : Bytes) : Prop where
  plain : ¬ utf8 "event-stream" <:+: toLower (utf8 contentType)
  undecoded : unmarshal numbers (Bytes.trimSpace cut) = none
  absent : ∀ pattern ∈ secretPatterns, ¬ pattern.Occurs cut

theorem redactText_of_absent {text : Bytes}
    (h : ∀ pattern ∈ secretPatterns, ¬ pattern.Occurs text) : redactText text = text := by
  rw [redactText]
  generalize secretPatterns = patterns at h
  induction patterns with
  | nil => rfl
  | cons pattern patterns ih =>
      rw [List.foldl_cons, Regex.replaceAll_of_absent (h pattern List.mem_cons_self)]
      exact ih fun pattern hpattern => h pattern (List.mem_cons_of_mem _ hpattern)

theorem Bare.filterBody {contentType : String} {cut : Bytes} (h : Bare numbers contentType cut) :
    filterBody numbers cut contentType = cut := by
  rw [Capture.filterBody, if_neg h.plain, h.undecoded, redactText_of_absent h.absent]
  exact ite_self cut

end Filtering

/-! ## The views -/

section Views

variable {F : Type} {numbers : Numbers F} {g : Gcm}

/-- What the export has of a body. -/
def Body.captured (b : Body g) : Bytes := b.source.content.take b.limit

/-- What the preview has of a body. -/
def Body.shown (b : Body g) : Bytes := b.captured.take maxPreviewBytes

theorem preview_image {key : Bytes} {b : Body g} (hwritten : (b.encryption key).err = none)
    (contentType : String) :
    preview numbers g key (b.image key) contentType =
      .ok (filterBody numbers b.shown contentType,
        decide (maxPreviewBytes ≤ b.captured.length)) := by
  obtain ⟨⟨g', hkey⟩, hstored⟩ := encryptChunks_ok hwritten
  have hcontent : (b.encryption key).chunks.flatMap Chunk.plain = b.captured := hstored.content
  have hlong : ∀ c ∈ (b.encryption key).chunks, c.plain.length ≤ chunkSize :=
    chunks_encryptChunks
  have hview := filteredObject_assemble numbers hkey hlong contentType maxPreviewBytes
  have hmore : ((b.encryption key).chunks ≠ [] ∧
      maxPreviewBytes ≤ ((b.encryption key).chunks.flatMap Chunk.plain).length) ↔
      maxPreviewBytes ≤ b.captured.length := by
    rw [hcontent]
    refine ⟨And.right, fun hle => ⟨?_, hle⟩⟩
    intro hnil
    rw [hnil, List.flatMap_nil] at hcontent
    rw [← hcontent] at hle
    exact absurd hle (by decide)
  rw [preview, image_eq_assemble hwritten, hview, hcontent]
  rw [hcontent] at hmore
  rw [decide_eq_decide.2 hmore]
  rfl

theorem writeFiltered_image {key : Bytes} {b : Body g} (hwritten : (b.encryption key).err = none)
    (contentType : String) :
    writeFiltered numbers g key (b.image key) contentType =
      .ok (filterBody numbers b.captured contentType) := by
  rw [writeFiltered, decryptChunks_image hwritten]
  rfl

/-- **Where what a view has of two bodies of the same length is covered, the
view does not tell the bodies apart.** What is neither decoded nor matched by a
pattern is shown as it is. -/
theorem Body.views {key key' : Bytes} {b b' : Body g} (hwritten : (b.encryption key).err = none)
    (hwritten' : (b'.encryption key').err = none)
    (hlen : b.source.content.length = b'.source.content.length) (hlimit : b.limit = b'.limit)
    (contentType : String) :
    (Covered numbers contentType b.shown b'.shown →
      preview numbers g key (b.image key) contentType =
        preview numbers g key' (b'.image key') contentType) ∧
      (Covered numbers contentType b.captured b'.captured →
        writeFiltered numbers g key (b.image key) contentType =
          writeFiltered numbers g key' (b'.image key') contentType) ∧
      (Bare numbers contentType b.shown → Bare numbers contentType b'.shown →
        b.shown ≠ b'.shown → preview numbers g key (b.image key) contentType ≠
          preview numbers g key' (b'.image key') contentType) ∧
      (Bare numbers contentType b.captured → Bare numbers contentType b'.captured →
        b.captured ≠ b'.captured → writeFiltered numbers g key (b.image key) contentType ≠
          writeFiltered numbers g key' (b'.image key') contentType) := by
  have hcut : b.captured.length = b'.captured.length := by
    rw [Body.captured, Body.captured, List.length_take, List.length_take, hlen, hlimit]
  rw [preview_image hwritten, preview_image hwritten', writeFiltered_image hwritten,
    writeFiltered_image hwritten', hcut]
  refine ⟨fun h => ?_, fun h => ?_, fun h h' hne => ?_, fun h h' hne => ?_⟩
  · rw [h.filterBody]
  · rw [h.filterBody]
  · rw [h.filterBody, h'.filterBody]
    intro heq
    injection heq with heq
    injection heq with heq
    exact hne heq
  · rw [h.filterBody, h'.filterBody]
    intro heq
    injection heq with heq
    exact hne heq

/-! A body with a cookie. -/

/-- The document `{"cookie":"…"}`, with a gap before the value. -/
def cookie (gap value : Bytes) : Document :=
  .object (.last [] (utf8 "cookie") [] gap (.token (.string value)) [])

def bodyOf (content : Bytes) : Body checksum :=
  ⟨"1-request.enc", [(content, some (.short .eof))], 2 ^ 20, [nonceOf 7], []⟩

def letters (c : Char) : Bytes := utf8 (String.ofList [c, c, c, c])

theorem twins_cookie {gap value value' : Bytes} (hgap : IsSpaces gap)
    (hvalue : ∀ c ∈ value, ¬ c < 0x20 ∧ c ≠ quoteMark ∧ c ≠ backslash)
    (hvalue' : ∀ c ∈ value', ¬ c < 0x20 ∧ c ≠ quoteMark ∧ c ≠ backslash)
    (hlen : value.length = value'.length) :
    Twins sensitiveName (cookie gap value).text (cookie gap value').text (cookie gap value)
      (cookie gap value') := by
  have hname : IsString (utf8 "cookie") := isString_of_plain (by decide +kernel)
  have hnil : IsSpaces [] := fun _ h => nomatch h
  refine ⟨⟨⟨hnil, hname, hnil, hgap, isString_of_plain hvalue, hnil⟩,
    ⟨hnil, hname, hnil, hgap, isString_of_plain hvalue', hnil⟩⟩,
    .object (.lastHidden (by decide +kernel)), ⟨[], [], hnil, hnil, ?_, ?_⟩, ?_⟩
  · rw [List.append_nil, List.nil_append]
  · rw [List.append_nil, List.nil_append]
  · simp only [cookie, Document.text, Members.text, Token.text, List.length_cons,
      List.length_append, hlen]

theorem Body.views_cookie :
    preview numberTexts checksum (List.replicate 16 0)
        ((bodyOf (cookie [] (letters 'a')).text).image (List.replicate 16 0)) "application/json" =
      preview numberTexts checksum (List.replicate 16 1)
        ((bodyOf (cookie [] (letters 'b')).text).image (List.replicate 16 1))
        "application/json" := by
  have hshown (c : Char) (hc : (cookie [] (letters c)).text.length ≤ maxPreviewBytes) :
      (bodyOf (cookie [] (letters c)).text).shown = (cookie [] (letters c)).text := by
    rw [Body.shown, Body.captured]
    show (((cookie [] (letters c)).text).take maxPreviewBytes).take maxPreviewBytes = _
    rw [List.take_of_length_le hc, List.take_of_length_le hc]
  refine (@Body.views Text numberTexts checksum (List.replicate 16 0) (List.replicate 16 1)
    (bodyOf (cookie [] (letters 'a')).text) (bodyOf (cookie [] (letters 'b')).text)
    (by decide +kernel) (by decide +kernel) (by decide +kernel) rfl "application/json").1 (.inr ?_)
  have htrimA : Bytes.trimSpace (cookie [] (letters 'a')).text = (cookie [] (letters 'a')).text :=
    Lib.Trim.trim_of_none Bytes.nil_notMem_spaces (by decide +kernel) (by decide +kernel)
  have htrimB : Bytes.trimSpace (cookie [] (letters 'b')).text = (cookie [] (letters 'b')).text :=
    Lib.Trim.trim_of_none Bytes.nil_notMem_spaces (by decide +kernel) (by decide +kernel)
  rw [hshown 'a' (by decide +kernel), hshown 'b' (by decide +kernel), if_neg (by decide +kernel),
    htrimA, htrimB]
  exact ⟨_, _, twins_cookie (fun _ h => nomatch h) (by decide +kernel) (by decide +kernel) rfl,
    ⟨by decide +kernel, by decide +kernel⟩, ⟨by decide +kernel, by decide +kernel⟩⟩

/-- The event of a JSON text: each line of the text on a data line. -/
def eventOf (payload : Bytes) : Bytes :=
  ((payload.splitOn newline).flatMap fun line => utf8 "data: " ++ line ++ [newline]) ++ [newline]

/-- The cookie of an event is shown where a line feed stands before it. -/
theorem views_tell_lines_apart :
    ∃ (payload payload' : Bytes) (d d' : Document),
      (Twins sensitiveName payload payload' d d' ∧ d.Readable numberTexts ∧
        d'.Readable numberTexts) ∧
      (((bodyOf (eventOf payload)).encryption (List.replicate 16 0)).err = none ∧
        ((bodyOf (eventOf payload')).encryption (List.replicate 16 0)).err = none) ∧
      preview numberTexts checksum (List.replicate 16 0)
          ((bodyOf (eventOf payload)).image (List.replicate 16 0)) "text/event-stream" ≠
        preview numberTexts checksum (List.replicate 16 0)
          ((bodyOf (eventOf payload')).image (List.replicate 16 0)) "text/event-stream" ∧
      writeFiltered numberTexts checksum (List.replicate 16 0)
          ((bodyOf (eventOf payload)).image (List.replicate 16 0)) "text/event-stream" ≠
        writeFiltered numberTexts checksum (List.replicate 16 0)
          ((bodyOf (eventOf payload')).image (List.replicate 16 0)) "text/event-stream" := by
  have hgap : IsSpaces [newline] := by
    intro c hc
    rw [List.mem_singleton.1 hc]
    rfl
  have htwins := @twins_cookie [newline] (letters 'a') (letters 'b') hgap (by decide +kernel)
    (by decide +kernel)
    rfl
  refine ⟨_, _, _, _,
    ⟨htwins, ⟨by decide +kernel, by decide +kernel⟩, ⟨by decide +kernel, by decide +kernel⟩⟩,
    ?_, ?_, ?_⟩
  · exact ⟨by decide +kernel, by decide +kernel⟩
  · decide +kernel
  · decide +kernel

end Views

end RelayLifeline.Capture
