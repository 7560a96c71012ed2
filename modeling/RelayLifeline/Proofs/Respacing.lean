import RelayLifeline.Proofs.EventStream
import Mathlib.Data.Option.Basic

/-!
# The whitespace of a JSON text does not matter

A decoder that obeys the grammar of JSON reads the same where a run of
whitespace outside the strings is another one. The data of an event is decoded
after it was trimmed, and so the visitor keeps the same of it.
-/

namespace RelayLifeline.Proxy.EventStream

open Bytes (spaces nil_notMem_spaces separator_of_mem)

/-! ## Respaced texts -/

/-- Where a byte of a JSON text stands. -/
inductive Quote where
  | outside
  | inside
  | escaped
  deriving DecidableEq, Repr

def Quote.next : Quote → UInt8 → Quote
  | .outside, b => if b = 34 then .inside else .outside
  | .inside, b => if b = 92 then .escaped else if b = 34 then .outside else .inside
  | .escaped, _ => .inside

/-- Where what follows the text stands. -/
def quote (s : List UInt8) : Quote := s.foldl Quote.next .outside

/-- Nothing but whitespace. -/
def Spaces (s : List UInt8) : Prop := ∀ b ∈ s, isJSONSpace b = true

/-- The texts differ in one run of whitespace, outside the strings. -/
inductive Respaced : List UInt8 → List UInt8 → Prop
  | intro {before gap gap' : List UInt8} (after : List UInt8)
      (hstring : quote before = .outside) (hgap : Spaces gap) (hne : gap ≠ [])
      (hgap' : Spaces gap') (hne' : gap' ≠ []) :
      Respaced (before ++ gap ++ after) (before ++ gap' ++ after)

def Alike (data data' : List UInt8) : Prop := data = data' ∨ Respaced data data'

/-- The decoder takes the whitespace between the tokens of a text for what the
grammar of JSON takes it: one run is as good as another. The text of a value
has the whitespace that is in it. -/
structure Decoder.Lawful (dec : Decoder) : Prop where
  event {data data' : List UInt8} : Respaced data data' →
    Option.Rel (fun event event' => event.type = event'.type ∧ event.status = event'.status ∧
      Alike event.error event'.error) (dec.event data) (dec.event data')
  object {data data' : List UInt8} : Respaced data data' →
    Option.Rel (fun fields fields' => ∀ name, Option.Rel Alike (fields name) (fields' name))
      (dec.object data) (dec.object data')
  integer {data data' : List UInt8} : Respaced data data' →
    dec.integer data = dec.integer data'

theorem Respaced.symm {data data' : List UInt8} (h : Respaced data data') :
    Respaced data' data := by
  cases h with
  | intro after hstring hgap hne hgap' hne' => exact .intro after hstring hgap' hne' hgap hne

/-- A respaced text has whitespace in it. -/
theorem Respaced.ne {data data' text : List UInt8} (h : Respaced data data')
    (htext : ∀ b ∈ text, isJSONSpace b = false) : data ≠ text := by
  cases h with
  | @intro before gap _ after _ hgap hne _ _ =>
      rintro rfl
      obtain ⟨b, hb⟩ := List.exists_mem_of_ne_nil gap hne
      have hnot := htext b (List.mem_append_left _ (List.mem_append_right _ hb))
      rw [hgap b hb] at hnot
      exact Bool.noConfusion hnot

/-- Two texts are alike to a test for a text without whitespace. -/
theorem Alike.eq_iff {data data' text : List UInt8} (h : Alike data data')
    (htext : ∀ b ∈ text, isJSONSpace b = false) : data = text ↔ data' = text := by
  rcases h with rfl | h
  · exact Iff.rfl
  · exact iff_of_false (h.ne htext) (h.symm.ne htext)

/-! ## Usage -/

theorem null_notSpace : ∀ b ∈ utf8 "null", isJSONSpace b = false := by decide +kernel

theorem doneMarker_notSpace : ∀ b ∈ doneMarker, isJSONSpace b = false := by decide +kernel

theorem nil_notSpace : ∀ b ∈ ([] : List UInt8), isJSONSpace b = false :=
  fun _ hb => absurd hb List.not_mem_nil

namespace Decoder.Lawful

variable {dec : Decoder} (h : dec.Lawful)

include h

theorem integer_alike {raw raw' : List UInt8} (hraw : Alike raw raw') :
    dec.integer raw = dec.integer raw' := by
  rcases hraw with rfl | hraw
  · rfl
  · exact h.integer hraw

theorem usageInteger_alike {object object' : String → Option (List UInt8)}
    (hobject : ∀ name, Option.Rel Alike (object name) (object' name)) (keys : List String) :
    dec.usageInteger object keys = dec.usageInteger object' keys := by
  have hkey : (fun key => (object key).bind dec.integer) =
      fun key => (object' key).bind dec.integer := by
    funext key
    have hrel := hobject key
    generalize object key = raw, object' key = raw' at hrel
    cases hrel with
    | none => rfl
    | some hraw => exact h.integer_alike hraw
  rw [usageInteger, usageInteger, hkey]

theorem parseUsageObject_alike {raw raw' : List UInt8} (hraw : Alike raw raw') :
    dec.parseUsageObject raw = dec.parseUsageObject raw' := by
  rcases hraw with rfl | hraw
  · rfl
  have halike : Alike raw raw' := .inr hraw
  have hnil := halike.eq_iff nil_notSpace
  have hnull := halike.eq_iff null_notSpace
  have hobject := h.object hraw
  rw [parseUsageObject, parseUsageObject]
  simp only [hnil, hnull]
  generalize dec.object raw = object, dec.object raw' = object' at hobject
  cases hobject with
  | none => rfl
  | some hfields => simp only [h.usageInteger_alike hfields]

/-- The usage a text reports does not depend on its whitespace. -/
theorem tokenUsageFromJSON_alike {data data' : List UInt8} (hdata : Alike data data') :
    dec.tokenUsageFromJSON data = dec.tokenUsageFromJSON data' := by
  induction hn : data.length using Nat.strong_induction_on generalizing data data' with
  | _ n ih =>
    rcases hdata with rfl | hdata
    · rfl
    have hobject := h.object hdata
    have hshorter := fun fields nested => @dec.shorter data fields "response" nested
    rw [dec.tokenUsageFromJSON_eq data, dec.tokenUsageFromJSON_eq data']
    generalize dec.object data = object, dec.object data' = object' at hobject hshorter
    cases hobject with
    | none => rfl
    | @some envelope spaced hfields =>
        have husage : Alike ((envelope "usage").getD []) ((spaced "usage").getD []) := by
          have hrel := hfields "usage"
          generalize envelope "usage" = raw, spaced "usage" = raw' at hrel
          cases hrel with
          | none => exact .inl rfl
          | some hraw => exact hraw
        have hnested : (envelope "response").bind dec.tokenUsageFromJSON =
            (spaced "response").bind dec.tokenUsageFromJSON := by
          have hrel := hfields "response"
          have hlt := fun nested => hshorter envelope nested rfl
          generalize envelope "response" = raw, spaced "response" = raw' at hrel hlt
          cases hrel with
          | none => rfl
          | @some nested _ hraw => exact ih nested.length (hn ▸ hlt nested rfl) hraw rfl
        show (dec.parseUsageObject _).or _ = (dec.parseUsageObject _).or _
        rw [h.parseUsageObject_alike husage, hnested]

end Decoder.Lawful

/-! ## Events -/

/-- The data of two events differs in a run of whitespace outside the strings,
and one of the two may have none where there is nothing beside it. -/
inductive Gapped : List UInt8 → List UInt8 → Prop
  | intro {before gap gap' after : List UInt8} (hstring : quote before = .outside)
      (hgap : Spaces gap) (hgap' : Spaces gap') (hne' : gap' ≠ [])
      (hedge : gap ≠ [] ∨ before = [] ∨ after = []) :
      Gapped (before ++ gap ++ after) (before ++ gap' ++ after)

theorem separator_of_isJSONSpace {b : UInt8} (h : isJSONSpace b = true) :
    Lib.Trim.Separator spaces b := by
  refine separator_of_mem ?_
  simp only [isJSONSpace, decide_eq_true_eq] at h
  simpa [space, newline, carriageReturn] using h

theorem Spaces.separators {gap : List UInt8} (h : Spaces gap) :
    ∀ b ∈ gap, Lib.Trim.Separator spaces b := fun b hb => separator_of_isJSONSpace (h b hb)

/-- What is trimmed opens no string. -/
theorem quote_trimStart {s : List UInt8} (h : quote s = .outside) :
    quote (Lib.Trim.trimStart spaces s) = .outside := by
  obtain ⟨dropped, hs, hcodes⟩ := Lib.Trim.trimStart_suffix nil_notMem_spaces s
  have hdropped : quote dropped = .outside := by
    clear hs h
    rw [quote]
    induction dropped with
    | nil => rfl
    | cons b dropped ih =>
        obtain ⟨code, hcode, hb⟩ := hcodes b List.mem_cons_self
        have hplain : ∀ code ∈ spaces, ∀ b ∈ code, b ≠ 34 := by decide +kernel
        rw [List.foldl_cons, Quote.next, if_neg (hplain code hcode b hb)]
        exact ih fun c hc => hcodes c (List.mem_cons_of_mem _ hc)
  rw [hs, quote, List.foldl_append] at h
  rw [quote] at hdropped
  rwa [hdropped] at h

/-- Trimmed, the data of two such events is the same or respaced. -/
theorem trimSpace_gapped {raw raw' : List UInt8} (h : Gapped raw raw') :
    Alike (Bytes.trimSpace raw) (Bytes.trimSpace raw') := by
  cases h with
  | @intro before gap gap' after hstring hgap hgap' hne' hedge =>
      rw [Bytes.trimSpace, Bytes.trimSpace, Lib.Trim.trim_gap nil_notMem_spaces hne' hgap'.separators]
      by_cases hne : gap = []
      · subst hne
        rcases hedge with hfalse | rfl | rfl
        · exact absurd rfl hfalse
        · rw [Lib.Trim.trimStart_nil, if_pos rfl]
          exact .inl rfl
        · rw [Lib.Trim.trimEnd_nil, if_pos rfl, List.append_nil, List.append_nil]
          split
          · next hblank =>
            refine .inl ?_
            rw [Lib.Trim.trim, hblank]
            rfl
          · exact .inl rfl
      · rw [Lib.Trim.trim_gap nil_notMem_spaces hne hgap.separators]
        split
        · exact .inl rfl
        split
        · exact .inl rfl
        · exact .inr (.intro _ (quote_trimStart hstring) hgap hne hgap' hne')

variable {dec : Decoder}

/-- The visitor keeps the same of both. -/
theorem visit_gapped (hdec : dec.Lawful) {raw raw' : List UInt8} (h : Gapped raw raw')
    (verdict : Verdict) : visit dec verdict raw = visit dec verdict raw' := by
  have halike := trimSpace_gapped h
  have hnil := halike.eq_iff nil_notSpace
  have hdone := halike.eq_iff doneMarker_notSpace
  have husage := hdec.tokenUsageFromJSON_alike halike
  have hevent : Option.Rel (fun event event' => event.type = event'.type ∧
      event.status = event'.status ∧ Alike event.error event'.error)
      (dec.event (Bytes.trimSpace raw)) (dec.event (Bytes.trimSpace raw')) := by
    rcases halike with heq | hrespaced
    · rw [heq]
      cases dec.event (Bytes.trimSpace raw') with
      | none => exact .none
      | some event => exact .some ⟨rfl, rfl, .inl rfl⟩
    · exact hdec.event hrespaced
  simp only [visit, hnil, hdone, husage]
  generalize dec.event (Bytes.trimSpace raw) = decoded, dec.event (Bytes.trimSpace raw') = decoded' at hevent
  cases hevent with
  | none => rfl
  | @some event event' hsame =>
      obtain ⟨htype, hstatus, herror⟩ := hsame
      have hfailure : event.failure = event'.failure := by
        rw [Event.failure, Event.failure, htype, hstatus]
        simp only [herror.eq_iff nil_notSpace, herror.eq_iff null_notSpace, ne_eq]
      simp only [htype, hfailure]

theorem visitAll_gapped (hdec : dec.Lawful) {raws raws' : List (List UInt8)}
    (h : List.Forall₂ (fun raw raw' => raw = raw' ∨ Gapped raw raw') raws raws')
    (verdict : Verdict) : visitAll dec verdict raws = visitAll dec verdict raws' := by
  induction h generalizing verdict with
  | nil => rfl
  | @cons raw raw' raws raws' hraw _ ih =>
      have hvisit : visit dec verdict raw = visit dec verdict raw' := by
        rcases hraw with rfl | hgapped
        · rfl
        · exact visit_gapped hdec hgapped verdict
      rw [visitAll, visitAll, hvisit]
      cases visit dec verdict raw' with
      | none => rfl
      | some next => exact ih next

end RelayLifeline.Proxy.EventStream
