import RelayLifeline.Proxy.EventStream
import Mathlib.Tactic.Common

/-!
# An event stream is judged by its events

A reader that delivers a stream with short lines makes the scanner produce the
lines of the stream, however the bytes are cut into chunks; the loop over the
lines visits the events `scanSSEData` finds, in their order; and the verdict
over the events is the conjunction and the disjunctions of what each of them
is.
-/

namespace RelayLifeline.Proxy.EventStream

open Bytes (spaces)

/-! ## Lines -/

/-- A stream is a line and the stream after it, or has no newline. -/
theorem line_induction {P : List UInt8 → Prop} (tail : ∀ line, newline ∉ line → P line)
    (line : ∀ line rest, newline ∉ line → P rest → P (line ++ newline :: rest))
    (s : List UInt8) : P s := by
  suffices ∀ pre, newline ∉ pre → P (pre ++ s) from this [] List.not_mem_nil
  induction s with
  | nil =>
      intro pre hpre
      rw [List.append_nil]
      exact tail pre hpre
  | cons b s ih =>
      intro pre hpre
      by_cases hb : b = newline
      · subst hb
        exact line pre s hpre (ih [] List.not_mem_nil)
      · rw [List.append_cons]
        refine ih (pre ++ [b]) fun hin => ?_
        rcases List.mem_append.1 hin with h | h
        · exact hpre h
        · exact hb (List.mem_singleton.1 h).symm

/-- What no newline ends is one line, unless it is empty. -/
theorem lines_tail {line : List UInt8} (h : newline ∉ line) (hne : line ≠ []) :
    lines line = [line] := by
  induction line with
  | nil => exact absurd rfl hne
  | cons b line ih =>
      have hb : b ≠ newline := fun hb => h (hb ▸ List.mem_cons_self)
      rw [lines, if_neg hb]
      cases line with
      | nil => rfl
      | cons c line =>
          rw [ih (fun hin => h (List.mem_cons_of_mem _ hin)) (List.cons_ne_nil c line)]

theorem splitLines_tail {line : List UInt8} (h : newline ∉ line) :
    splitLines line = ([], line) := by
  induction line with
  | nil => rfl
  | cons b line ih =>
      have hb : b ≠ newline := fun hb => h (hb ▸ List.mem_cons_self)
      rw [splitLines, if_neg hb, ih fun hin => h (List.mem_cons_of_mem _ hin)]

theorem splitLines_line {line : List UInt8} (rest : List UInt8) (h : newline ∉ line) :
    splitLines (line ++ newline :: rest) =
      (line :: (splitLines rest).1, (splitLines rest).2) := by
  induction line with
  | nil =>
      rw [List.nil_append, splitLines, if_pos rfl]
  | cons b line ih =>
      have hb : b ≠ newline := fun hb => h (hb ▸ List.mem_cons_self)
      rw [List.cons_append, splitLines, if_neg hb,
        ih fun hin => h (List.mem_cons_of_mem _ hin)]

/-- The full lines of a buffer are the first lines of the stream, and the rest
of it comes before what is read next. -/
theorem lines_splitLines (s t : List UInt8) :
    lines (s ++ t) = (splitLines s).1 ++ lines ((splitLines s).2 ++ t) := by
  induction s using line_induction with
  | tail line h =>
      rw [splitLines_tail h]
      rfl
  | line line rest h ih =>
      rw [splitLines_line rest h, List.append_assoc, List.cons_append, lines_append _ h, ih]
      rfl

theorem splitLines_rest (s : List UInt8) : newline ∉ (splitLines s).2 := by
  induction s using line_induction with
  | tail line h => rwa [splitLines_tail h]
  | line line rest h ih => rwa [splitLines_line rest h]

/-- What stands in the buffer without a newline begins the next line. -/
theorem lines_buffer {buffer : List UInt8} (h : newline ∉ buffer) (hne : buffer ≠ [])
    (t : List UInt8) : ∃ more rest, lines (buffer ++ t) = (buffer ++ more) :: rest := by
  induction t using line_induction with
  | tail line hline =>
      refine ⟨line, [], lines_tail (fun hin => ?_) ?_⟩
      · exact (List.mem_append.1 hin).elim h hline
      · exact fun hnil => hne (List.append_eq_nil_iff.1 hnil).1
  | line line rest hline _ =>
      refine ⟨line, lines rest, ?_⟩
      rw [← List.append_assoc, lines_append]
      exact fun hin => (List.mem_append.1 hin).elim h hline

/-! ## Reading in chunks -/

/-- The reader delivers the stream and then its end, with few enough reads in a
row that bring nothing. -/
inductive Delivers : Nat → List Read → List UInt8 → Prop
  | exhausted {loop : Nat} : Delivers loop [] []
  | eof {loop : Nat} (data : List UInt8) (rest : List Read) :
      Delivers loop ({ data, err := some .eof } :: rest) data
  | idle {loop : Nat} {rest : List Read} {body : List UInt8}
      (hloop : loop < maxConsecutiveEmptyReads) (hrest : Delivers (loop + 1) rest body) :
      Delivers loop ({ data := [] } :: rest) body
  | chunk {loop : Nat} {data : List UInt8} {rest : List Read} {body : List UInt8}
      (hdata : data ≠ []) (hrest : Delivers 0 rest body) :
      Delivers loop ({ data } :: rest) (data ++ body)

/-- Every line is shorter than the scanner's limit. -/
def Short (body : List UInt8) : Prop := ∀ line ∈ lines body, line.length < maxTokenSize

theorem Short.buffer {buffer body : List UInt8} (h : Short (buffer ++ body))
    (hbuffer : newline ∉ buffer) : buffer.length < maxTokenSize := by
  by_cases hne : buffer = []
  · rw [hne]
    exact Nat.lt_of_lt_of_le Nat.zero_lt_one (by decide)
  · obtain ⟨more, rest, hlines⟩ := lines_buffer hbuffer hne body
    have hlen := h (buffer ++ more) (by rw [hlines]; exact List.mem_cons_self)
    rw [List.length_append] at hlen
    omega

/-- **However the stream arrives in chunks, the scanner produces its lines.** -/
theorem scan_eq {loop : Nat} {reader : List Read} {body : List UInt8}
    (h : Delivers loop reader body) {buffer : List UInt8} (hbuffer : newline ∉ buffer)
    (hshort : Short (buffer ++ body)) :
    scan loop buffer reader = (lines (buffer ++ body), true) := by
  induction h generalizing buffer with
  | exhausted =>
      rw [scan, if_neg (Nat.not_le.2 (hshort.buffer hbuffer)), List.append_nil]
  | eof data rest => rw [scan, if_neg (Nat.not_le.2 (hshort.buffer hbuffer))]
  | idle hloop _ ih =>
      rw [scan, if_neg (Nat.not_le.2 (hshort.buffer hbuffer))]
      show (if ([] : List UInt8) = [] then _ else _) = _
      rw [if_pos rfl, if_neg (Nat.not_le.2 hloop)]
      exact ih hbuffer hshort
  | @chunk _ data rest body hdata _ ih =>
      have hsplit := lines_splitLines (buffer ++ data) body
      rw [List.append_assoc] at hsplit
      have hrest : Short ((splitLines (buffer ++ data)).2 ++ body) := by
        intro line hline
        exact hshort line (hsplit ▸ List.mem_append_right _ hline)
      rw [scan, if_neg (Nat.not_le.2 (hshort.buffer hbuffer))]
      show (if data = [] then _ else _) = _
      rw [if_neg hdata, hsplit]
      simp only [ih (splitLines_rest _) hrest]

/-! ## The events of the lines -/

/-- The data lines of the event, after one more line that does not end it. -/
def extend (dataLines : List (List UInt8)) (line : List UInt8) : List (List UInt8) :=
  if line.head? = some colon then dataLines
  else if (cutField line).1 = utf8 "data" then
    dataLines ++ [trimSpacePrefix (cutField line).2]
  else dataLines

/-- The events of the lines, after some data lines. -/
def events (dataLines : List (List UInt8)) : List (List UInt8) → List (List UInt8)
  | [] => dispatch dataLines
  | token :: rest =>
      if trimCR (trimCR token) = [] then dispatch dataLines ++ events [] rest
      else events (extend dataLines (trimCR (trimCR token))) rest

theorem scanLines_eq {tokens : List (List UInt8)}
    (h : ∀ token ∈ tokens, token.length < maxTokenSize) (dataLines : List (List UInt8)) :
    scanLines dataLines tokens = (events dataLines tokens, true) := by
  induction tokens generalizing dataLines with
  | nil => rfl
  | cons token tokens ih =>
      have htail := fun line hline => h line (List.mem_cons_of_mem _ hline)
      rw [scanLines, if_neg (Nat.not_le.2 (h token List.mem_cons_self)), events]
      dsimp only
      split
      · rw [ih htail]
      · rw [extend]
        split
        · exact ih htail dataLines
        split
        · exact ih htail _
        · exact ih htail dataLines

/-- `visitTokens`, over the events instead of the lines. -/
def visitAll (dec : Decoder) (verdict : Verdict) :
    List (List UInt8) → Verdict × Option StreamError
  | [] => (verdict, none)
  | raw :: rest =>
      match visit dec verdict raw with
      | none => (verdict, some .invalidJSON)
      | some verdict => visitAll dec verdict rest

variable {dec : Decoder}

theorem visitAll_dispatch (verdict : Verdict) (dataLines rest : List (List UInt8)) :
    visitAll dec verdict (dispatch dataLines ++ rest) =
      match dispatchTo dec verdict dataLines with
      | none => (verdict, some .invalidJSON)
      | some verdict => visitAll dec verdict rest := by
  rw [dispatch, dispatchTo]
  split
  · rfl
  · rfl

theorem visitTokens_eq (verdict : Verdict) (dataLines tokens : List (List UInt8)) :
    visitTokens dec true verdict dataLines tokens =
      visitAll dec verdict (events dataLines tokens) := by
  induction tokens generalizing verdict dataLines with
  | nil =>
      have hlast := @visitAll_dispatch dec verdict dataLines []
      rw [List.append_nil] at hlast
      rw [events, hlast]
      rfl
  | cons token tokens ih =>
      rw [visitTokens, events]
      split
      · rw [visitAll_dispatch]
        cases dispatchTo dec verdict dataLines with
        | none => rfl
        | some next => exact ih next []
      · rw [extend]
        split
        · exact ih verdict dataLines
        split
        · exact ih verdict _
        · exact ih verdict dataLines

/-- The validation of a stream that is delivered is one of its events. -/
theorem validateEventStream_eq {reader : List Read} {body : List UInt8}
    (h : Delivers 0 reader body) (hshort : Short body) (profile : ProtocolProfile) :
    validateEventStream dec profile reader =
      (visitAll dec {} (events [] (lines body))).1.validation profile
        (visitAll dec {} (events [] (lines body))).2 := by
  have hscan := scan_eq h List.not_mem_nil hshort
  rw [List.nil_append] at hscan
  simp only [validateEventStream, hscan, visitTokens_eq]

/-! ## The verdict over all events -/

def Blank (raw : List UInt8) : Prop := Bytes.trimSpace raw = []

def Done (raw : List UInt8) : Prop := Bytes.trimSpace raw = doneMarker

/-- The event is neither blank nor the end marker, and decodes. -/
def Carries (dec : Decoder) (raw : List UInt8) (event : Event) : Prop :=
  ¬ Blank raw ∧ ¬ Done raw ∧ dec.event (Bytes.trimSpace raw) = some event

/-- The event says that the response failed. -/
def Event.Fails (event : Event) : Prop :=
  event.type ∈ ["response.failed", "response.incomplete", "error"] ∨
    event.status ∈ ["failed", "incomplete"] ∨
    (event.error ≠ [] ∧ event.error ≠ utf8 "null")

/-- The completion marker of the profile is among the events. -/
def Completes (dec : Decoder) (raws : List (List UInt8)) : ProtocolProfile → Prop
  | .responses =>
      ∃ raw ∈ raws, ∃ event, Carries dec raw event ∧ event.type = "response.completed"
  | .chatCompletions => ∃ raw ∈ raws, Done raw
  | .genericJSON =>
      (∃ raw ∈ raws, ∃ event, Carries dec raw event ∧ event.type = "response.completed") ∨
        ∃ raw ∈ raws, Done raw

/-- What makes a stream of events a complete one. -/
structure Accepted (dec : Decoder) (profile : ProtocolProfile) (raws : List (List UInt8)) :
    Prop where
  decodes : ∀ raw ∈ raws, Blank raw ∨ Done raw ∨ ∃ event, Carries dec raw event
  sound : ∀ raw ∈ raws, ∀ event, Carries dec raw event → ¬ event.Fails
  complete : Completes dec raws profile

theorem Event.failure_iff (event : Event) : event.failure = true ↔ event.Fails := by
  simp only [Event.failure, Event.Fails, Bool.or_eq_true, Bool.and_eq_true, decide_eq_true_eq,
    List.mem_cons, List.not_mem_nil, or_false]
  tauto

theorem not_blank_of_done {raw : List UInt8} (h : Done raw) : ¬ Blank raw := by
  intro hblank
  rw [Done, hblank] at h
  exact absurd h (by decide)

theorem visit_blank {raw : List UInt8} (h : Blank raw) (verdict : Verdict) :
    visit dec verdict raw = some verdict := by
  have hblank : Bytes.trimSpace raw = [] := h
  simp only [visit]
  rw [if_pos hblank]

theorem visit_done {raw : List UInt8} (h : Done raw) (verdict : Verdict) :
    visit dec verdict raw = some { verdict with done := true } := by
  have hblank : ¬ Bytes.trimSpace raw = [] := not_blank_of_done h
  have hdone : Bytes.trimSpace raw = doneMarker := h
  simp only [visit]
  rw [if_neg hblank, if_pos hdone]

theorem visit_carries {raw : List UInt8} {event : Event} (h : Carries dec raw event)
    (verdict : Verdict) :
    visit dec verdict raw =
      some { verdict with
        usage := (dec.tokenUsageFromJSON (Bytes.trimSpace raw)).or verdict.usage
        responsesCompleted := verdict.responsesCompleted || event.type = "response.completed"
        failed := verdict.failed || event.failure } := by
  have hblank : ¬ Bytes.trimSpace raw = [] := h.1
  have hdone : ¬ Bytes.trimSpace raw = doneMarker := h.2.1
  have hevent := h.2.2
  simp only [visit]
  rw [if_neg hblank, if_neg hdone, hevent]

/-- The visitor stops at an event that is not blank, not the marker, and does
not decode. -/
theorem visit_eq_none {raw : List UInt8} {verdict : Verdict} :
    visit dec verdict raw = none ↔
      ¬ (Blank raw ∨ Done raw ∨ ∃ event, Carries dec raw event) := by
  constructor
  · rintro hnone (h | h | ⟨event, h⟩)
    · exact Option.some_ne_none _ ((visit_blank h verdict).symm.trans hnone)
    · exact Option.some_ne_none _ ((visit_done h verdict).symm.trans hnone)
    · exact Option.some_ne_none _ ((visit_carries h verdict).symm.trans hnone)
  · intro h
    have hblank : ¬ Bytes.trimSpace raw = [] := fun hb => h (.inl hb)
    have hdone : ¬ Bytes.trimSpace raw = doneMarker := fun hd => h (.inr (.inl hd))
    simp only [visit]
    rw [if_neg hblank, if_neg hdone]
    cases hevent : dec.event (Bytes.trimSpace raw) with
    | none => rfl
    | some event => exact absurd (.inr (.inr ⟨event, hblank, hdone, hevent⟩)) h

/-- A carried event is the only thing its data is. -/
theorem Carries.unique {raw : List UInt8} {event other : Event} (h : Carries dec raw event)
    (hother : Carries dec raw other) : other = event := by
  have hsome := hother.2.2
  rw [h.2.2] at hsome
  exact (Option.some.inj hsome).symm

/-- The verdict over events that are all readable is, flag by flag, that one of
them has what sets the flag. -/
theorem visitAll_readable {raws : List (List UInt8)}
    (h : ∀ raw ∈ raws, Blank raw ∨ Done raw ∨ ∃ event, Carries dec raw event)
    (verdict : Verdict) :
    (visitAll dec verdict raws).2 = none ∧
      ((visitAll dec verdict raws).1.done = true ↔
        verdict.done = true ∨ ∃ raw ∈ raws, Done raw) ∧
      ((visitAll dec verdict raws).1.responsesCompleted = true ↔
        verdict.responsesCompleted = true ∨
          ∃ raw ∈ raws, ∃ event, Carries dec raw event ∧ event.type = "response.completed") ∧
      ((visitAll dec verdict raws).1.failed = true ↔
        verdict.failed = true ∨
          ∃ raw ∈ raws, ∃ event, Carries dec raw event ∧ event.Fails) := by
  induction raws generalizing verdict with
  | nil => simp [visitAll]
  | cons raw raws ih =>
      have hrest := ih fun other hin => h other (List.mem_cons_of_mem _ hin)
      simp only [List.mem_cons, exists_eq_or_imp]
      rcases h raw List.mem_cons_self with hblank | hdone | ⟨event, hcarries⟩
      · have hcarry : ∀ event, ¬ Carries dec raw event := fun event hc => hc.1 hblank
        have hnot : ¬ Done raw := fun hd => not_blank_of_done hd hblank
        rw [visitAll, visit_blank hblank]
        simpa [hcarry, hnot] using hrest verdict
      · have hcarry : ∀ event, ¬ Carries dec raw event := fun event hc => hc.2.1 hdone
        rw [visitAll, visit_done hdone]
        simpa [hcarry, hdone] using hrest { verdict with done := true }
      · have hiff : ∀ other, Carries dec raw other ↔ other = event := fun other =>
          ⟨hcarries.unique, fun heq => heq ▸ hcarries⟩
        rw [visitAll, visit_carries hcarries]
        have hstep := hrest { verdict with
          usage := (dec.tokenUsageFromJSON (Bytes.trimSpace raw)).or verdict.usage
          responsesCompleted := verdict.responsesCompleted || event.type = "response.completed"
          failed := verdict.failed || event.failure }
        simpa [hiff, hcarries.2.1, or_assoc, Event.failure_iff] using hstep

/-- An event that does not decode stops the scan. -/
theorem visitAll_unreadable {raws : List (List UInt8)} {raw : List UInt8} (hin : raw ∈ raws)
    (h : ¬ (Blank raw ∨ Done raw ∨ ∃ event, Carries dec raw event)) (verdict : Verdict) :
    (visitAll dec verdict raws).2 = some .invalidJSON := by
  induction raws generalizing verdict with
  | nil => exact absurd hin List.not_mem_nil
  | cons first raws ih =>
      rw [visitAll]
      cases hvisit : visit dec verdict first with
      | none => rfl
      | some next =>
          rcases List.mem_cons.1 hin with rfl | hrest
          · rw [visit_eq_none.2 h] at hvisit
            exact absurd hvisit.symm (Option.some_ne_none next)
          · exact ih hrest next

/-- **A stream is accepted exactly when its events make it complete.** -/
theorem success_iff {raws : List (List UInt8)} (profile : ProtocolProfile) :
    ((visitAll dec {} raws).1.validation profile (visitAll dec {} raws).2).success = true ↔
      Accepted dec profile raws := by
  by_cases hread : ∀ raw ∈ raws, Blank raw ∨ Done raw ∨ ∃ event, Carries dec raw event
  · obtain ⟨hnone, hdone, hcompleted, hfailed⟩ := visitAll_readable hread {}
    simp only [Bool.false_eq_true, false_or] at hdone hcompleted hfailed
    have hmarker : (visitAll dec {} raws).1.completed profile = true ↔
        Completes dec raws profile := by
      cases profile with
      | genericJSON =>
          rw [Verdict.completed, Bool.or_eq_true, hcompleted, hdone]
          rfl
      | responses => exact hcompleted
      | chatCompletions => exact hdone
    have hsuccess : ((visitAll dec {} raws).1.validation profile none).success = true ↔
        ¬ (visitAll dec {} raws).1.failed = true ∧
          (visitAll dec {} raws).1.completed profile = true := by
      rw [Verdict.validation]
      split
      · next hf => simp [hf]
      split
      · next hf hc => simp [hc]
      · next hf hc => simpa [hf] using hc
    rw [hnone, hsuccess, hfailed, hmarker]
    constructor
    · rintro ⟨hsound, hcomplete⟩
      exact ⟨hread, fun raw hin event hc hf => hsound ⟨raw, hin, event, hc, hf⟩, hcomplete⟩
    · intro haccepted
      refine ⟨?_, haccepted.complete⟩
      rintro ⟨raw, hin, event, hc, hf⟩
      exact haccepted.sound raw hin event hc hf
  · have hcase := hread
    push Not at hread
    obtain ⟨raw, hin, hbad⟩ := hread
    have hstop := @visitAll_unreadable dec _ _ hin (by
      rintro (h | h | ⟨event, h⟩)
      · exact hbad.1 h
      · exact hbad.2.1 h
      · exact hbad.2.2 event h) {}
    rw [hstop]
    constructor
    · intro hsuccess
      exact Bool.noConfusion hsuccess
    · intro haccepted
      exact absurd haccepted.decodes hcase

end RelayLifeline.Proxy.EventStream
