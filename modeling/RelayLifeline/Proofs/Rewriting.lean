import RelayLifeline.Proofs.Respacing
import Mathlib.Data.List.TakeWhile
import Mathlib.Logic.Relation

/-!
# One stream, written in other ways

A stream may be written with other line ends, with comments and other fields
among its lines, and with the data of an event on more lines. The events stay
the same, up to the whitespace of their data, and with them the validation.
-/

namespace RelayLifeline.Proxy.EventStream

/-! ## Line ends -/

/-- A line without the carriage returns that are dropped at its end. -/
def strip (line : List UInt8) : List UInt8 := trimCR (trimCR line)

/-- CRLF becomes LF. -/
def toLF : List UInt8 → List UInt8
  | [] => []
  | b :: rest =>
      if b = carriageReturn ∧ rest.head? = some newline then toLF rest else b :: toLF rest

/-- Every line end becomes CRLF. -/
def toCRLF (body : List UInt8) : List UInt8 :=
  (toLF body).flatMap fun b => if b = newline then [carriageReturn, newline] else [b]

theorem trimCR_cons {line : List UInt8} (b : UInt8) (hne : line ≠ []) :
    trimCR (b :: line) = b :: trimCR line := by
  rw [trimCR, trimCR, List.getLast?_cons_of_ne_nil hne, List.dropLast_cons_of_ne_nil hne]
  split
  · rfl
  · rfl

/-- A text that does not end in a carriage return is not shortened by what
follows it. -/
theorem trimCR_append {text : List UInt8} (h : text.getLast? ≠ some carriageReturn)
    (line : List UInt8) : trimCR (text ++ line) = text ++ trimCR line := by
  by_cases hne : line = []
  · rw [hne, List.append_nil, trimCR, if_neg h, trimCR_nil, List.append_nil]
  · induction text with
    | nil => rfl
    | cons b text ih =>
        rw [List.cons_append, trimCR_cons b fun hnil => hne (List.append_eq_nil_iff.1 hnil).2]
        by_cases htext : text = []
        · rw [htext]
          rfl
        · rw [ih (by rwa [List.getLast?_cons_of_ne_nil htext] at h)]
          rfl

theorem trimCR_of_last {line : List UInt8} (h : line.getLast? ≠ some carriageReturn) :
    trimCR line = line := by
  rw [trimCR, if_neg h]

theorem trimCR_concat (line : List UInt8) : trimCR (line ++ [carriageReturn]) = line := by
  rw [trimCR, List.getLast?_concat, if_pos rfl, List.dropLast_concat]

theorem strip_append {text : List UInt8} (h : text.getLast? ≠ some carriageReturn)
    (line : List UInt8) : strip (text ++ line) = text ++ strip line := by
  rw [strip, trimCR_append h, trimCR_append h]
  rfl

theorem strip_cons {b : UInt8} (h : b ≠ carriageReturn) (line : List UInt8) :
    strip (b :: line) = b :: strip line :=
  @strip_append [b] (fun heq => h (Option.some.inj heq)) line

theorem trimCR_subset {line : List UInt8} {b : UInt8} (h : b ∈ trimCR line) : b ∈ line := by
  rw [trimCR] at h
  split at h
  · exact List.dropLast_subset line h
  · exact h

theorem strip_subset {line : List UInt8} {b : UInt8} (h : b ∈ strip line) : b ∈ line :=
  trimCR_subset (trimCR_subset h)

theorem toLF_tail {line : List UInt8} (h : newline ∉ line) : toLF line = line := by
  induction line with
  | nil => rfl
  | cons b line ih =>
      have hline : newline ∉ line := fun hin => h (List.mem_cons_of_mem _ hin)
      rw [toLF, ih hline, if_neg]
      rintro ⟨-, hhead⟩
      exact hline (List.mem_of_mem_head? hhead)

/-- One carriage return goes from before the newline. -/
theorem toLF_line {line : List UInt8} (rest : List UInt8) (h : newline ∉ line) :
    toLF (line ++ newline :: rest) = trimCR line ++ newline :: toLF rest := by
  induction line with
  | nil =>
      rw [List.nil_append, toLF, if_neg fun hand => absurd hand.1 (by decide)]
      rfl
  | cons b line ih =>
      have hline : newline ∉ line := fun hin => h (List.mem_cons_of_mem _ hin)
      rw [List.cons_append, toLF, ih hline]
      by_cases hne : line = []
      · subst hne
        by_cases hb : b = carriageReturn
        · rw [if_pos ⟨hb, rfl⟩, hb]
          rfl
        · have hlast : [b].getLast? ≠ some carriageReturn := fun heq => hb (Option.some.inj heq)
          rw [if_neg fun hand => hb hand.1, trimCR_of_last hlast]
          rfl
      · rw [if_neg, trimCR_cons b hne]
        · rfl
        rintro ⟨-, hhead⟩
        rw [List.head?_append_of_ne_nil line hne] at hhead
        exact hline (List.mem_of_mem_head? hhead)

theorem flatMap_line {line : List UInt8} (h : newline ∉ line) :
    (line.flatMap fun b => if b = newline then [carriageReturn, newline] else [b]) = line := by
  induction line with
  | nil => rfl
  | cons b line ih =>
      have hb : b ≠ newline := fun hb => h (hb ▸ List.mem_cons_self)
      rw [List.flatMap_cons, if_neg hb, ih fun hin => h (List.mem_cons_of_mem _ hin)]
      rfl

theorem toCRLF_line {line : List UInt8} (rest : List UInt8) (h : newline ∉ line) :
    toCRLF (line ++ newline :: rest) =
      (trimCR line ++ [carriageReturn]) ++ newline :: toCRLF rest := by
  rw [toCRLF, toLF_line rest h, List.flatMap_append, flatMap_line fun hin => h (trimCR_subset hin),
    List.flatMap_cons, if_pos rfl, List.append_assoc]
  rfl

/-- A carriage return more at the end of a line, of which at most two are
dropped, makes a difference only after two of them. -/
theorem strip_trimCR {line : List UInt8}
    (h : ¬ [carriageReturn, carriageReturn, carriageReturn] <:+ line) :
    strip (trimCR line) = strip line := by
  by_cases hlast : line.getLast? = some carriageReturn
  swap
  · rw [trimCR_of_last hlast]
  obtain ⟨line, rfl⟩ := List.getLast?_eq_some_iff.1 hlast
  rw [strip, strip, trimCR_concat]
  by_cases hlast : line.getLast? = some carriageReturn
  swap
  · rw [trimCR_of_last hlast, trimCR_of_last hlast]
  obtain ⟨line, rfl⟩ := List.getLast?_eq_some_iff.1 hlast
  rw [trimCR_concat]
  refine trimCR_of_last fun hlast => ?_
  obtain ⟨line, rfl⟩ := List.getLast?_eq_some_iff.1 hlast
  exact h ⟨line, by simp⟩

theorem map_strip_toLF {body : List UInt8}
    (h : ¬ [carriageReturn, carriageReturn, carriageReturn, newline] <:+: body) :
    (lines (toLF body)).map strip = (lines body).map strip := by
  induction body using line_induction with
  | tail line hline => rw [toLF_tail hline]
  | line line rest hline ih =>
      have hrest : ¬ [carriageReturn, carriageReturn, carriageReturn, newline] <:+: rest := by
        intro hin
        refine h (hin.trans ?_)
        exact ((List.suffix_cons newline rest).trans (List.suffix_append line _)).isInfix
      have hthree : ¬ [carriageReturn, carriageReturn, carriageReturn] <:+ line := by
        rintro ⟨text, rfl⟩
        exact h ⟨text, rest, by simp⟩
      rw [toLF_line rest hline, lines_append _ hline,
        lines_append _ fun hin => hline (trimCR_subset hin), List.map_cons, List.map_cons,
        ih hrest, strip_trimCR hthree]

theorem map_strip_toCRLF (body : List UInt8) :
    (lines (toCRLF body)).map strip = (lines body).map strip := by
  induction body using line_induction with
  | tail line hline => rw [toCRLF, toLF_tail hline, flatMap_line hline]
  | line line rest hline ih =>
      have hends : newline ∉ trimCR line ++ [carriageReturn] := by
        intro hin
        rcases List.mem_append.1 hin with hin | hin
        · exact hline (trimCR_subset hin)
        · exact absurd (List.mem_singleton.1 hin) (by decide)
      rw [toCRLF_line rest hline, lines_append _ hline, lines_append _ hends, List.map_cons,
        List.map_cons, ih]
      simp only [strip, trimCR_concat]

/-- The events of the lines do not see the carriage returns that are dropped. -/
theorem events_of_map_strip {tokens tokens' : List (List UInt8)}
    (h : tokens.map strip = tokens'.map strip) (dataLines : List (List UInt8)) :
    events dataLines tokens = events dataLines tokens' := by
  induction tokens generalizing dataLines tokens' with
  | nil =>
      rw [List.map_nil] at h
      rw [List.map_eq_nil_iff.1 h.symm]
  | cons token tokens ih =>
      cases tokens' with
      | nil => exact absurd h (List.cons_ne_nil _ _)
      | cons token' tokens' =>
          obtain ⟨hline, hrest⟩ := List.cons.inj h
          have hline' : trimCR (trimCR token) = trimCR (trimCR token') := hline
          rw [events, events, hline', ih hrest, ih hrest]

/-! ## Lines that carry no data -/

/-- A line that is neither blank nor a data line. A comment is a field with an
empty name. -/
inductive Ignored : List UInt8 → Prop
  | field {name : List UInt8} (value : List UInt8) (hcolon : colon ∉ name)
      (hdata : name ≠ utf8 "data") : Ignored (name ++ colon :: value)
  | bare {name : List UInt8} (hcolon : colon ∉ name) (hblank : strip name ≠ [])
      (hdata : strip name ≠ utf8 "data") : Ignored name

/-- Lines that carry no data are put among the lines. -/
inductive Padded : List (List UInt8) → List (List UInt8) → Prop
  | nil : Padded [] []
  | keep {lines lines' : List (List UInt8)} (line : List UInt8) (h : Padded lines lines') :
      Padded (line :: lines) (line :: lines')
  | pad {lines lines' : List (List UInt8)} {line : List UInt8} (hline : Ignored line)
      (h : Padded lines lines') : Padded lines (line :: lines')

theorem cutField_append {name : List UInt8} (value : List UInt8) (h : colon ∉ name) :
    cutField (name ++ colon :: value) = (name, value) := by
  have hname : ∀ b ∈ name, decide (b ≠ colon) = true := by
    intro b hb
    exact decide_eq_true fun heq => h (heq ▸ hb)
  rw [cutField, List.takeWhile_append_of_pos hname, List.dropWhile_append_of_pos hname]
  simp

theorem cutField_bare {name : List UInt8} (h : colon ∉ name) : (cutField name).1 = name := by
  refine List.takeWhile_eq_self_iff.2 fun b hb => ?_
  exact decide_eq_true fun heq => h (heq ▸ hb)

theorem Ignored.spec {line : List UInt8} (h : Ignored line) :
    strip line ≠ [] ∧ (cutField (strip line)).1 ≠ utf8 "data" := by
  cases h with
  | @field name value hcolon hdata =>
      have hlast : (name ++ [colon]).getLast? ≠ some carriageReturn := by
        rw [List.getLast?_concat]
        decide
      rw [List.append_cons, strip_append hlast, ← List.append_cons, cutField_append _ hcolon]
      exact ⟨fun hnil => List.cons_ne_nil _ _ (List.append_eq_nil_iff.1 hnil).2, hdata⟩
  | bare hcolon hblank hdata =>
      rw [cutField_bare fun hin => hcolon (strip_subset hin)]
      exact ⟨hblank, hdata⟩

theorem extend_ignored {line : List UInt8} (h : (cutField line).1 ≠ utf8 "data")
    (dataLines : List (List UInt8)) : extend dataLines line = dataLines := by
  rw [extend, if_neg h, ite_self]

theorem events_padded {tokens tokens' : List (List UInt8)} (h : Padded tokens tokens')
    (dataLines : List (List UInt8)) : events dataLines tokens' = events dataLines tokens := by
  induction h generalizing dataLines with
  | nil => rfl
  | keep line _ ih => rw [events, events, ih, ih]
  | pad hline _ ih =>
      obtain ⟨hblank, hdata⟩ := hline.spec
      have hextend := extend_ignored hdata dataLines
      rw [strip] at hblank hextend
      rw [events, if_neg hblank, hextend, ih]

/-! ## Data on more lines -/

/-- The data lines of the event that is not over yet, after some lines. -/
def pending (dataLines : List (List UInt8)) : List (List UInt8) → List (List UInt8)
  | [] => dataLines
  | token :: rest =>
      if strip token = [] then pending [] rest
      else pending (extend dataLines (strip token)) rest

def dataField : List UInt8 := utf8 "data:"

/-- A data line is split at a run of whitespace that is outside the strings of
the event: what comes before it and what comes after it, with any whitespace at
the cut, are data lines of their own. -/
inductive Split : List (List UInt8) → List (List UInt8) → Prop
  | intro (first : List (List UInt8)) {text gap left right : List UInt8} (rest : List UInt8)
      (last : List (List UInt8))
      (hstring : quote (List.intercalate [newline]
        (pending [] first ++ [trimSpacePrefix text])) = .outside)
      (hgap : Spaces gap) (hne : gap ≠ []) (hleft : Spaces left) (hright : Spaces right) :
      Split (first ++ (dataField ++ (text ++ gap ++ rest)) :: last)
        (first ++ (dataField ++ (text ++ left)) :: (dataField ++ (right ++ rest)) :: last)

theorem Spaces.append {s t : List UInt8} (hs : Spaces s) (ht : Spaces t) : Spaces (s ++ t) := by
  intro b hb
  rcases List.mem_append.1 hb with h | h
  · exact hs b h
  · exact ht b h

theorem Spaces.strip {s : List UInt8} (h : Spaces s) : Spaces (strip s) :=
  fun b hb => h b (strip_subset hb)

theorem Spaces.trimSpacePrefix {s : List UInt8} (h : Spaces s) : Spaces (trimSpacePrefix s) := by
  intro b hb
  cases s with
  | nil => exact absurd hb List.not_mem_nil
  | cons c s =>
      rw [Proxy.trimSpacePrefix] at hb
      split at hb
      · exact h b (List.mem_cons_of_mem _ hb)
      · exact h b hb

theorem quote_append_spaces {s gap : List UInt8} (h : Spaces gap) :
    quote (s ++ gap) = .outside ↔ quote s = .outside := by
  rw [quote, List.foldl_append]
  show gap.foldl Quote.next (quote s) = .outside ↔ quote s = .outside
  generalize quote s = state
  induction gap generalizing state with
  | nil => exact Iff.rfl
  | cons b gap ih =>
      have hb := h b List.mem_cons_self
      rw [List.foldl_cons, ih (fun c hc => h c (List.mem_cons_of_mem _ hc))]
      cases state with
      | outside =>
          have hquote : b ≠ 34 := by
            rintro rfl
            exact absurd hb (by decide)
          rw [Quote.next, if_neg hquote]
      | inside =>
          have hquote : b ≠ 34 ∧ b ≠ 92 := by
            constructor
            · rintro rfl
              exact absurd hb (by decide)
            · rintro rfl
              exact absurd hb (by decide)
          rw [Quote.next, if_neg hquote.2, if_neg hquote.1]
      | escaped => exact ⟨fun h => Quote.noConfusion h, fun h => Quote.noConfusion h⟩

/-- A text is whitespace, then what begins without any. -/
theorem exists_leading (s : List UInt8) : ∃ gap core, s = gap ++ core ∧ Spaces gap ∧
    ∀ b, core.head? = some b → isJSONSpace b = false := by
  refine ⟨s.takeWhile isJSONSpace, s.dropWhile isJSONSpace,
    List.takeWhile_append_dropWhile.symm, fun b hb => List.mem_takeWhile_imp hb, ?_⟩
  intro b hb
  have hfirst := List.head?_dropWhile_not isJSONSpace s
  rw [hb] at hfirst
  exact hfirst

theorem exists_trailing (s : List UInt8) : ∃ core gap, s = core ++ gap ∧ Spaces gap ∧
    ∀ b, core.getLast? = some b → isJSONSpace b = false := by
  obtain ⟨gap, core, hs, hgap, hcore⟩ := exists_leading s.reverse
  refine ⟨core.reverse, gap.reverse, ?_, fun b hb => hgap b (List.mem_reverse.1 hb), ?_⟩
  · rw [← List.reverse_append, ← hs, List.reverse_reverse]
  · intro b hb
    rw [List.getLast?_reverse] at hb
    exact hcore b hb

theorem trimSpacePrefix_append {s : List UInt8} (hne : s ≠ []) (t : List UInt8) :
    trimSpacePrefix (s ++ t) = trimSpacePrefix s ++ t := by
  cases s with
  | nil => exact absurd rfl hne
  | cons b s =>
      rw [List.cons_append, trimSpacePrefix, trimSpacePrefix]
      split
      · rfl
      · rfl

/-- What a data line carries, where whitespace stands between two texts that
neither end in whitespace nor begin with it. -/
theorem value_spec {text gap rest : List UInt8} (hgap : Spaces gap)
    (htext : ∀ b, text.getLast? = some b → isJSONSpace b = false)
    (hrest : ∀ b, rest.head? = some b → isJSONSpace b = false) :
    ∃ gap', Spaces gap' ∧
      trimSpacePrefix (strip (text ++ gap ++ rest)) =
        trimSpacePrefix text ++ gap' ++ strip rest ∧
      (gap ≠ [] → gap' ≠ [] ∨ text = [] ∨ rest = []) := by
  have hlast : text.getLast? ≠ some carriageReturn := fun heq =>
    absurd (htext carriageReturn heq) (by decide)
  have hfirst : ∀ b t, rest = b :: t → b ≠ carriageReturn := by
    rintro b t rfl rfl
    exact absurd (hrest carriageReturn rfl) (by decide)
  -- the carriage returns go from the rest, or from the whitespace if there is no rest
  obtain ⟨gap₁, hgap₁, hstrip, hsame⟩ : ∃ gap₁, Spaces gap₁ ∧
      strip (gap ++ rest) = gap₁ ++ strip rest ∧ (rest ≠ [] → gap₁ = gap) := by
    by_cases hnil : rest = []
    · subst hnil
      rw [List.append_nil]
      exact ⟨strip gap, hgap.strip, (List.append_nil _).symm, fun h => absurd rfl h⟩
    · refine ⟨gap, hgap, ?_, fun _ => rfl⟩
      obtain ⟨b, t, rfl⟩ := List.exists_cons_of_ne_nil hnil
      have hb := hfirst b t rfl
      have hconcat : (gap ++ [b]).getLast? ≠ some carriageReturn := by
        rw [List.getLast?_concat]
        exact fun heq => hb (Option.some.inj heq)
      rw [List.append_cons, strip_append hconcat, ← List.append_cons, strip_cons hb]
  rw [List.append_assoc, strip_append hlast, hstrip]
  by_cases htextnil : text = []
  · subst htextnil
    refine ⟨trimSpacePrefix gap₁, hgap₁.trimSpacePrefix, ?_, fun _ => .inr (.inl rfl)⟩
    by_cases hgapnil : gap₁ = []
    · subst hgapnil
      cases rest with
      | nil => rfl
      | cons b t =>
          have hspace : b ≠ space := by
            rintro rfl
            exact absurd (hrest space rfl) (by decide)
          rw [List.nil_append, List.nil_append, strip_cons (hfirst b t rfl)]
          show trimSpacePrefix (b :: strip t) = b :: strip t
          rw [trimSpacePrefix, if_neg hspace]
    · rw [List.nil_append, trimSpacePrefix_append hgapnil]
      rfl
  · refine ⟨gap₁, hgap₁, ?_, fun hne => ?_⟩
    · rw [trimSpacePrefix_append htextnil, List.append_assoc]
    · by_cases hnil : rest = []
      · exact .inr (.inr hnil)
      · exact .inl (by rwa [hsame hnil])

/-- The data lines before another, and after another, with the newlines that
join them to it. -/
def joinBefore (dataLines : List (List UInt8)) : List UInt8 := dataLines.flatMap (· ++ [newline])

def joinAfter (dataLines : List (List UInt8)) : List UInt8 := dataLines.flatMap (newline :: ·)

theorem intercalate_append (before after : List (List UInt8)) (line : List UInt8) :
    List.intercalate [newline] (before ++ line :: after) =
      joinBefore before ++ line ++ joinAfter after := by
  induction before with
  | nil =>
      rw [joinBefore, List.flatMap_nil, List.nil_append, List.nil_append]
      induction after generalizing line with
      | nil => rw [List.intercalate_singleton, joinAfter, List.flatMap_nil, List.append_nil]
      | cons next after ih =>
          rw [List.intercalate_cons_cons, ih, joinAfter, joinAfter, List.flatMap_cons,
            List.append_assoc, List.cons_append]
          rfl
  | cons first before ih =>
      rw [List.cons_append, List.intercalate_cons_of_ne_nil (by simp), ih, joinBefore, joinBefore,
        List.flatMap_cons]
      simp only [List.append_assoc]

theorem joinBefore_cases (dataLines : List (List UInt8)) :
    joinBefore dataLines = [] ∨ ∃ s, joinBefore dataLines = s ++ [newline] := by
  obtain rfl | ⟨rest, last, rfl⟩ := List.eq_nil_or_concat dataLines
  · exact .inl rfl
  · refine .inr ⟨joinBefore rest ++ last, ?_⟩
    simp [joinBefore]

theorem joinAfter_cases (dataLines : List (List UInt8)) :
    joinAfter dataLines = [] ∨ ∃ s, joinAfter dataLines = newline :: s := by
  cases dataLines with
  | nil => exact .inl rfl
  | cons line dataLines => exact .inr ⟨line ++ joinAfter dataLines, rfl⟩

theorem spaces_newline : Spaces [newline] := by
  intro b hb
  rw [List.mem_singleton.1 hb]
  rfl

/-- Whitespace against none, beside a newline or at the end of the data. -/
theorem gapped_of_edge {before text gap gap' rest after : List UInt8}
    (hbefore : before = [] ∨ ∃ s, before = s ++ [newline])
    (hafter : after = [] ∨ ∃ s, after = newline :: s)
    (hstring : quote (before ++ text) = .outside) (hgap : Spaces gap) (hgap' : Spaces gap')
    (hne' : gap' ≠ []) (hedge : gap ≠ [] ∨ text = [] ∨ rest = []) :
    Gapped (before ++ (text ++ gap ++ rest) ++ after)
      (before ++ (text ++ gap' ++ rest) ++ after) := by
  by_cases hne : gap = []
  swap
  · have h := @Gapped.intro _ gap gap' (rest ++ after) hstring hgap hgap' hne' (.inl hne)
    simpa only [List.append_assoc] using h
  subst hne
  rcases hedge with hfalse | rfl | rfl
  · exact absurd rfl hfalse
  · rw [List.append_nil] at hstring
    rcases hbefore with rfl | ⟨s, rfl⟩
    · have h := @Gapped.intro [] [] gap' (rest ++ after) hstring hgap hgap' hne' (.inr (.inl rfl))
      simpa only [List.append_assoc, List.nil_append] using h
    · rw [quote_append_spaces spaces_newline] at hstring
      have h := @Gapped.intro s [newline] ([newline] ++ gap') (rest ++ after) hstring
        spaces_newline (spaces_newline.append hgap') (List.cons_ne_nil newline gap')
        (.inl (List.cons_ne_nil newline []))
      simpa only [List.append_assoc, List.nil_append] using h
  · rcases hafter with rfl | ⟨s, rfl⟩
    · have h := @Gapped.intro (before ++ text) [] gap' [] hstring hgap hgap' hne' (.inr (.inr rfl))
      simpa only [List.append_assoc, List.append_nil] using h
    · have h := @Gapped.intro (before ++ text) [newline] (gap' ++ [newline]) s hstring
        spaces_newline (hgap'.append spaces_newline)
        (List.append_ne_nil_of_right_ne_nil gap' (List.cons_ne_nil newline []))
        (.inl (List.cons_ne_nil newline []))
      simpa only [List.append_assoc, List.append_nil, List.cons_append, List.nil_append] using h

/-- The data of the event, with the one line and with the two. -/
theorem gapped_value {text gap left right rest : List UInt8} (hgap : Spaces gap)
    (hne : gap ≠ []) (hleft : Spaces left) (hright : Spaces right)
    {before after : List (List UInt8)}
    (hstring : quote (joinBefore before ++ trimSpacePrefix text) = .outside) :
    Gapped (List.intercalate [newline]
        (before ++ trimSpacePrefix (strip (text ++ gap ++ rest)) :: after))
      (List.intercalate [newline] (before ++ trimSpacePrefix (strip (text ++ left)) ::
        trimSpacePrefix (strip (right ++ rest)) :: after)) := by
  obtain ⟨text, trail, rfl, htrail, htext⟩ := exists_trailing text
  obtain ⟨lead, rest, rfl, hlead, hrest⟩ := exists_leading rest
  have hnone : ∀ b, ([] : List UInt8).head? = some b → isJSONSpace b = false := nofun
  have hnone' : ∀ b, ([] : List UInt8).getLast? = some b → isJSONSpace b = false := nofun
  obtain ⟨gap₀, hgap₀, hvalue₀, hedge⟩ :=
    value_spec ((htrail.append hgap).append hlead) htext hrest
  obtain ⟨gap₁, hgap₁, hvalue₁, -⟩ := value_spec (htrail.append hleft) htext hnone
  obtain ⟨gap₂, hgap₂, hvalue₂, -⟩ := value_spec (hright.append hlead) hnone' hrest
  have hstart : quote (joinBefore before ++ trimSpacePrefix text) = .outside := by
    by_cases hnil : text = []
    · subst hnil
      rw [List.nil_append, quote_append_spaces htrail.trimSpacePrefix] at hstring
      rwa [trimSpacePrefix, List.append_nil]
    · rwa [trimSpacePrefix_append hnil, ← List.append_assoc, quote_append_spaces htrail]
        at hstring
  have hgaps : trail ++ gap ++ lead ≠ [] := by simp [hne]
  have hmiddle : Spaces (gap₁ ++ ([newline] ++ gap₂)) :=
    hgap₁.append (spaces_newline.append hgap₂)
  have hline₀ : text ++ trail ++ gap ++ (lead ++ rest) = text ++ (trail ++ gap ++ lead) ++ rest := by
    simp only [List.append_assoc]
  have hline₁ : text ++ trail ++ left = text ++ (trail ++ left) ++ [] := by
    simp only [List.append_assoc, List.append_nil]
  have hline₂ : right ++ (lead ++ rest) = [] ++ (right ++ lead) ++ rest := by
    simp only [List.append_assoc, List.nil_append]
  have hedge' : gap₀ ≠ [] ∨ trimSpacePrefix text = [] ∨ strip rest = [] := by
    rcases hedge hgaps with h | h | h
    · exact .inl h
    · exact .inr (.inl (by rw [h]; rfl))
    · exact .inr (.inr (by rw [h]; rfl))
  have hgapped := gapped_of_edge (joinBefore_cases before) (joinAfter_cases after) hstart hgap₀
    hmiddle (by simp) hedge'
  rw [intercalate_append, intercalate_append, hline₀, hline₁, hline₂, hvalue₀, hvalue₁, hvalue₂]
  have hnil : strip [] = [] := rfl
  have hnil' : trimSpacePrefix [] = [] := rfl
  rw [hnil, hnil']
  simpa only [joinAfter, List.flatMap_cons, List.append_assoc, List.append_nil, List.nil_append,
    List.cons_append, List.singleton_append] using hgapped

/-! ## The events of the lines, split -/

/-- The data of two events is the same, up to its whitespace. -/
def SameData (raw raw' : List UInt8) : Prop := raw = raw' ∨ Gapped raw raw'

theorem sameData_refl (raws : List (List UInt8)) : List.Forall₂ SameData raws raws :=
  List.forall₂_same.2 fun _ _ => .inl rfl

theorem extend_append (before after : List (List UInt8)) (line : List UInt8) :
    extend (before ++ after) line = before ++ extend after line := by
  rw [extend, extend]
  split
  · rfl
  split
  · rw [List.append_assoc]
  · rfl

/-- Data lines that stand for each other do so in the event they are in. -/
theorem events_middle {before middle middle' : List (List UInt8)} (hne : middle ≠ [])
    (hne' : middle' ≠ [])
    (h : ∀ after, Gapped (List.intercalate [newline] (before ++ (middle ++ after)))
      (List.intercalate [newline] (before ++ (middle' ++ after))))
    (after tokens : List (List UInt8)) :
    List.Forall₂ SameData (events (before ++ (middle ++ after)) tokens)
      (events (before ++ (middle' ++ after)) tokens) := by
  have hdispatch : ∀ after, List.Forall₂ SameData (dispatch (before ++ (middle ++ after)))
      (dispatch (before ++ (middle' ++ after))) := by
    intro after
    have hnil : before ++ (middle ++ after) ≠ [] := by simp [hne]
    have hnil' : before ++ (middle' ++ after) ≠ [] := by simp [hne']
    rw [dispatch, if_neg hnil, dispatch, if_neg hnil']
    exact .cons (.inr (h after)) .nil
  induction tokens generalizing after with
  | nil => exact hdispatch after
  | cons token tokens ih =>
      rw [events, events]
      split
      · exact List.rel_append (hdispatch after) (sameData_refl _)
      · rw [extend_append, extend_append, extend_append, extend_append]
        exact ih _

theorem events_first {tokens tokens' : List (List UInt8)} (first dataLines : List (List UInt8))
    (h : List.Forall₂ SameData (events (pending dataLines first) tokens)
      (events (pending dataLines first) tokens')) :
    List.Forall₂ SameData (events dataLines (first ++ tokens))
      (events dataLines (first ++ tokens')) := by
  induction first generalizing dataLines with
  | nil => exact h
  | cons token first ih =>
      rw [pending, strip] at h
      rw [List.cons_append, List.cons_append, events, events]
      split
      · next hblank =>
        rw [if_pos hblank] at h
        exact List.rel_append (sameData_refl _) (ih [] h)
      · next hblank =>
        rw [if_neg hblank] at h
        exact ih _ h

/-- A data line adds what it carries. -/
theorem events_dataField (dataLines rest : List (List UInt8)) (text : List UInt8) :
    events dataLines ((dataField ++ text) :: rest) =
      events (dataLines ++ [trimSpacePrefix (strip text)]) rest := by
  have hlast : dataField.getLast? ≠ some carriageReturn := by decide +kernel
  have hfield : dataField = utf8 "data" ++ [colon] := by decide +kernel
  have hcolon : colon ∉ utf8 "data" := by decide +kernel
  have hhead : (utf8 "data").head? ≠ some colon := by decide +kernel
  have hnil : utf8 "data" ≠ [] := by decide +kernel
  have hstrip : trimCR (trimCR (dataField ++ text)) = utf8 "data" ++ colon :: strip text := by
    show strip (dataField ++ text) = _
    rw [strip_append hlast, hfield, ← List.append_cons]
  rw [events, hstrip, if_neg fun h => hnil (List.append_eq_nil_iff.1 h).1, extend,
    List.head?_append_of_ne_nil _ hnil, if_neg hhead, cutField_append _ hcolon, if_pos rfl]

/-- **Splitting a data line at whitespace outside the strings changes no more
than whitespace in the data of the event.** -/
theorem events_split {tokens tokens' : List (List UInt8)} (h : Split tokens tokens') :
    List.Forall₂ SameData (events [] tokens) (events [] tokens') := by
  cases h with
  | @intro first text gap left right rest last hstring hgap hne hleft hright =>
      refine events_first first [] ?_
      rw [events_dataField, events_dataField, events_dataField]
      rw [intercalate_append, joinAfter, List.flatMap_nil, List.append_nil] at hstring
      have hmiddle := @events_middle (pending [] first)
        [trimSpacePrefix (strip (text ++ gap ++ rest))]
        [trimSpacePrefix (strip (text ++ left)), trimSpacePrefix (strip (right ++ rest))]
        (List.cons_ne_nil _ _) (List.cons_ne_nil _ _)
        (fun after => gapped_value hgap hne hleft hright hstring) [] last
      simpa only [List.append_assoc, List.append_nil, List.singleton_append,
        List.cons_append, List.nil_append] using hmiddle

/-! ## The validation -/

/-- The ways a stream is written anew. -/
inductive Rewritten (body : List UInt8) : List UInt8 → Prop
  | same : Rewritten body body
  | crlf : Rewritten body (toCRLF body)
  | lf (h : ¬ [carriageReturn, carriageReturn, carriageReturn, newline] <:+: body) :
      Rewritten body (toLF body)
  | padded {body' : List UInt8} (h : Padded (lines body) (lines body')) : Rewritten body body'
  | split {body' : List UInt8} (h : Relation.ReflTransGen Split (lines body) (lines body')) :
      Rewritten body body'

variable {dec : Decoder}

/-- Rewritten, a stream has the same verdict. -/
theorem visitAll_rewritten (hdec : dec.Lawful) {body body' : List UInt8}
    (h : Rewritten body body') (verdict : Verdict) :
    visitAll dec verdict (events [] (lines body')) =
      visitAll dec verdict (events [] (lines body)) := by
  cases h with
  | same => rfl
  | crlf => rw [events_of_map_strip (map_strip_toCRLF body)]
  | lf h => rw [events_of_map_strip (map_strip_toLF h)]
  | padded h => rw [events_padded h]
  | split h =>
      generalize lines body' = tokens at h
      induction h with
      | refl => rfl
      | tail _ hstep ih => rw [← visitAll_gapped hdec (events_split hstep), ih]

/-- **A stream that a reader delivers, with lines under the scanner's limit, is
validated by its events, and nothing else of how it is written and read
matters.** -/
theorem validateEventStream_exact (hdec : dec.Lawful) (profile : ProtocolProfile)
    {reader : List Read} {body : List UInt8} (hreader : Delivers 0 reader body)
    (hshort : Short body) :
    ((validateEventStream dec profile reader).success = true ↔
      Accepted dec profile (scanSSEData body).1) ∧
    ∀ {reader' : List Read} {body' : List UInt8}, Delivers 0 reader' body' → Short body' →
      Rewritten body body' →
        validateEventStream dec profile reader' = validateEventStream dec profile reader := by
  constructor
  · rw [validateEventStream_eq hreader hshort, success_iff, scanSSEData, scanLines_eq hshort]
  · intro reader' body' hreader' hshort' hrewritten
    rw [validateEventStream_eq hreader hshort, validateEventStream_eq hreader' hshort',
      visitAll_rewritten hdec hrewritten]

/-- A JSON text without the whitespace outside its strings. -/
def squeeze : Quote → List UInt8 → List UInt8
  | _, [] => []
  | state, b :: rest =>
      if state = .outside ∧ isJSONSpace b = true then squeeze state rest
      else b :: squeeze (state.next b) rest

theorem squeeze_append (state : Quote) (s t : List UInt8) :
    squeeze state (s ++ t) = squeeze state s ++ squeeze (s.foldl Quote.next state) t := by
  induction s generalizing state with
  | nil => rfl
  | cons b s ih =>
      rw [List.cons_append, squeeze, squeeze, List.foldl_cons]
      split
      · next hspace =>
        obtain ⟨rfl, hb⟩ := hspace
        have hquote : b ≠ 34 := by
          rintro rfl
          exact absurd hb (by decide)
        rw [ih, Quote.next, if_neg hquote]
      · rw [ih, List.cons_append]

theorem squeeze_spaces {gap : List UInt8} (h : Spaces gap) (rest : List UInt8) :
    squeeze .outside (gap ++ rest) = squeeze .outside rest := by
  induction gap with
  | nil => rfl
  | cons b gap ih =>
      rw [List.cons_append, squeeze, if_pos ⟨rfl, h b List.mem_cons_self⟩,
        ih fun c hc => h c (List.mem_cons_of_mem _ hc)]

theorem squeeze_gap {before gap : List UInt8} (hstring : quote before = .outside)
    (hgap : Spaces gap) (after : List UInt8) :
    squeeze .outside (before ++ gap ++ after) =
      squeeze .outside before ++ squeeze .outside after := by
  rw [quote] at hstring
  rw [List.append_assoc, squeeze_append, hstring, squeeze_spaces hgap]

theorem squeeze_respaced {data data' : List UInt8} (h : Respaced data data') :
    squeeze .outside data = squeeze .outside data' := by
  cases h with
  | intro after hstring hgap _ hgap' _ =>
      rw [squeeze_gap hstring hgap, squeeze_gap hstring hgap']

theorem length_squeeze_le (state : Quote) (s : List UInt8) :
    (squeeze state s).length ≤ s.length := by
  induction s generalizing state with
  | nil => exact Nat.le_refl 0
  | cons b s ih =>
      rw [squeeze]
      split
      · exact Nat.le_succ_of_le (ih state)
      · exact Nat.succ_le_succ (ih _)

def completedText : List UInt8 := utf8 "\x7b\"type\":\"response.completed\"\x7d"

/-- A decoder of the one object that says that a response is completed. -/
def completedOnly : Decoder where
  event data :=
    if squeeze .outside data = completedText then some { type := "response.completed" } else none
  object data :=
    if squeeze .outside data = completedText then
      some fun name => if name = "type" then some (utf8 "\"response.completed\"") else none
    else none
  integer _ := none
  shorter {data fields name raw} := by
    intro hobject hraw
    have hlen := length_squeeze_le .outside data
    split at hobject
    · next htext =>
      obtain rfl := Option.some.inj hobject
      dsimp only at hraw
      split at hraw
      · obtain rfl := Option.some.inj hraw
        rw [htext] at hlen
        exact Nat.lt_of_lt_of_le (by decide +kernel) hlen
      · exact absurd hraw.symm (Option.some_ne_none raw)
    · exact absurd hobject.symm (Option.some_ne_none fields)

theorem completedOnly_lawful : completedOnly.Lawful where
  event h := by
    simp only [completedOnly, squeeze_respaced h]
    split
    · exact .some ⟨rfl, rfl, .inl rfl⟩
    · exact .none
  object h := by
    simp only [completedOnly, squeeze_respaced h]
    split
    · refine .some fun name => ?_
      split
      · exact .some (.inl rfl)
      · exact .none
    · exact .none
  integer _ := rfl

def completedStream : List UInt8 := utf8 "data: " ++ completedText ++ utf8 "\n\n"

theorem validateEventStream_exact_completed :
    Accepted completedOnly .responses (scanSSEData completedStream).1 ∧
      validateEventStream completedOnly .responses
          [{ data := completedStream.take 9 }, { data := [] },
            { data := completedStream.drop 9, err := some .eof }] =
        validateEventStream completedOnly .responses
          [{ data := completedStream, err := some .eof }] := by
  have hshort : Short completedStream := by
    show ∀ line ∈ lines completedStream, line.length < maxTokenSize
    decide +kernel
  have hchunks : Delivers 0 [{ data := completedStream.take 9 }, { data := [] },
      { data := completedStream.drop 9, err := some .eof }] completedStream := by
    have h : Delivers 0 _ (completedStream.take 9 ++ completedStream.drop 9) :=
      .chunk (by decide +kernel) (.idle (by decide) (.eof (completedStream.drop 9) []))
    rwa [List.take_append_drop] at h
  have h := validateEventStream_exact completedOnly_lawful .responses
    (.eof completedStream []) hshort
  exact ⟨h.1.1 (by decide +kernel), h.2 hchunks hshort .same⟩

def noObject : Decoder where
  event _ := none
  object _ := none
  integer _ := none
  shorter h := absurd h.symm (Option.some_ne_none _)

/-- A line of three carriage returns is no blank line, of two it is one. -/
def threeReturns : List UInt8 := utf8 "data: [DONE]\n\r\r\r\ndata: [DONE]\n\n"

/-- Dropping a carriage return from each line end may cut an event in two. -/
theorem toLF_threeReturns :
    noObject.Lawful ∧ Short threeReturns ∧ Short (toLF threeReturns) ∧
      Delivers 0 [{ data := threeReturns, err := some .eof }] threeReturns ∧
      Delivers 0 [{ data := toLF threeReturns, err := some .eof }] (toLF threeReturns) ∧
      validateEventStream noObject .chatCompletions
          [{ data := threeReturns, err := some .eof }] =
        { message := { id := "proxy.sse_invalid" } } ∧
      validateEventStream noObject .chatCompletions
          [{ data := toLF threeReturns, err := some .eof }] =
        { success := true } := by
  refine ⟨⟨fun _ => .none, fun _ => .none, fun _ => rfl⟩, ?_, ?_, .eof _ _, .eof _ _, ?_, ?_⟩
  · show ∀ line ∈ lines threeReturns, line.length < maxTokenSize
    decide +kernel
  · show ∀ line ∈ lines (toLF threeReturns), line.length < maxTokenSize
    decide +kernel
  · decide +kernel
  · decide +kernel

end RelayLifeline.Proxy.EventStream
