import RelayLifeline.Journal.File
import RelayLifeline.Proofs.Wire

/-!
# Lines written and read

The lines of a file that holds entries the way the journal writes them are the
lines of the entries, also where the last one is not ended, and they are read as
the entries. What follows them is read from where they end. Whatever is read is
a chain.
-/

namespace RelayLifeline.Journal.Wire

open Lib.Json

/-! ## Chains -/

/-- Each entry goes on from the one before, the first from a sequence and a
hash. -/
inductive Chain : Nat → Text → List Entry → Prop
  | nil {sequence : Nat} {previousHash : Text} : Chain sequence previousHash []
  | cons {sequence : Nat} {previousHash : Text} {e : Entry} {es : List Entry}
      (hsequence : e.sequence = (sequence + 1) % 2 ^ 64) (hprevious : e.previousHash = previousHash)
      (hhash : e.hash = entryHash e) (h : Chain e.sequence e.hash es) :
      Chain sequence previousHash (e :: es)

/-- Where the entries end that go on from there. -/
def tipFrom (start : Nat × Text) (es : List Entry) : Nat × Text :=
  es.foldl (fun _ e => (e.sequence, e.hash)) start

@[simp] theorem tipFrom_cons (start : Nat × Text) (e : Entry) (es : List Entry) :
    tipFrom start (e :: es) = tipFrom (e.sequence, e.hash) es := rfl

theorem tipFrom_append (start : Nat × Text) (es es' : List Entry) :
    tipFrom start (es ++ es') = tipFrom (tipFrom start es) es' := List.foldl_append

theorem tip_eq (es : List Entry) : tip es = tipFrom (0, []) es := by
  rcases List.eq_nil_or_concat es with rfl | ⟨es, e, rfl⟩
  · rfl
  · rw [List.concat_eq_append, tip, List.getLast?_concat, tipFrom_append]
    rfl

theorem tip_append (es : List Entry) (e : Entry) : tip (es ++ [e]) = (e.sequence, e.hash) := by
  rw [tip, List.getLast?_concat]

variable {es : List Entry}

theorem tip_lt (h : ∀ e ∈ es, e.Readable ∧ e.schemaVersion = 1) : (tip es).1 < 2 ^ 64 := by
  rcases List.eq_nil_or_concat es with rfl | ⟨es, e, rfl⟩
  · decide
  · rw [List.concat_eq_append, tip_append]
    exact (h e (by simp)).1.sequence

theorem isUTF8_tip (hes : ∀ e ∈ es, e.Readable ∧ e.schemaVersion = 1) : IsUTF8 (tip es).2 := by
  rcases List.eq_nil_or_concat es with rfl | ⟨es, e, rfl⟩
  · exact .nil
  · rw [List.concat_eq_append] at *
    rw [tip_append]
    exact (hes e (List.mem_append_right _ (List.mem_singleton_self e))).1.hash

theorem chain_append {es es' : List Entry} : ∀ {sequence : Nat} {previousHash : Text},
    Chain sequence previousHash (es ++ es') ↔
      Chain sequence previousHash es ∧
        Chain (tipFrom (sequence, previousHash) es).1 (tipFrom (sequence, previousHash) es).2
          es' := by
  induction es with
  | nil => exact ⟨fun h => ⟨.nil, h⟩, fun h => h.2⟩
  | cons e es ih =>
      intro sequence previousHash
      constructor
      · intro h
        cases h with
        | cons hsequence hprevious hhash h =>
            obtain ⟨h, h'⟩ := ih.1 h
            exact ⟨.cons hsequence hprevious hhash h, h'⟩
      · rintro ⟨h, h'⟩
        cases h with
        | cons hsequence hprevious hhash h => exact .cons hsequence hprevious hhash (ih.2 ⟨h, h'⟩)

/-- An entry goes on from the tip. -/
theorem chain_concat {es : List Entry} {e : Entry} (h : Chain 0 [] es)
    (hsequence : e.sequence = ((tip es).1 + 1) % 2 ^ 64) (hprevious : e.previousHash = (tip es).2)
    (hhash : e.hash = entryHash e) : Chain 0 [] (es ++ [e]) := by
  rw [tip_eq] at hsequence hprevious
  exact chain_append.2 ⟨h, .cons hsequence hprevious hhash .nil⟩

/-! ## What is read -/

/-- The line fits, and its entry goes on from the one before. -/
structure Taken (sequence : Nat) (previousHash line : Text) (e : Entry) : Prop where
  fits : line.length + 1 ≤ maxLine
  read : unmarshal (dropCR line) = some e
  schema : e.schemaVersion = 1
  place : e.sequence = (sequence + 1) % 2 ^ 64
  link : e.previousHash = previousHash
  hash : e.hash = entryHash e

theorem Taken.readLines {sequence : Nat} {previousHash line : Text} {e : Entry}
    (h : Taken sequence previousHash line e) (rest : List Text) :
    readLines sequence previousHash (line :: rest) =
      (e :: (readLines e.sequence e.hash rest).1, (readLines e.sequence e.hash rest).2) := by
  have hvalid : ¬ (e.schemaVersion ≠ (currentSchemaVersion : Int) ∨
      e.sequence ≠ (sequence + 1) % 2 ^ 64) := not_or.2 ⟨not_not.2 h.schema, not_not.2 h.place⟩
  have hlinked : ¬ (e.previousHash ≠ previousHash ∨ e.hash ≠ entryHash e) :=
    not_or.2 ⟨not_not.2 h.link, not_not.2 h.hash⟩
  rw [Wire.readLines, if_neg (Nat.not_lt.2 h.fits), h.read]
  dsimp only
  rw [if_neg hvalid, if_neg hlinked]

/-- The reader takes a line, or it ends there with an error. -/
theorem readLines_cases (sequence : Nat) (previousHash line : Text) :
    (∃ err, ∀ rest, readLines sequence previousHash (line :: rest) = ([], some err)) ∨
      ∃ e, Taken sequence previousHash line e := by
  by_cases hlong : maxLine < line.length + 1
  · exact .inl ⟨_, fun rest => by rw [readLines, if_pos hlong]⟩
  cases hread : unmarshal (dropCR line) with
  | none => exact .inl ⟨_, fun rest => by rw [readLines, if_neg hlong, hread]⟩
  | some e =>
      by_cases hvalid : e.schemaVersion ≠ (currentSchemaVersion : Int) ∨
          e.sequence ≠ (sequence + 1) % 2 ^ 64
      · refine .inl ⟨.invalidSequence e.sequence, fun rest => ?_⟩
        rw [readLines, if_neg hlong, hread]
        dsimp only
        rw [if_pos hvalid]
      by_cases hlinked : e.previousHash ≠ previousHash ∨ e.hash ≠ entryHash e
      · refine .inl ⟨.integrity e.sequence, fun rest => ?_⟩
        rw [readLines, if_neg hlong, hread]
        dsimp only
        rw [if_neg hvalid, if_pos hlinked]
      · obtain ⟨hschema, hsequence⟩ := not_or.1 hvalid
        obtain ⟨hprevious, hhash⟩ := not_or.1 hlinked
        exact .inr ⟨e, Nat.le_of_not_lt hlong, hread, not_not.1 hschema, not_not.1 hsequence,
          not_not.1 hprevious, not_not.1 hhash⟩

/-- Where the reader gets to the end, it has taken the first line. -/
theorem readLines_cons_none {sequence : Nat} {previousHash line : Text} {rest : List Text}
    (h : readLines sequence previousHash (line :: rest) = (es, none)) :
    ∃ e es', es = e :: es' ∧ Taken sequence previousHash line e ∧
      readLines e.sequence e.hash rest = (es', none) := by
  rcases readLines_cases sequence previousHash line with ⟨err, herror⟩ | ⟨e, htaken⟩
  · rw [herror] at h
    cases h
  · rw [htaken.readLines, Prod.mk.injEq] at h
    exact ⟨e, _, h.1.symm, htaken, Prod.ext rfl h.2⟩

/-- What is read is a chain of entries of the current schema. -/
theorem readLines_sound : ∀ {ls : List Text} {sequence : Nat} {previousHash : Text},
    Chain sequence previousHash (readLines sequence previousHash ls).1 ∧
      ∀ e ∈ (readLines sequence previousHash ls).1, e.Readable ∧ e.schemaVersion = 1 := by
  intro ls
  induction ls with
  | nil => exact ⟨.nil, fun _ h => absurd h List.not_mem_nil⟩
  | cons line rest ih =>
      intro sequence previousHash
      rcases readLines_cases sequence previousHash line with ⟨err, herror⟩ | ⟨e, htaken⟩
      · rw [herror]
        exact ⟨.nil, fun _ h => absurd h List.not_mem_nil⟩
      · obtain ⟨hchain, hall⟩ := @ih e.sequence e.hash
        rw [htaken.readLines]
        exact ⟨.cons htaken.place htaken.link htaken.hash hchain,
          List.forall_mem_cons.2 ⟨⟨readable_unmarshal htaken.read, htaken.schema⟩, hall⟩⟩

theorem readAndVerify_eq_ok {journal : Option Text} {es : List Entry} :
    readAndVerify journal = .ok es ↔ readLines 0 [] (lines (journal.getD [])) = (es, none) := by
  rw [readAndVerify]
  split
  next heq => rw [heq]; simp
  next heq => rw [heq]; simp

theorem validChain_of_ok {journal : Option Text} {es : List Entry}
    (h : readAndVerify journal = .ok es) : validChain journal = es := by
  rw [validChain, readAndVerify_eq_ok.1 h]

theorem sound_of_ok {journal : Option Text} {es : List Entry} (h : readAndVerify journal = .ok es) :
    Chain 0 [] es ∧ ∀ e ∈ es, e.Readable ∧ e.schemaVersion = 1 := by
  have hsound := @readLines_sound (lines (journal.getD [])) 0 []
  rwa [readAndVerify_eq_ok.1 h] at hsound

/-- What is read of lines whose first ones are all taken. -/
theorem readLines_append {ls : List Text} (ls' : List Text) :
    ∀ {sequence : Nat} {previousHash : Text} {es : List Entry},
      readLines sequence previousHash ls = (es, none) →
        readLines sequence previousHash (ls ++ ls') =
          (es ++ (readLines (tipFrom (sequence, previousHash) es).1
              (tipFrom (sequence, previousHash) es).2 ls').1,
            (readLines (tipFrom (sequence, previousHash) es).1
              (tipFrom (sequence, previousHash) es).2 ls').2) := by
  induction ls with
  | nil =>
      intro sequence previousHash es h
      rw [readLines, Prod.mk.injEq] at h
      rw [← h.1]
      rfl
  | cons line rest ih =>
      intro sequence previousHash es h
      obtain ⟨e, es', rfl, htaken, hrest⟩ := readLines_cons_none h
      rw [List.cons_append, htaken.readLines, ih hrest]
      rfl

/-- Every line that is taken fits. -/
theorem readLines_all {ls : List Text} : ∀ {sequence : Nat} {previousHash : Text} {es : List Entry},
    readLines sequence previousHash ls = (es, none) → ∀ line ∈ ls, line.length + 1 ≤ maxLine := by
  induction ls with
  | nil => exact fun _ _ hmem => absurd hmem List.not_mem_nil
  | cons line rest ih =>
      intro sequence previousHash es h
      obtain ⟨e, es', -, htaken, hrest⟩ := readLines_cons_none h
      exact List.forall_mem_cons.2 ⟨htaken.fits, ih hrest⟩

/-- No line makes more than an entry. -/
theorem length_readLines_le (ls : List Text) : ∀ (sequence : Nat) (previousHash : Text),
    (readLines sequence previousHash ls).1.length ≤ ls.length := by
  induction ls with
  | nil => exact fun _ _ => Nat.le_refl _
  | cons line rest ih =>
      intro sequence previousHash
      rcases readLines_cases sequence previousHash line with ⟨err, herror⟩ | ⟨e, htaken⟩
      · rw [herror]
        exact Nat.zero_le _
      · rw [htaken.readLines]
        exact Nat.succ_le_succ (ih e.sequence e.hash)

/-! ## The lines of a file -/

theorem lines_append {line : Text} (h : newline ∉ line) (rest : Text) :
    lines (line ++ newline :: rest) = line :: lines rest := by
  induction line with
  | nil => rw [List.nil_append, lines, if_pos rfl]
  | cons c line ih =>
      rw [List.mem_cons, not_or] at h
      rw [List.cons_append, lines, if_neg (Ne.symm h.1), ih h.2]

theorem lines_of_notMem {line : Text} (hne : line ≠ []) (h : newline ∉ line) :
    lines line = [line] := by
  induction line with
  | nil => exact absurd rfl hne
  | cons c line ih =>
      rw [List.mem_cons, not_or] at h
      rw [lines, if_neg (Ne.symm h.1)]
      cases line with
      | nil => rfl
      | cons d line => rw [ih (List.cons_ne_nil _ _) h.2]

/-- The last line of the file, if there is one, has its end. -/
def Ended (file : Text) : Prop := file = [] ∨ file.getLast? = some newline

instance (file : Text) : Decidable (Ended file) := inferInstanceAs (Decidable (_ ∨ _))

theorem Ended.tail {c : UInt8} {file : Text} (h : Ended (c :: file)) :
    Ended file ∧ (file = [] → c = newline) := by
  rcases h with h | h
  · cases h
  · cases file with
    | nil =>
        rw [List.getLast?_singleton, Option.some.injEq] at h
        exact ⟨.inl rfl, fun _ => h⟩
    | cons d file =>
        rw [List.getLast?_cons_cons] at h
        exact ⟨.inr h, fun hnil => absurd hnil (List.cons_ne_nil _ _)⟩

theorem lines_ne_nil {file : Text} (h : file ≠ []) : lines file ≠ [] := by
  cases file with
  | nil => exact absurd rfl h
  | cons c file =>
      rw [lines]
      split
      next => exact List.cons_ne_nil _ _
      next => split <;> exact List.cons_ne_nil _ _

theorem lines_ended {file : Text} (h : Ended file) (rest : Text) :
    lines (file ++ rest) = lines file ++ lines rest := by
  induction file with
  | nil => rfl
  | cons c file ih =>
      obtain ⟨hended, hlast⟩ := h.tail
      rw [List.cons_append, lines, lines, ih hended]
      split
      next => rfl
      next hc =>
        cases hlines : lines file with
        | nil => exact absurd hlines (lines_ne_nil fun hnil => hc (hlast hnil))
        | cons line others => rfl

theorem newline_notMem {s : Text} (h : Printable s) : newline ∉ s :=
  fun hmem => absurd (show newline < 0x20 by decide) (h newline hmem)

theorem dropCR_printable {s : Text} (h : Printable s) : dropCR s = s := by
  refine if_neg fun hlast => ?_
  exact h _ (List.mem_of_getLast? hlast) (by decide)

/-! ## What the journal writes -/

/-- An entry that can be read and can be written. -/
structure Entry.Written (e : Entry) : Prop where
  readable : e.Readable
  schema : e.schemaVersion = 1
  writable : e.time.Writable

/-- Its line is not too long to be read. -/
def Entry.Fits (e : Entry) : Prop := e.line.length + 1 ≤ maxLine

instance (e : Entry) : Decidable e.Fits := inferInstanceAs (Decidable (_ ≤ _))

theorem line_eq {e : Entry} (he : e.Written) : e.line = objectText e.members := by
  rw [Entry.line, marshal_eq he.readable he.writable, Option.getD_some]

/-- Its line is read as the entry. -/
theorem Entry.Written.line {e : Entry} (h : e.Written) :
    e.marshal = some e.line ∧ unmarshal e.line = some e.normal ∧ Printable e.line ∧
      e.line ≠ [] := by
  have hmarshal := marshal_eq h.readable h.writable
  obtain ⟨hread, hprintable⟩ := unmarshal_marshal h.readable h.schema h.writable
  rw [line_eq h]
  exact ⟨hmarshal, hread, hprintable, List.cons_ne_nil _ _⟩

theorem Entry.Written.lines {e : Entry} (h : e.Written) :
    lines (e.line ++ [newline]) = [e.line] :=
  lines_append (newline_notMem h.line.2.2.1) []

/-- A part of its line is not read. -/
theorem Entry.Written.torn {e : Entry} (h : e.Written) {part rest : Text}
    (heq : part ++ rest = e.line) (hrest : rest ≠ []) : unmarshal part = none :=
  unmarshal_torn h.readable h.schema (heq.trans (line_eq h)) hrest

/-- The line of an entry that goes on from the one before is taken. -/
theorem Entry.Written.taken {e : Entry} (he : e.Written) (hfits : e.Fits) {sequence : Nat}
    {previousHash : Text} (hsequence : e.sequence = (sequence + 1) % 2 ^ 64)
    (hprevious : e.previousHash = previousHash) (hhash : e.hash = entryHash e) :
    Taken sequence previousHash e.line e.normal := by
  obtain ⟨-, hread, hprintable, -⟩ := he.line
  refine ⟨hfits, ?_, he.schema, hsequence, hprevious, ?_⟩
  · rw [dropCR_printable hprintable, hread]
  · exact hhash.trans (entryHash_normal he.readable).symm

theorem fileText_cons (e : Entry) (es : List Entry) :
    fileText (e :: es) = e.line ++ newline :: fileText es := by
  rw [fileText, List.flatMap_cons, List.append_assoc]
  rfl

theorem lines_fileText {es : List Entry} (h : ∀ e ∈ es, e.Written) :
    lines (fileText es) = es.map Entry.line := by
  induction es with
  | nil => rfl
  | cons e es ih =>
      obtain ⟨he, hes⟩ := List.forall_mem_cons.1 h
      rw [fileText_cons, lines_append (newline_notMem he.line.2.2.1), ih hes]
      rfl

/-- **A chain that is written is read, just if every line fits.** What is read
is the chain, but for the layout of its payloads. -/
theorem readLines_written {es : List Entry} (hes : ∀ e ∈ es, e.Written) (hfits : ∀ e ∈ es, e.Fits) :
    ∀ {sequence : Nat} {previousHash : Text}, Chain sequence previousHash es →
      readLines sequence previousHash (es.map Entry.line) = (es.map Entry.normal, none) := by
  induction es with
  | nil => exact fun _ => rfl
  | cons e es ih =>
      intro sequence previousHash hchain
      obtain ⟨he, hes⟩ := List.forall_mem_cons.1 hes
      obtain ⟨hfit, hfits⟩ := List.forall_mem_cons.1 hfits
      cases hchain with
      | cons hsequence hprevious hhash hchain =>
          have hrest : readLines e.normal.sequence e.normal.hash (es.map Entry.line) =
              (es.map Entry.normal, none) := ih hes hfits hchain
          rw [List.map_cons, (he.taken hfit hsequence hprevious hhash).readLines, hrest]
          rfl

theorem readAndVerify_fileText {es : List Entry} (hchain : Chain 0 [] es)
    (hes : ∀ e ∈ es, e.Written) :
    readAndVerify (some (fileText es)) = .ok (es.map Entry.normal) ↔ ∀ e ∈ es, e.Fits := by
  rw [readAndVerify_eq_ok, Option.getD_some, lines_fileText hes]
  constructor
  · intro h e hmem
    exact readLines_all h e.line (List.mem_map_of_mem hmem)
  · intro hfits
    exact readLines_written hes hfits hchain

end RelayLifeline.Journal.Wire
