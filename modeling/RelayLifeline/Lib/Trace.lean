import Mathlib.Data.List.Basic

/-!
# Runs of a step function, and what holds along them

A system here is a total function `step : σ → ι → σ`: a state, an input, the
next state. An input the state does not allow leaves the state alone, so every
list of inputs is a run and `List.foldl step` is the state it ends in. Since a
prefix of a run is a run, a statement about the end of every run is a statement
about every state a run passes through.

`Along step C s is` says that each input of the run met the condition `C` in
the state it was taken in. It is how an assumption about the steps of a run is
written, and it carries the two rules the proofs use: an invariant of the
steps that meet the condition holds at the end, and a run cut in two meets the
condition in both halves.
-/

namespace RelayLifeline.Lib

variable {σ τ ι : Type*} {step : σ → ι → σ} {C D : σ → ι → Prop}

/-- Every input of the run meets `C` in the state it is taken in. -/
def Along (step : σ → ι → σ) (C : σ → ι → Prop) : σ → List ι → Prop
  | _, [] => True
  | s, i :: is => C s i ∧ Along step C (step s i) is

namespace Along

instance decide [∀ s i, Decidable (C s i)] : ∀ s is, Decidable (Along step C s is)
  | _, [] => .isTrue trivial
  | s, i :: is =>
      have := decide (step s i) is
      inferInstanceAs (Decidable (C s i ∧ Along step C (step s i) is))

theorem append {s : σ} {is js : List ι} :
    Along step C s (is ++ js) ↔
      Along step C s is ∧ Along step C (is.foldl step s) js := by
  induction is generalizing s with
  | nil => simp [Along]
  | cons i is ih => simp [Along, ih, and_assoc]

theorem mono (h : ∀ s i, C s i → D s i) {s : σ} {is : List ι}
    (hc : Along step C s is) : Along step D s is := by
  induction is generalizing s with
  | nil => trivial
  | cons i is ih => exact ⟨h s i hc.1, ih hc.2⟩

theorem and {s : σ} {is : List ι} (hc : Along step C s is)
    (hd : Along step D s is) : Along step (fun s i => C s i ∧ D s i) s is := by
  induction is generalizing s with
  | nil => trivial
  | cons i is ih => exact ⟨⟨hc.1, hd.1⟩, ih hc.2 hd.2⟩

/-- A condition on the inputs alone. -/
theorem of_forall {P : ι → Prop} {s : σ} {is : List ι} (h : ∀ i ∈ is, P i) :
    Along step (fun _ i => P i) s is := by
  induction is generalizing s with
  | nil => trivial
  | cons i is ih => exact ⟨h i List.mem_cons_self, ih fun j hj => h j (List.mem_cons_of_mem _ hj)⟩

/-- An invariant of the steps that meet `C` holds wherever a run of such steps
ends. -/
theorem invariant {P : σ → Prop} (hstep : ∀ s i, P s → C s i → P (step s i))
    {s : σ} {is : List ι} (hs : P s) (hc : Along step C s is) :
    P (is.foldl step s) := by
  induction is generalizing s with
  | nil => exact hs
  | cons i is ih => exact ih (hstep s i hs hc.1) hc.2

/-- A run that does not meet the condition has a first step that does not. -/
theorem exists_first {s : σ} {is : List ι} (h : ¬Along step C s is) :
    ∃ front i rest, is = front ++ i :: rest ∧ Along step C s front ∧
      ¬C (front.foldl step s) i := by
  induction is generalizing s with
  | nil => exact absurd trivial h
  | cons i is ih =>
      by_cases hc : C s i
      · obtain ⟨front, j, rest, rfl, hfront, hj⟩ := ih fun hrest => h ⟨hc, hrest⟩
        exact ⟨i :: front, j, rest, rfl, ⟨hc, hfront⟩, hj⟩
      · exact ⟨[], i, is, rfl, trivial, hc⟩

/-- A condition that holds wherever the run takes a step. -/
theorem of_prefixes {s : σ} {is : List ι}
    (h : ∀ front i rest, is = front ++ i :: rest → C (front.foldl step s) i) :
    Along step C s is := by
  by_contra hnot
  obtain ⟨front, i, rest, heq, -, hi⟩ := exists_first hnot
  exact hi (h front i rest heq)

/-- The condition of a step, read where an invariant is known to hold. -/
theorem of_invariant {P : σ → Prop} (hstep : ∀ s i, P s → C s i → P (step s i))
    (hP : ∀ s i, P s → C s i → D s i) {s : σ} {is : List ι} (hs : P s)
    (hc : Along step C s is) : Along step D s is := by
  induction is generalizing s with
  | nil => trivial
  | cons i is ih => exact ⟨hP s i hs hc.1, ih (hstep s i hs hc.1) hc.2⟩

/-- Where the steps that meet the condition keep an invariant that gives `P`,
and the first step that does not breaks `P`, the condition holds along a run
of inputs that are all admissible exactly when `P` holds wherever the run has
been. -/
theorem iff_prefixes_of {I P : σ → Prop} {A : ι → Prop}
    (hkeep : ∀ s i, A i → I s → C s i → I (step s i))
    (hbreak : ∀ s i, A i → I s → ¬C s i → ¬P (step s i)) (hP : ∀ s, I s → P s) {s : σ}
    {is : List ι} (hA : ∀ i ∈ is, A i) (hs : I s) :
    (∀ front, front <+: is → P (front.foldl step s)) ↔ Along step C s is := by
  have hrun : ∀ {front : List ι}, (∀ i ∈ front, A i) → Along step C s front →
      I (front.foldl step s) := by
    intro front hfront hc
    exact invariant (fun s i h hi => hkeep s i hi.1 h hi.2) hs ((of_forall hfront).and hc)
  constructor
  · intro hall
    by_contra hnot
    obtain ⟨front, i, rest, rfl, hfront, hi⟩ := exists_first hnot
    have hreached := hrun (fun j hj => hA j (by simp [hj])) hfront
    refine hbreak _ i (hA i (by simp)) hreached hi ?_
    have := hall (front ++ [i]) ⟨rest, by simp⟩
    rwa [List.foldl_append] at this
  · intro hc front hfront
    obtain ⟨rest, rfl⟩ := hfront
    exact hP _ (hrun (fun i hi => hA i (by simp [hi])) (append.1 hc).1)

/-- The same where every input is admissible. -/
theorem iff_prefixes {I P : σ → Prop} (hkeep : ∀ s i, I s → C s i → I (step s i))
    (hbreak : ∀ s i, I s → ¬C s i → ¬P (step s i)) (hP : ∀ s, I s → P s) {s : σ}
    {is : List ι} (hs : I s) :
    (∀ front, front <+: is → P (front.foldl step s)) ↔ Along step C s is :=
  iff_prefixes_of (A := fun _ => True) (fun s i _ => hkeep s i) (fun s i _ => hbreak s i) hP
    (fun _ _ => trivial) hs

end Along

/-- An invariant every step keeps holds at the end of every run. -/
theorem foldl_invariant {P : σ → Prop} (hstep : ∀ s i, P s → P (step s i))
    {s : σ} (hs : P s) (is : List ι) : P (is.foldl step s) := by
  induction is generalizing s with
  | nil => exact hs
  | cons i is ih => exact ih (hstep s i hs)

/-! ## Two systems side by side -/

/-- A second system keeps step with the run: it makes a move for each input,
and the two are related wherever the run has been. -/
def InStep (step : σ → ι → σ) (M : τ → ι → τ → Prop) (R : σ → τ → Prop) : σ → τ → List ι → Prop
  | s, t, [] => R s t
  | s, t, i :: is => R s t ∧ ∃ t', M t i t' ∧ InStep step M R (step s i) t' is

/-- A simulation of the steps is one of the runs. -/
theorem Along.inStep {M : τ → ι → τ → Prop} {R : σ → τ → Prop}
    (hstep : ∀ s t i, R s t → C s i → ∃ t', M t i t' ∧ R (step s i) t') {s : σ} {t : τ}
    {is : List ι} (hs : R s t) (hc : Along step C s is) : InStep step M R s t is := by
  induction is generalizing s t with
  | nil => exact hs
  | cons i is ih =>
      obtain ⟨t', hmove, hnext⟩ := hstep s t i hs hc.1
      exact ⟨hs, t', hmove, ih hnext hc.2⟩

/-! ## What the steps emit -/

section Outputs

variable {ε : Type*} {emit : σ → ι → σ × ε}

/-- What the steps of a run emit, where each step emits one thing. -/
def outputs (emit : σ → ι → σ × ε) : σ → List ι → List ε
  | _, [] => []
  | s, i :: is => (emit s i).2 :: outputs emit (emit s i).1 is

theorem outputs_append (s : σ) (is js : List ι) :
    outputs emit s (is ++ js) =
      outputs emit s is ++ outputs emit (is.foldl (fun s i => (emit s i).1) s) js := by
  induction is generalizing s with
  | nil => rfl
  | cons i is ih => rw [List.cons_append, outputs, outputs, ih, List.cons_append, List.foldl_cons]

theorem outputs_concat (s : σ) (is : List ι) (i : ι) :
    outputs emit s (is ++ [i]) =
      outputs emit s is ++ [(emit (is.foldl (fun s i => (emit s i).1) s) i).2] :=
  outputs_append s is [i]

/-- Whatever was emitted was emitted by a step, after the steps that emitted
what is before it. -/
theorem outputs_split {s : σ} {is : List ι} {before after : List ε} {e : ε}
    (h : outputs emit s is = before ++ e :: after) :
    ∃ js j, outputs emit s js = before ∧ (emit (js.foldl (fun s i => (emit s i).1) s) j).2 = e := by
  induction before generalizing s is with
  | nil =>
      cases is with
      | nil => cases h
      | cons i is => exact ⟨[], i, rfl, (List.cons.inj h).1⟩
  | cons first before ih =>
      cases is with
      | nil => cases h
      | cons i is =>
          obtain ⟨hfirst, hrest⟩ := List.cons.inj h
          obtain ⟨js, j, hbefore, hemit⟩ := ih hrest
          refine ⟨i :: js, j, ?_, hemit⟩
          rw [outputs, hfirst, hbefore]

/-- An invariant of what was emitted and of the state, which every step that
meets the condition keeps, holds at the end of a run of such steps. -/
theorem Along.outputs {P : List ε → σ → Prop}
    (hstep : ∀ past s i, P past s → C s i → P (past ++ [(emit s i).2]) (emit s i).1) {s : σ}
    (hs : P [] s) {is : List ι} (hc : Along (fun s i => (emit s i).1) C s is) :
    P (Lib.outputs emit s is) (is.foldl (fun s i => (emit s i).1) s) := by
  have hgo : ∀ (is : List ι) (past : List ε) (s : σ), P past s →
      Along (fun s i => (emit s i).1) C s is →
      P (past ++ Lib.outputs emit s is) (is.foldl (fun s i => (emit s i).1) s) := by
    intro is
    induction is with
    | nil =>
        intro past s hs _
        rw [Lib.outputs, List.append_nil]
        exact hs
    | cons i is ih =>
        intro past s hs hc
        rw [Lib.outputs, List.append_cons]
        exact ih _ _ (hstep past s i hs hc.1) hc.2
  exact hgo is [] s hs hc

/-- Where every step keeps it, it holds at the end of every run. -/
theorem outputs_invariant {P : List ε → σ → Prop}
    (hstep : ∀ past s i, P past s → P (past ++ [(emit s i).2]) (emit s i).1) {s : σ}
    (hs : P [] s) (is : List ι) :
    P (outputs emit s is) (is.foldl (fun s i => (emit s i).1) s) :=
  Along.outputs (C := fun _ _ => True) (fun past s i h _ => hstep past s i h) hs
    (Along.of_forall fun _ _ => trivial)

end Outputs

end RelayLifeline.Lib
