import Mathlib.Algebra.Order.Ring.Unbundled.Rat
import Mathlib.Data.List.Induction
import Mathlib.Data.String.Basic
import RelayLifeline.Proofs.Cooldown
import RelayLifeline.Proofs.Simulation

/-!
# What an adaptive decision shows

The loop over the targets keeps the name and the score of the best one so far,
by score and then by name, and an empty name stands for none so far. A target
without a name that is the best one therefore gives way to whatever comes after
it. Where no such target comes first, the loop finds the least of all
(`best_least`), in whatever order they stand.

The score stays that of the best target when the cooldown then keeps the target
before it.
-/

namespace RelayLifeline.Policy

variable {F : Type} [Float64 F]

/-- The targets the loop looks at. -/
def entries (cfg : Adaptive F) (targets : List (TargetSignal F)) : List (TargetSignal F) :=
  targets.filter fun target => target.eligible cfg

/-- The scores of the targets compare as these rational numbers. -/
def Compares (value : F → ℚ) (cfg : Adaptive F) (targets : List (TargetSignal F)) : Prop :=
  ∀ s ∈ targets, ∀ t ∈ targets,
    Float64.lt (score cfg s) (score cfg t) =
        decide (value (score cfg s) < value (score cfg t)) ∧
      Float64.eq (score cfg s) (score cfg t) =
        decide (value (score cfg s) = value (score cfg t))

/-- A name and a score that come before, or with, those of every target. -/
def Least (value : F → ℚ) (cfg : Adaptive F) (targets : List (TargetSignal F)) (id : String)
    (s : F) : Prop :=
  ∀ t ∈ targets, value s < value (score cfg t) ∨ (value s = value (score cfg t) ∧ id ≤ t.id)

/-- A target without a name scores no more than all that have one. -/
def UnnamedLeast (value : F → ℚ) (cfg : Adaptive F) (targets : List (TargetSignal F)) : Prop :=
  ∃ e ∈ targets, e.id = "" ∧
    ∀ t ∈ targets, t.id ≠ "" → value (score cfg e) ≤ value (score cfg t)

/-! ## The loop -/

/-- One round of the loop over the targets it looks at. -/
def better (cfg : Adaptive F) (found : String × F) (target : TargetSignal F) : String × F :=
  if found.1 = "" || Float64.lt (score cfg target) found.2 ||
      (Float64.eq (score cfg target) found.2 && target.id < found.1) then
    (target.id, score cfg target)
  else found

theorem best_eq (cfg : Adaptive F) (targets : List (TargetSignal F)) :
    best cfg targets = (entries cfg targets).foldl (better cfg) ("", Float64.zero) := by
  rw [entries, List.foldl_filter]
  rfl

/-- What the loop has found is a target, unless it has found none. -/
theorem better_mem (cfg : Adaptive F) (targets : List (TargetSignal F))
    (h : (targets.foldl (better cfg) ("", Float64.zero)).1 ≠ "") :
    ∃ t ∈ targets, t.id = (targets.foldl (better cfg) ("", Float64.zero)).1 ∧
      score cfg t = (targets.foldl (better cfg) ("", Float64.zero)).2 := by
  induction targets using List.reverseRecOn with
  | nil => exact absurd rfl h
  | append_singleton targets t ih =>
      rw [List.foldl_concat, better] at h ⊢
      split at h
      next htakes =>
        rw [if_pos htakes]
        exact ⟨t, List.mem_append_right _ (List.mem_singleton.mpr rfl), rfl, rfl⟩
      next hkeeps =>
        rw [if_neg hkeeps]
        obtain ⟨t', hmem, hid, hscore⟩ := ih h
        exact ⟨t', List.mem_append_left _ hmem, hid, hscore⟩

theorem best_mem {cfg : Adaptive F} {targets : List (TargetSignal F)}
    (h : (best cfg targets).1 ≠ "") :
    ∃ t ∈ entries cfg targets, t.id = (best cfg targets).1 ∧
      score cfg t = (best cfg targets).2 := by
  rw [best_eq] at h ⊢
  exact better_mem cfg _ h

/-- The empty name comes before every other. -/
theorem empty_le (s : String) : "" ≤ s := by
  rw [← String.not_lt, String.lt_iff_toList_lt]
  intro h
  exact absurd h (by simp)

section Order

variable {value : F → ℚ} {cfg : Adaptive F}

theorem value_lt_of_unnamed {targets : List (TargetSignal F)}
    (h : ¬ UnnamedLeast value cfg targets) {e : TargetSignal F} (he : e ∈ targets)
    (hid : e.id = "") : ∃ t ∈ targets, t.id ≠ "" ∧ value (score cfg t) < value (score cfg e) := by
  by_contra hnone
  refine h ⟨e, he, hid, fun t ht hne => ?_⟩
  by_contra hlt
  exact hnone ⟨t, ht, hne, not_le.mp hlt⟩

/-- A target that comes before one without a name that was least comes before
all of them. -/
theorem least_of_unnamedLeast {targets : List (TargetSignal F)} {t : TargetSignal F}
    (hleast : UnnamedLeast value cfg targets)
    (hunnamed : ¬ UnnamedLeast value cfg (targets ++ [t])) :
    t.id ≠ "" ∧ ∀ s ∈ targets, value (score cfg t) < value (score cfg s) := by
  obtain ⟨e, he, hid, hall⟩ := hleast
  have hbefore : ∀ s ∈ targets, s.id = "" → ∃ t' ∈ targets ++ [t], t'.id ≠ "" ∧
      value (score cfg t') < value (score cfg s) := fun s hs hsid =>
    value_lt_of_unnamed hunnamed (List.mem_append_left _ hs) hsid
  obtain ⟨t', ht', hne, hlt⟩ := hbefore e he hid
  have hsame : t' = t := by
    obtain hmem | hmem := List.mem_append.mp ht'
    · exact absurd hlt (not_lt.mpr (hall t' hmem hne))
    · exact List.mem_singleton.mp hmem
  subst hsame
  have hnamed : ∀ s ∈ targets, s.id ≠ "" → value (score cfg t') < value (score cfg s) :=
    fun s hs hsid => lt_of_lt_of_le hlt (hall s hs hsid)
  refine ⟨hne, fun s hs => ?_⟩
  by_cases hsid : s.id = ""
  · obtain ⟨t'', ht'', hne'', hlt''⟩ := hbefore s hs hsid
    obtain hmem | hmem := List.mem_append.mp ht''
    · exact (hnamed t'' hmem hne'').trans hlt''
    · rw [List.mem_singleton.mp hmem] at hlt''
      exact hlt''
  · exact hnamed s hs hsid

/-- Where no target without a name comes first, the loop finds the least. -/
theorem foldl_better_least (targets : List (TargetSignal F)) (hcompares : Compares value cfg targets)
    (hne : targets ≠ []) (hunnamed : ¬ UnnamedLeast value cfg targets) :
    (targets.foldl (better cfg) ("", Float64.zero)).1 ≠ "" ∧
      Least value cfg targets (targets.foldl (better cfg) ("", Float64.zero)).1
        (targets.foldl (better cfg) ("", Float64.zero)).2 := by
  induction targets using List.reverseRecOn with
  | nil => exact absurd rfl hne
  | append_singleton targets t ih =>
      have hlast : t ∈ targets ++ [t] := List.mem_append_right _ (List.mem_singleton.mpr rfl)
      have hself : ∀ s ∈ [t], value (score cfg t) < value (score cfg s) ∨
          (value (score cfg t) = value (score cfg s) ∧ t.id ≤ s.id) := by
        intro s hs
        rw [List.mem_singleton.mp hs]
        exact .inr ⟨rfl, le_refl _⟩
      have hprevious := better_mem cfg targets
      have hbefore : Compares value cfg targets := fun s hs s' hs' =>
        hcompares s (List.mem_append_left _ hs) s' (List.mem_append_left _ hs')
      rw [List.foldl_concat]
      generalize hfound : targets.foldl (better cfg) ("", Float64.zero) = found at *
      by_cases hleast : UnnamedLeast value cfg targets
      · -- whatever was found gives way to the new one
        obtain ⟨hid, hlt⟩ := least_of_unnamedLeast hleast hunnamed
        have htakes : better cfg found t = (t.id, score cfg t) := by
          rw [better, if_pos]
          by_cases hnone : found.1 = ""
          · rw [hnone]
            rfl
          · obtain ⟨a, ha, -, hscore⟩ := hprevious hnone
            have hcompare := (hcompares t hlast a (List.mem_append_left _ ha)).1
            rw [← hscore, hcompare, decide_eq_true (hlt a ha), Bool.or_true, Bool.true_or]
        rw [htakes]
        refine ⟨hid, fun s hs => ?_⟩
        obtain hs | hs := List.mem_append.mp hs
        · exact .inl (hlt s hs)
        · exact hself s hs
      by_cases hnil : targets = []
      · subst hnil
        have hid : t.id ≠ "" := by
          intro hid
          refine hunnamed ⟨t, hlast, hid, fun s hs hsid => ?_⟩
          rw [List.mem_singleton.mp hs]
        rw [← hfound]
        exact ⟨hid, hself⟩
      · obtain ⟨hnamed, hmin⟩ := ih hbefore hnil hleast
        obtain ⟨a, ha, hid, hscore⟩ := hprevious hnamed
        obtain ⟨hlt, heq⟩ := hcompares t hlast a (List.mem_append_left _ ha)
        rw [hscore] at hlt heq
        rw [better]
        split
        next htakes =>
          rw [hlt, heq] at htakes
          simp only [Bool.or_eq_true, Bool.and_eq_true, decide_eq_true_eq, hnamed, false_or]
            at htakes
          have hle : value (score cfg t) ≤ value found.2 := by
            rcases htakes with h | ⟨h, -⟩
            · exact h.le
            · exact h.le
          refine ⟨?_, fun s hs => ?_⟩
          · -- an empty name would have been least
            intro htid
            obtain ⟨t', ht', hne', hlt'⟩ := value_lt_of_unnamed hunnamed hlast htid
            obtain hmem | hmem := List.mem_append.mp ht'
            · have hfirst : value found.2 ≤ value (score cfg t') := by
                rcases hmin t' hmem with h | ⟨h, -⟩
                · exact h.le
                · exact h.le
              exact absurd (hlt'.trans_le hle) (not_lt.mpr hfirst)
            · rw [List.mem_singleton.mp hmem] at hne'
              exact hne' htid
          · obtain hs | hs := List.mem_append.mp hs
            swap
            · exact hself s hs
            rcases htakes with htlt | ⟨hteq, htid⟩
            · rcases hmin s hs with h | ⟨h, -⟩
              · exact .inl (htlt.trans h)
              · exact .inl (h ▸ htlt)
            · show value (score cfg t) < _ ∨ value (score cfg t) = _ ∧ _
              rw [hteq]
              rcases hmin s hs with h | ⟨h, h'⟩
              · exact .inl h
              · exact .inr ⟨h, String.not_lt.mp fun hlt => String.lt_irrefl _
                  (Std.lt_of_lt_of_le (hlt.trans htid) h')⟩
        next hkeeps =>
          rw [hlt, heq] at hkeeps
          simp only [Bool.or_eq_true, Bool.and_eq_true, decide_eq_true_eq, hnamed, false_or]
            at hkeeps
          refine ⟨hnamed, fun s hs => ?_⟩
          obtain hs | hs := List.mem_append.mp hs
          · exact hmin s hs
          · rw [List.mem_singleton.mp hs]
            rcases lt_trichotomy (value found.2) (value (score cfg t)) with h | h | h
            · exact .inl h
            · exact .inr ⟨h, String.not_lt.mp fun hid => hkeeps (.inr ⟨h.symm, hid⟩)⟩
            · exact absurd (.inl h) hkeeps

end Order

/-! ## Decisions -/

namespace Manager

variable {u : Unicode} {m : Manager F} {input : Input F}

/-- The manager that a decision is made on: itself, or for a dry run a copy. -/
def acting (m : Manager F) (dryRun : Bool) : Manager F :=
  if dryRun then m.simulation else m

/-- The cooldown keeps the target that was selected last. -/
def Keeps (m : Manager F) (input : Input F) (now : Int) : Prop :=
  m.adaptiveLastTargetID ≠ "" ∧ 0 < m.config.adaptive.switchCooldown ∧
    now - m.adaptiveLastAt < m.config.adaptive.switchCooldown ∧
    ∃ t ∈ entries m.config.adaptive input.targets, t.id = m.adaptiveLastTargetID

/-- What comes before adaptive routing lets it pick a target. -/
def Opens (u : Unicode) (m : Manager F) (input : Input F) (dryRun : Bool) (now : Int) : Prop :=
  m.config.enabled = true ∧
    (decideRules u m.config input dryRun
      (opened { m with nextID := m.nextID + 1 } input dryRun now)).recommendedTargetID = "" ∧
    (decideRules u m.config input dryRun
      (opened { m with nextID := m.nextID + 1 } input dryRun now)).denied = false ∧
    m.config.adaptive.enabled = true ∧ m.adaptiveStopped = false ∧
    guarded m.config.adaptive input = none

omit [Float64 F] in
theorem cooled_of_keeps {now : Int} (h : m.Keeps input now) (bestID : String) :
    m.cooled m.config.adaptive input now bestID = m.adaptiveLastTargetID := by
  obtain ⟨hlast, hcooldown, hsince, t, ht, hid⟩ := h
  obtain ⟨ht, heligible⟩ := List.mem_filter.mp ht
  rw [cooled]
  split
  · rfl
  next hfree =>
    by_contra hne
    refine hfree ⟨hlast, fun heq => hne heq.symm, hcooldown, hsince, ?_⟩
    rw [List.any_eq_true]
    refine ⟨t, ht, ?_⟩
    rw [heligible, Bool.and_true]
    exact decide_eq_true hid

omit [Float64 F] in
theorem cooled_of_not_keeps {now : Int} (h : ¬ m.Keeps input now) (bestID : String) :
    m.cooled m.config.adaptive input now bestID = bestID := by
  rw [cooled, if_neg]
  rintro ⟨hlast, -, hcooldown, hsince, hany⟩
  rw [List.any_eq_true] at hany
  obtain ⟨t, ht, hboth⟩ := hany
  rw [Bool.and_eq_true] at hboth
  exact h ⟨hlast, hcooldown, hsince, t, List.mem_filter.mpr ⟨ht, hboth.2⟩,
    of_decide_eq_true hboth.1⟩

theorem adaptiveTarget_ne_iff (m : Manager F) (input : Input F) (now : Int) :
    (m.adaptiveTarget m.config.adaptive input now).2.1 ≠ "" ↔
      (m.config.adaptive.enabled = true ∧ m.adaptiveStopped = false ∧
        guarded m.config.adaptive input = none) ∧
      (best m.config.adaptive input.targets).1 ≠ "" := by
  rw [adaptiveTarget]
  split
  next hstopped =>
    refine ⟨fun hne => absurd rfl hne, ?_⟩
    rintro ⟨⟨henabled, hrunning, -⟩, -⟩
    rw [henabled, hrunning] at hstopped
    cases hstopped
  next hrunning =>
    rw [Bool.or_eq_true, Bool.not_eq_true', not_or, Bool.not_eq_false, Bool.not_eq_true] at hrunning
    split
    next stop reason hguarded =>
      refine ⟨fun hne => absurd rfl hne, ?_⟩
      rintro ⟨⟨-, -, hnone⟩, -⟩
      rw [hguarded] at hnone
      cases hnone
    next hguarded =>
      dsimp only
      split
      next hnone => exact ⟨fun hne => absurd rfl hne, fun h => absurd hnone h.2⟩
      next hfound =>
        exact ⟨fun _ => ⟨⟨hrunning.1, hrunning.2, hguarded⟩, hfound⟩,
          fun _ => cooled_ne_empty hfound⟩

theorem decideAdaptive_adaptive_iff (m : Manager F) (input : Input F) (dryRun : Bool) (now : Int)
    {decision : Decision F} (hdecision : decision.adaptive = false) :
    (m.decideAdaptive input dryRun now decision).2.adaptive = true ↔
      (decision.recommendedTargetID = "" ∧ decision.denied = false) ∧
        (m.adaptiveTarget m.config.adaptive input now).2.1 ≠ "" := by
  rw [decideAdaptive]
  dsimp only
  split
  next hopen =>
    rw [Bool.and_eq_true, decide_eq_true_eq, Bool.not_eq_true'] at hopen
    split
    next htarget => exact ⟨fun _ => ⟨hopen, htarget⟩, fun _ => rfl⟩
    next htarget =>
      have hnone : ∀ d : Decision F, d.adaptive = false → (d.adaptive = true ↔
          (decision.recommendedTargetID = "" ∧ decision.denied = false) ∧
            (m.adaptiveTarget m.config.adaptive input now).2.1 ≠ "") := by
        intro d hd
        rw [hd]
        exact ⟨fun h => absurd h Bool.false_ne_true, fun h => absurd h.2 htarget⟩
      split
      · split
        · exact hnone _ hdecision
        · exact hnone _ hdecision
      · exact hnone _ hdecision
  next hclosed =>
    rw [Bool.and_eq_true, decide_eq_true_eq, Bool.not_eq_true'] at hclosed
    rw [hdecision]
    exact ⟨fun h => absurd h Bool.false_ne_true, fun h => absurd h.1 hclosed⟩

/-- A decision is adaptive exactly where adaptive routing may pick a target and
finds one. -/
theorem evaluateLocked_adaptive_iff (m : Manager F) (u : Unicode) (input : Input F) (dryRun : Bool)
    (now later : Int) :
    (m.evaluateLocked u input dryRun now later).2.adaptive = true ↔
      Opens u m input dryRun now ∧ (best m.config.adaptive input.targets).1 ≠ "" := by
  rw [evaluateLocked, Opens]
  dsimp only
  split
  next hdisabled =>
    rw [Bool.not_eq_true'] at hdisabled
    refine ⟨fun h => absurd h Bool.false_ne_true, ?_⟩
    rintro ⟨⟨henabled, -⟩, -⟩
    rw [hdisabled] at henabled
    cases henabled
  next henabled =>
    rw [Bool.not_eq_true', Bool.not_eq_false] at henabled
    have hrules := @decideRules_adaptive _ u input m.config dryRun
      (opened { m with nextID := m.nextID + 1 } input dryRun now)
    have hdecided := decideAdaptive_adaptive_iff { m with nextID := m.nextID + 1 } input dryRun
      later hrules
    rw [adaptiveTarget_ne_iff] at hdecided
    rw [record]
    dsimp only
    rw [(finishDecision_rest _ _).1, hdecided]
    constructor
    · rintro ⟨⟨htarget, hdenied⟩, ⟨hadaptive, hrunning, hguarded⟩, hfound⟩
      exact ⟨⟨henabled, htarget, hdenied, hadaptive, hrunning, hguarded⟩, hfound⟩
    · rintro ⟨⟨-, htarget, hdenied, hadaptive, hrunning, hguarded⟩, hfound⟩
      exact ⟨⟨htarget, hdenied⟩, ⟨hadaptive, hrunning, hguarded⟩, hfound⟩

theorem evaluate_acting (m : Manager F) (u : Unicode) (input : Input F) (dryRun : Bool)
    (now later : Int) :
    (m.evaluate u input dryRun now later).2 =
      ((m.acting dryRun).evaluateLocked u input dryRun now later).2 := by
  cases dryRun with
  | true => rfl
  | false => rfl

omit [Float64 F] in
theorem acting_rest (m : Manager F) (dryRun : Bool) :
    (m.acting dryRun).config.adaptive = m.config.adaptive ∧
      (m.acting dryRun).adaptiveLastTargetID = m.adaptiveLastTargetID ∧
      (m.acting dryRun).adaptiveLastAt = m.adaptiveLastAt := by
  cases dryRun with
  | true => exact ⟨rfl, rfl, rfl⟩
  | false => exact ⟨rfl, rfl, rfl⟩

/-- What an adaptive decision is made of: the target the cooldown leaves of the
best one, and the score of the best one. -/
theorem evaluate_adaptive {dryRun : Bool} {now later : Int}
    (h : (m.evaluate u input dryRun now later).2.adaptive = true) :
    (best m.config.adaptive input.targets).1 ≠ "" ∧
      (m.evaluate u input dryRun now later).2.recommendedTargetID =
        m.cooled m.config.adaptive input later (best m.config.adaptive input.targets).1 ∧
      (m.evaluate u input dryRun now later).2.adaptiveScore =
        (best m.config.adaptive input.targets).2 := by
  obtain ⟨hconfig, hlast, hat⟩ := m.acting_rest dryRun
  rw [evaluate_acting] at h ⊢
  obtain ⟨hnone, -⟩ | ⟨-, hpicked⟩ :=
    (m.acting dryRun).evaluateLocked_cases u input dryRun now later
  · rw [hnone] at h
    cases h
  · have hfound := hpicked.found
    have htarget := hpicked.target_eq
    have hscore := hpicked.score_eq
    rw [hconfig] at hfound htarget hscore
    rw [cooled, hlast, hat, ← cooled] at htarget
    exact ⟨hfound, htarget, hscore⟩

/-- The decision shows the target it recommends: its score is that of an
eligible target of that name and is the one the status shows, and without the
cooldown it is the least one, whatever the order of the targets. -/
structure Evident (value : F → ℚ) (u : Unicode) (m : Manager F) (input : Input F) (dryRun : Bool)
    (now later : Int) : Prop where
  matching : ∃ t ∈ entries m.config.adaptive input.targets,
    t.id = (m.evaluate u input dryRun now later).2.recommendedTargetID ∧
      value (m.evaluate u input dryRun now later).2.adaptiveScore =
        value (score m.config.adaptive t)
  status : dryRun = false → (m.evaluate u input dryRun now later).1.adaptiveLastScore =
    (m.evaluate u input dryRun now later).2.adaptiveScore
  least : ¬ m.Keeps input later →
    Least value m.config.adaptive (entries m.config.adaptive input.targets)
      (m.evaluate u input dryRun now later).2.recommendedTargetID
      (m.evaluate u input dryRun now later).2.adaptiveScore
  unordered : ¬ m.Keeps input later → ∀ targets, targets.Perm input.targets →
    (m.evaluate u { input with targets } dryRun now later).2.adaptive = true ∧
      (m.evaluate u { input with targets } dryRun now later).2.recommendedTargetID =
        (m.evaluate u input dryRun now later).2.recommendedTargetID ∧
      value (m.evaluate u { input with targets } dryRun now later).2.adaptiveScore =
        value (m.evaluate u input dryRun now later).2.adaptiveScore

/-- The target the cooldown keeps scores as the best one does. -/
def KeepsBest (value : F → ℚ) (m : Manager F) (input : Input F) (now : Int) : Prop :=
  m.Keeps input now → ∃ t ∈ entries m.config.adaptive input.targets,
    t.id = m.adaptiveLastTargetID ∧ ∀ s ∈ entries m.config.adaptive input.targets,
      value (score m.config.adaptive t) ≤ value (score m.config.adaptive s)

section Evidence

variable {value : F → ℚ} {dryRun : Bool} {now later : Int}

/-- What the loop finds, where no target without a name comes first. -/
theorem best_least {cfg : Adaptive F} {targets : List (TargetSignal F)}
    (hcompares : Compares value cfg (entries cfg targets)) (hne : entries cfg targets ≠ [])
    (hunnamed : ¬ UnnamedLeast value cfg (entries cfg targets)) :
    (best cfg targets).1 ≠ "" ∧
      Least value cfg (entries cfg targets) (best cfg targets).1 (best cfg targets).2 := by
  rw [best_eq]
  exact foldl_better_least _ hcompares hne hunnamed

theorem entries_ne_nil {cfg : Adaptive F} {targets : List (TargetSignal F)}
    (h : (best cfg targets).1 ≠ "") : entries cfg targets ≠ [] := by
  obtain ⟨t, ht, -⟩ := best_mem h
  exact List.ne_nil_of_mem ht

/-- Two least names and scores of the same targets agree. -/
theorem least_unique {cfg : Adaptive F} {targets : List (TargetSignal F)} {s t : TargetSignal F}
    (hs : s ∈ targets) (ht : t ∈ targets) (hsleast : Least value cfg targets s.id (score cfg s))
    (htleast : Least value cfg targets t.id (score cfg t)) :
    s.id = t.id ∧ value (score cfg s) = value (score cfg t) := by
  rcases hsleast t ht with hlt | ⟨heq, hle⟩
  · rcases htleast s hs with hlt' | ⟨heq', -⟩
    · exact absurd hlt' (not_lt.mpr hlt.le)
    · exact absurd heq' hlt.ne'
  · rcases htleast s hs with hlt' | ⟨-, hle'⟩
    · exact absurd heq hlt'.ne'
    · exact ⟨String.le_antisymm hle hle', heq⟩

/-- Without the cooldown the targets may stand in any order. -/
theorem evaluate_unordered
    (hcompares : Compares value m.config.adaptive (entries m.config.adaptive input.targets))
    (hadaptive : (m.evaluate u input dryRun now later).2.adaptive = true)
    (hunnamed : ¬ UnnamedLeast value m.config.adaptive (entries m.config.adaptive input.targets))
    (hfree : ¬ m.Keeps input later) {targets : List (TargetSignal F)}
    (hperm : targets.Perm input.targets) :
    (m.evaluate u { input with targets } dryRun now later).2.adaptive = true ∧
      (m.evaluate u { input with targets } dryRun now later).2.recommendedTargetID =
        (m.evaluate u input dryRun now later).2.recommendedTargetID ∧
      value (m.evaluate u { input with targets } dryRun now later).2.adaptiveScore =
        value (m.evaluate u input dryRun now later).2.adaptiveScore := by
  have hentries : (entries m.config.adaptive targets).Perm
      (entries m.config.adaptive input.targets) := hperm.filter _
  have hmem : ∀ t, t ∈ entries m.config.adaptive targets ↔
      t ∈ entries m.config.adaptive input.targets := fun t => hentries.mem_iff
  obtain ⟨hfound, htarget, hscore⟩ := evaluate_adaptive hadaptive
  have hleast := best_least hcompares (entries_ne_nil hfound) hunnamed
  have hcompares' : Compares value m.config.adaptive (entries m.config.adaptive targets) :=
    fun s hs t ht => hcompares s ((hmem s).mp hs) t ((hmem t).mp ht)
  have hne' : entries m.config.adaptive targets ≠ [] := by
    intro hnil
    rw [hnil] at hentries
    exact entries_ne_nil hfound (List.nil_perm.mp hentries)
  have hunnamed' : ¬ UnnamedLeast value m.config.adaptive
      (entries m.config.adaptive targets) := by
    rintro ⟨e, he, hid, hall⟩
    exact hunnamed ⟨e, (hmem e).mp he, hid, fun t ht hne => hall t ((hmem t).mpr ht) hne⟩
  have hleast' := best_least hcompares' hne' hunnamed'
  have hfree' : ¬ m.Keeps { input with targets } later := by
    rintro ⟨hlast, hcooldown, hsince, t, ht, hid⟩
    exact hfree ⟨hlast, hcooldown, hsince, t, (hmem t).mp ht, hid⟩
  have hopens : Opens u (m.acting dryRun) { input with targets } dryRun now := by
    rw [evaluate_acting, evaluateLocked_adaptive_iff] at hadaptive
    exact hadaptive.1
  have hadaptive' : (m.evaluate u { input with targets } dryRun now later).2.adaptive = true := by
    rw [evaluate_acting, evaluateLocked_adaptive_iff, (m.acting_rest dryRun).1]
    exact ⟨hopens, hleast'.1⟩
  obtain ⟨hfound', htarget', hscore'⟩ := evaluate_adaptive hadaptive'
  obtain ⟨s, hs, hsid, hsscore⟩ := best_mem hfound
  obtain ⟨t, ht, htid, htscore⟩ := best_mem hfound'
  rw [← hsid, ← hsscore] at hleast
  rw [← htid, ← htscore] at hleast'
  have hsame := least_unique hs ((hmem t).mp ht) hleast.2
    fun x hx => hleast'.2 x ((hmem x).mpr hx)
  refine ⟨hadaptive', ?_, ?_⟩
  · rw [htarget, htarget', cooled_of_not_keeps hfree, cooled_of_not_keeps hfree', ← hsid, ← htid]
    exact hsame.1.symm
  · rw [hscore, hscore', ← hsscore, ← htscore]
    exact hsame.2.symm

/-- **An adaptive decision shows its target where the target that the cooldown
keeps scores as the best one does, and no target without a name comes first.**
Where only one of the two can fail, it is necessary. -/
theorem evident_iff
    (hcompares : Compares value m.config.adaptive (entries m.config.adaptive input.targets))
    (hadaptive : (m.evaluate u input dryRun now later).2.adaptive = true) :
    (¬ UnnamedLeast value m.config.adaptive (entries m.config.adaptive input.targets) ∧
        m.KeepsBest value input later → Evident value u m input dryRun now later) ∧
      (¬ UnnamedLeast value m.config.adaptive (entries m.config.adaptive input.targets) ∨
          ¬ m.Keeps input later →
        Evident value u m input dryRun now later →
          ¬ UnnamedLeast value m.config.adaptive (entries m.config.adaptive input.targets) ∧
            m.KeepsBest value input later) := by
  obtain ⟨hfound, htarget, hscore⟩ := evaluate_adaptive hadaptive
  obtain ⟨b, hb, hbid, hbscore⟩ := best_mem hfound
  constructor
  · rintro ⟨hunnamed, hkept⟩
    have hleast := (best_least hcompares (entries_ne_nil hfound) hunnamed).2
    refine ⟨?_, ?_, ?_, fun hfree targets hperm =>
      evaluate_unordered hcompares hadaptive hunnamed hfree hperm⟩
    · by_cases hkeeps : m.Keeps input later
      · obtain ⟨t, ht, hid, hmin⟩ := hkept hkeeps
        refine ⟨t, ht, ?_, ?_⟩
        · rw [htarget, cooled_of_keeps hkeeps, hid]
        · have hle := hmin b hb
          rw [hbscore] at hle
          rw [hscore]
          rcases hleast t ht with hlt | ⟨heq, -⟩
          · exact absurd hle (not_le.mpr hlt)
          · exact heq
      · refine ⟨b, hb, ?_, ?_⟩
        · rw [htarget, cooled_of_not_keeps hkeeps, hbid]
        · rw [hscore, hbscore]
    · rintro rfl
      obtain ⟨hnone, -⟩ | ⟨-, hpicked⟩ := evaluate_cases m u input now later
      · rw [hnone] at hadaptive
        cases hadaptive
      · exact hpicked.lastScore
    · intro hfree
      rw [htarget, hscore, cooled_of_not_keeps hfree]
      exact hleast
  · intro hone hevident
    by_cases hkeeps : m.Keeps input later
    · have hunnamed := hone.resolve_right fun hfree => hfree hkeeps
      refine ⟨hunnamed, fun _ => ?_⟩
      obtain ⟨t, ht, hid, hvalue⟩ := hevident.matching
      have hleast := (best_least hcompares (entries_ne_nil hfound) hunnamed).2
      refine ⟨t, ht, ?_, fun s hs => ?_⟩
      · rw [hid, htarget, cooled_of_keeps hkeeps]
      · rw [← hvalue, hscore]
        rcases hleast s hs with hlt | ⟨heq, -⟩
        · exact hlt.le
        · exact heq.le
    · refine ⟨?_, fun h => absurd h hkeeps⟩
      rintro ⟨e, he, hid, hall⟩
      have hnamed : b.id ≠ "" := by
        rw [hbid]
        exact hfound
      have hle := hall b hb hnamed
      have hleast := hevident.least hkeeps e he
      rw [htarget, hscore, cooled_of_not_keeps hkeeps, ← hbscore, ← hbid, hid] at hleast
      rcases hleast with hlt | ⟨-, hempty⟩
      · exact absurd hle (not_le.mpr hlt)
      · exact hnamed (String.le_antisymm hempty (empty_le _))

end Evidence

theorem compares_rat (cfg : Adaptive ℚ) (targets : List (TargetSignal ℚ)) :
    Compares id cfg targets := fun _ _ _ _ => ⟨rfl, rfl⟩

theorem evident_iff_firstSelection :
    Evident id ascii (new adaptivePolicy) (twoTargets 100 200) false 0 0 :=
  (evident_iff (compares_rat _ _) (by decide +kernel)).1
    ⟨by unfold UnnamedLeast; decide +kernel, fun hkeeps => absurd rfl hkeeps.1⟩

/-- The cooldown keeps the slower target, and the decision has the score of the
faster one. -/
theorem not_evident_kept :
    (((new adaptivePolicy).step ascii (.evaluate (twoTargets 100 200) false 0 0)).evaluate ascii
        (twoTargets 200 100) false 10 10).2.adaptive = true ∧
      ¬ Evident id ascii
        ((new adaptivePolicy).step ascii (.evaluate (twoTargets 100 200) false 0 0))
        (twoTargets 200 100) false 10 10 := by
  refine ⟨by decide +kernel, fun h => ?_⟩
  have hmatching := h.matching
  revert hmatching
  decide +kernel

end Manager

end RelayLifeline.Policy
