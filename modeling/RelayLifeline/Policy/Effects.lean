import RelayLifeline.Policy.Manager

/-!
# What an evaluation does to a manager

Adaptive routing either picks nothing, and then no more than its stop changes,
or picks a target: the one the cooldown keeps or the best one, with the score of
the best one. The rules before it and the canary after it do not touch what it
picked.
-/

namespace RelayLifeline.Policy

variable {F : Type} [Float64 F]

namespace Manager

variable {u : Unicode} {m m' : Manager F} {input : Input F}

omit [Float64 F] in
/-- What adaptive routing remembers of the target it picked last is as it was. -/
structure Unmoved (m m' : Manager F) : Prop where
  config : m'.config = m.config
  lastTargetID : m'.adaptiveLastTargetID = m.adaptiveLastTargetID
  lastScore : m'.adaptiveLastScore = m.adaptiveLastScore
  lastAt : m'.adaptiveLastAt = m.adaptiveLastAt
  switches : m'.adaptiveSwitches = m.adaptiveSwitches

/-- Adaptive routing has picked `target` with the score `score`. -/
structure Picked (m m' : Manager F) (input : Input F) (now : Int) (target : String) (score : F) :
    Prop where
  config : m'.config = m.config
  found : (best m.config.adaptive input.targets).1 ≠ ""
  target_eq : target =
    m.cooled m.config.adaptive input now (best m.config.adaptive input.targets).1
  score_eq : score = (best m.config.adaptive input.targets).2
  lastTargetID : m'.adaptiveLastTargetID = target
  lastScore : m'.adaptiveLastScore = score
  kept : target = m.adaptiveLastTargetID →
    m'.adaptiveLastAt = m.adaptiveLastAt ∧ m'.adaptiveSwitches = m.adaptiveSwitches
  switched : target ≠ m.adaptiveLastTargetID →
    m'.adaptiveLastAt = now ∧
      m'.adaptiveSwitches =
        if m.adaptiveLastTargetID ≠ "" then m.adaptiveSwitches + 1 else m.adaptiveSwitches

omit [Float64 F] in
theorem cooled_ne_empty {cfg : Adaptive F} {now : Int} {bestID : String} (h : bestID ≠ "") :
    m.cooled cfg input now bestID ≠ "" := by
  rw [cooled]
  split
  next hkeeps => exact hkeeps.1
  · exact h

theorem adaptiveTarget_cases (m : Manager F) (input : Input F) (now : Int) :
    ((m.adaptiveTarget m.config.adaptive input now).2.1 = "" ∧
        Unmoved m (m.adaptiveTarget m.config.adaptive input now).1) ∨
      ((m.adaptiveTarget m.config.adaptive input now).2.1 ≠ "" ∧
        Picked m (m.adaptiveTarget m.config.adaptive input now).1 input now
          (m.adaptiveTarget m.config.adaptive input now).2.1
          (m.adaptiveTarget m.config.adaptive input now).2.2.1) := by
  rw [adaptiveTarget]
  split
  · exact .inl ⟨rfl, rfl, rfl, rfl, rfl, rfl⟩
  · split
    · exact .inl ⟨rfl, rfl, rfl, rfl, rfl, rfl⟩
    · dsimp only
      split
      · exact .inl ⟨rfl, rfl, rfl, rfl, rfl, rfl⟩
      next hfound =>
        right
        refine ⟨cooled_ne_empty hfound, ?_⟩
        dsimp only
        split
        next hswitched =>
          exact ⟨rfl, hfound, rfl, rfl, rfl, rfl, fun hkept => absurd hkept hswitched,
            fun _ => ⟨rfl, rfl⟩⟩
        next hkept =>
          rw [not_not] at hkept
          exact ⟨rfl, hfound, rfl, rfl, hkept.symm, rfl, fun _ => ⟨rfl, rfl⟩,
            fun hswitched => absurd hkept hswitched⟩

omit [Float64 F] in
theorem decideRules_adaptive (cfg : Config F) (dryRun : Bool) (decision : Decision F) :
    (decideRules u cfg input dryRun decision).adaptive = decision.adaptive := by
  simp only [decideRules]
  split
  · split
    · rfl
    · rfl
  · split
    · rfl
    · rfl

/-- The decision of adaptive routing: it is adaptive where a target was picked,
and then it is of that target and its score. -/
theorem decideAdaptive_cases (m : Manager F) (input : Input F) (dryRun : Bool) (now : Int)
    {decision : Decision F} (hdecision : decision.adaptive = false) :
    ((m.decideAdaptive input dryRun now decision).2.adaptive = false ∧
        Unmoved m (m.decideAdaptive input dryRun now decision).1) ∨
      ((m.decideAdaptive input dryRun now decision).2.adaptive = true ∧
        Picked m (m.decideAdaptive input dryRun now decision).1 input now
          (m.decideAdaptive input dryRun now decision).2.recommendedTargetID
          (m.decideAdaptive input dryRun now decision).2.adaptiveScore) := by
  rw [decideAdaptive]
  dsimp only
  split
  · obtain ⟨hnone, hunmoved⟩ | ⟨hsome, hpicked⟩ := adaptiveTarget_cases m input now
    · left
      rw [if_neg fun hne => hne hnone]
      split
      · split
        · exact ⟨hdecision, hunmoved⟩
        · exact ⟨hdecision, hunmoved⟩
      · exact ⟨hdecision, hunmoved⟩
    · right
      rw [if_pos hsome]
      exact ⟨rfl, hpicked⟩
  · exact .inl ⟨hdecision, rfl, rfl, rfl, rfl, rfl⟩

omit [Float64 F] in
theorem finishDecision_rest (cfg : Config F) (decision : Decision F) :
    (finishDecision cfg input decision).adaptive = decision.adaptive ∧
      (finishDecision cfg input decision).recommendedTargetID = decision.recommendedTargetID ∧
      (finishDecision cfg input decision).adaptiveScore = decision.adaptiveScore := by
  rw [finishDecision]
  dsimp only
  split
  · exact ⟨rfl, rfl, rfl⟩
  · exact ⟨rfl, rfl, rfl⟩

/-- **What `evaluateLocked` can do.** -/
theorem evaluateLocked_cases (m : Manager F) (u : Unicode) (input : Input F) (dryRun : Bool)
    (now later : Int) :
    ((m.evaluateLocked u input dryRun now later).2.adaptive = false ∧
        Unmoved m (m.evaluateLocked u input dryRun now later).1) ∨
      ((m.evaluateLocked u input dryRun now later).2.adaptive = true ∧
        Picked m (m.evaluateLocked u input dryRun now later).1 input later
          (m.evaluateLocked u input dryRun now later).2.recommendedTargetID
          (m.evaluateLocked u input dryRun now later).2.adaptiveScore) := by
  rw [evaluateLocked]
  dsimp only
  split
  · exact .inl ⟨rfl, rfl, rfl, rfl, rfl, rfl⟩
  · have hrules := @decideRules_adaptive _ u input m.config dryRun
      (opened { m with nextID := m.nextID + 1 } input dryRun now)
    obtain ⟨hadaptive, htarget, hscore⟩ := @finishDecision_rest _ input m.config
      (decideAdaptive { m with nextID := m.nextID + 1 } input dryRun later
        (decideRules u m.config input dryRun
          (opened { m with nextID := m.nextID + 1 } input dryRun now))).2
    rw [record]
    dsimp only
    rw [hadaptive, htarget, hscore]
    obtain ⟨hnone, h⟩ | ⟨hsome, h⟩ := decideAdaptive_cases { m with nextID := m.nextID + 1 } input
      dryRun later hrules
    · exact .inl ⟨hnone, h.config, h.lastTargetID, h.lastScore, h.lastAt, h.switches⟩
    · exact .inr ⟨hsome, h.config, h.found, h.target_eq, h.score_eq, h.lastTargetID, h.lastScore,
        h.kept, h.switched⟩

/-- **What a live `Evaluate` can do.** -/
theorem evaluate_cases (m : Manager F) (u : Unicode) (input : Input F) (now later : Int) :
    ((m.evaluate u input false now later).2.adaptive = false ∧
        Unmoved m (m.evaluate u input false now later).1) ∨
      ((m.evaluate u input false now later).2.adaptive = true ∧
        Picked m (m.evaluate u input false now later).1 input later
          (m.evaluate u input false now later).2.recommendedTargetID
          (m.evaluate u input false now later).2.adaptiveScore) :=
  evaluateLocked_cases m u input false now later

end Manager

end RelayLifeline.Policy
