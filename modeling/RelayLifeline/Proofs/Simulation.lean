import RelayLifeline.Policy.Manager

/-!
# A simulated decision

A dry run is evaluated on a copy of the manager that leaves the counters and the
recent decisions behind. Nothing else is missing from it, and the dry run itself
only keeps the decision from being enforced, so the copy decides what the
manager would.
-/

namespace RelayLifeline.Policy

variable {F : Type} [Float64 F]

/-- The decision as a dry run gives it. -/
def Decision.simulated (decision : Decision F) : Decision F :=
  { decision with dryRun := true, enforced := false, targetID := "" }

namespace Manager

variable {u : Unicode} {m : Manager F} {input : Input F}

/-- The copy a dry run is made on. -/
def simulation (m : Manager F) : Manager F where
  config := cloneConfig m.config
  nextID := m.nextID
  adaptiveStopped := m.adaptiveStopped
  adaptiveStopReason := m.adaptiveStopReason
  adaptiveSwitches := m.adaptiveSwitches
  adaptiveLastTargetID := m.adaptiveLastTargetID
  adaptiveLastScore := m.adaptiveLastScore
  adaptiveLastAt := m.adaptiveLastAt

/-! ## The decision, step by step -/

omit [Float64 F] in
theorem firstMatch_cloneConfig (cfg : Config F) :
    firstMatch u (cloneConfig cfg) input = firstMatch u cfg input := by
  rw [firstMatch, firstMatch]
  simp only [cloneConfig, cloneRules_getD]

omit [Float64 F] in
theorem releaseSelected_cloneConfig (cfg : Config F) :
    releaseSelected (cloneConfig cfg) input = releaseSelected cfg input := rfl

omit [Float64 F] in
theorem decideRules_simulated (cfg : Config F) (decision : Decision F) :
    decideRules u (cloneConfig cfg) input true decision.simulated =
      (decideRules u cfg input false decision).simulated := by
  rw [decideRules, decideRules, firstMatch_cloneConfig]
  have hstage : (cloneConfig cfg).releaseStage = cfg.releaseStage := rfl
  simp only [hstage, releaseSelected_cloneConfig, Bool.not_true, Bool.and_false, Bool.false_and]
  by_cases hrelease : cfg.releaseStage = "draft" ∨ cfg.releaseStage = "shadow"
  · simp only [if_pos hrelease]
    cases firstMatch u cfg input with
    | none => rfl
    | some rule => rfl
  · simp only [if_neg hrelease]
    cases firstMatch u cfg input with
    | none => rfl
    | some rule => rfl

/-- The copy has the whole of what adaptive routing goes by. -/
theorem adaptiveTarget_simulation (cfg : Adaptive F) (now : Int) :
    (m.simulation.adaptiveTarget cfg input now).2 = (m.adaptiveTarget cfg input now).2 := by
  have hstopped : m.simulation.adaptiveStopped = m.adaptiveStopped := rfl
  have hcooled : m.simulation.cooled cfg input now = m.cooled cfg input now := rfl
  simp only [adaptiveTarget, hstopped, hcooled]
  split
  · rfl
  · split
    · rfl
    · split
      · rfl
      · rfl

omit [Float64 F] in
theorem route_simulated (cfg : Config F) (decision : Decision F)
    (target reason explanation : String) :
    route (cloneConfig cfg) input true decision.simulated target reason explanation =
      (route cfg input false decision target reason explanation).simulated := by
  simp only [route, Decision.simulated, Bool.not_true, Bool.and_false, Bool.false_and]
  rfl

theorem decideAdaptive_simulated (now : Int) (decision : Decision F) :
    (m.simulation.decideAdaptive input true now decision.simulated).2 =
      (m.decideAdaptive input false now decision).2.simulated := by
  have htarget : (m.simulation.adaptiveTarget m.simulation.config.adaptive input now).2 =
      (m.adaptiveTarget m.config.adaptive input now).2 :=
    adaptiveTarget_simulation m.config.adaptive now
  have henabled : m.simulation.config.adaptive.enabled = m.config.adaptive.enabled := rfl
  have hfallback : fallbackTarget m.simulation.config.adaptive input =
      fallbackTarget m.config.adaptive input := rfl
  have hasked : (decision.simulated.recommendedTargetID = "" && !decision.simulated.denied) =
      (decision.recommendedTargetID = "" && !decision.denied) := rfl
  have hroute : ∀ target reason explanation,
      route m.simulation.config input true decision.simulated target reason explanation =
        (route m.config input false decision target reason explanation).simulated :=
    route_simulated m.config decision
  simp only [decideAdaptive, hasked, htarget, henabled, hfallback, hroute]
  by_cases hundecided : (decision.recommendedTargetID = "" && !decision.denied) = true
  · simp only [if_pos hundecided]
    split
    · rfl
    · split
      · split
        · rfl
        · rfl
      · rfl
  · simp only [if_neg hundecided]

omit [Float64 F] in
theorem finishDecision_simulated (cfg : Config F) (decision : Decision F) :
    finishDecision (cloneConfig cfg) input decision.simulated =
      (finishDecision cfg input decision).simulated := by
  have hcanary : ((cloneConfig cfg).releaseStage = "canary" ∧
      decision.simulated.canarySelected = false) ↔
      (cfg.releaseStage = "canary" ∧ decision.canarySelected = false) := Iff.rfl
  rw [finishDecision, finishDecision]
  simp only [hcanary]
  split
  · rfl
  · rfl

theorem evaluateLocked_simulation (now later : Int) :
    (m.simulation.evaluateLocked u input true now later).2 =
      (m.evaluateLocked u input false now later).2.simulated := by
  have henabled : m.simulation.config.enabled = m.config.enabled := rfl
  simp only [evaluateLocked, henabled]
  split
  · rfl
  · show finishDecision (cloneConfig m.config) input
        ((simulation { m with nextID := m.nextID + 1 }).decideAdaptive input true later
          (decideRules u (cloneConfig m.config) input true
            (opened { m with nextID := m.nextID + 1 } input false now).simulated)).2 = _
    rw [decideRules_simulated, decideAdaptive_simulated, finishDecision_simulated]
    rfl

/-! ## A simulation is faithful and harmless -/

/-- A dry run leaves the manager as it is, enforces nothing and names no target.
Otherwise it decides what the manager would, asked for the same at that time. -/
theorem evaluate_dryRun (m : Manager F) (u : Unicode) (input : Input F) (now later : Int) :
    let simulated := m.evaluate u input true now later
    let decided := (m.evaluate u input false now later).2
    simulated.1 = m ∧ simulated.2.enforced = false ∧ simulated.2.targetID = "" ∧
      simulated.2 = { decided with dryRun := true, enforced := false, targetID := "" } := by
  intro simulated decided
  have hsame : simulated.2 = decided.simulated := evaluateLocked_simulation now later
  refine ⟨rfl, ?_, ?_, hsame⟩
  · rw [hsame]
    rfl
  · rw [hsame]
    rfl

end Manager

end RelayLifeline.Policy
