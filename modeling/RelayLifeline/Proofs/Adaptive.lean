import RelayLifeline.Lib.Trace
import RelayLifeline.Policy.Effects

/-!
# An adaptive stop is sticky

A stop lives in one flag. Evaluation only ever sets it, `ResumeAdaptive` clears
it, and `Apply` clears it where the revision of the policy has changed. The
policy in the manager is a clone, whose rules are nil where there are none; so
a policy with an empty list of rules has another revision than the clone of
itself, and to apply it again clears the stop.
-/

namespace RelayLifeline.Policy

open Lib

variable {F : Type} [Float64 F]

namespace Manager

variable {u : Unicode} {m : Manager F} {input : Input F}

/-! ## Evaluation -/

/-- Adaptive routing that is stopped picks no target and stays as it is. -/
theorem adaptiveTarget_stopped (cfg : Adaptive F) (now : Int) (h : m.adaptiveStopped = true) :
    m.adaptiveTarget cfg input now = (m, "", Float64.zero, "adaptive_stopped") := by
  rw [adaptiveTarget, h, Bool.or_true, if_pos rfl]

theorem adaptiveTarget_config (cfg : Adaptive F) (now : Int) :
    (m.adaptiveTarget cfg input now).1.config = m.config := by
  simp only [adaptiveTarget]
  split
  · rfl
  · split
    · rfl
    · split
      · rfl
      · split
        · rfl
        · rfl

theorem decideAdaptive_stopped (input : Input F) (dryRun : Bool) (now : Int) (decision : Decision F)
    (h : m.adaptiveStopped = true) :
    (m.decideAdaptive input dryRun now decision).1 = m ∧
      (m.decideAdaptive input dryRun now decision).2.adaptive = decision.adaptive := by
  simp only [decideAdaptive, adaptiveTarget_stopped _ _ h]
  split
  · rw [if_neg (by simp)]
    split
    · split
      · exact ⟨rfl, rfl⟩
      · exact ⟨rfl, rfl⟩
    · exact ⟨rfl, rfl⟩
  · exact ⟨rfl, rfl⟩

theorem decideAdaptive_config (dryRun : Bool) (now : Int) (decision : Decision F) :
    (m.decideAdaptive input dryRun now decision).1.config = m.config := by
  have hconfig : (m.adaptiveTarget m.config.adaptive input now).1.config = m.config :=
    adaptiveTarget_config m.config.adaptive now
  simp only [decideAdaptive]
  split
  · split
    · exact hconfig
    · split
      · split
        · exact hconfig
        · exact hconfig
      · exact hconfig
  · rfl

/-- A manager that is stopped stays so over an evaluation, and what it decides
is not adaptive. -/
theorem evaluateLocked_stopped (dryRun : Bool) (now later : Int) (h : m.adaptiveStopped = true) :
    (m.evaluateLocked u input dryRun now later).1.adaptiveStopped = true ∧
      (m.evaluateLocked u input dryRun now later).2.adaptive = false := by
  simp only [evaluateLocked]
  split
  · exact ⟨h, rfl⟩
  · obtain ⟨hkept, hadaptive⟩ := decideAdaptive_stopped (m := { m with nextID := m.nextID + 1 })
      input dryRun later
      (decideRules u m.config input dryRun
        (opened { m with nextID := m.nextID + 1 } input dryRun now)) h
    refine ⟨?_, ?_⟩
    · simp only [record, hkept]
      exact h
    · simp only [record, (finishDecision_rest _ _).1, hadaptive, decideRules_adaptive]
      rfl

theorem evaluateLocked_config (dryRun : Bool) (now later : Int) :
    (m.evaluateLocked u input dryRun now later).1.config = m.config := by
  simp only [evaluateLocked]
  split
  · rfl
  · exact decideAdaptive_config dryRun later _

theorem evaluate_stopped (dryRun : Bool) (now later : Int) (h : m.adaptiveStopped = true) :
    (m.evaluate u input dryRun now later).1.adaptiveStopped = true ∧
      (m.evaluate u input dryRun now later).2.adaptive = false := by
  simp only [evaluate]
  split
  · refine ⟨h, (evaluateLocked_stopped true now later ?_).2⟩
    exact h
  · exact evaluateLocked_stopped false now later h

theorem evaluate_config (dryRun : Bool) (now later : Int) :
    (m.evaluate u input dryRun now later).1.config = m.config := by
  simp only [evaluate]
  split
  · rfl
  · exact evaluateLocked_config false now later

/-! ## The policy that is applied -/

/-- The policy in a manager is a clone. -/
def Cloned (m : Manager F) : Prop := m.config.rules ≠ some []

theorem cloned_new (cfg : Config F) : (new cfg).Cloned := cloneRules_ne_empty cfg.rules

theorem Cloned.step (h : m.Cloned) (op : Op F) : (m.step u op).Cloned := by
  cases op with
  | evaluate input dryRun now later =>
      show (m.evaluate u input dryRun now later).1.config.rules ≠ some []
      rw [evaluate_config]
      exact h
  | apply cfg =>
      simp only [Manager.step, apply, Cloned]
      split
      · exact cloneRules_ne_empty cfg.rules
      · exact cloneRules_ne_empty cfg.rules
  | stopAdaptive reason => exact h
  | resumeAdaptive => exact h

omit [Float64 F] in
/-- A policy that is the manager's own, and has no empty list for its rules, is
equal to it. -/
theorem Cloned.eq_of_samePolicy (h : m.Cloned) {cfg : Config F} (hsame : SamePolicy cfg m.config)
    (hrules : cfg.rules ≠ some []) : cfg = m.config := by
  have hcfg : cloneConfig cfg = cfg := by simp only [cloneConfig, cloneRules_eq hrules]
  have hown : cloneConfig m.config = m.config := by simp only [cloneConfig, cloneRules_eq h]
  rw [← hcfg, hsame, hown]

/-! ## Runs -/

/-- Nothing that lifts a stop: no `ResumeAdaptive`, and only the policy there is
applied again. -/
def KeepsPolicy (m : Manager F) : Op F → Prop
  | .apply cfg => SamePolicy cfg m.config
  | .resumeAdaptive => False
  | _ => True

/-- No policy is applied with an empty list of rules where nil stands for
none. -/
def appliesNoEmptyList : Op F → Bool
  | .apply cfg => cfg.rules != some []
  | _ => true

theorem stopped_step {op : Op F} (hcloned : m.Cloned) (hstopped : m.adaptiveStopped = true)
    (hkeeps : m.KeepsPolicy op) (hlists : appliesNoEmptyList op = true) :
    (m.step u op).adaptiveStopped = true ∧
      ∀ decision ∈ m.decision? u op, decision.adaptive = false := by
  cases op with
  | evaluate input dryRun now later =>
      obtain ⟨hstays, hadaptive⟩ := evaluate_stopped dryRun now later hstopped
      exact ⟨hstays, by simpa [decision?] using hadaptive⟩
  | apply cfg =>
      have heq : cfg = m.config :=
        hcloned.eq_of_samePolicy hkeeps (by simpa [appliesNoEmptyList] using hlists)
      refine ⟨?_, by simp [decision?]⟩
      simp only [step, apply, heq, ne_eq, not_true_eq_false, if_false]
      exact hstopped
  | stopAdaptive reason => exact ⟨rfl, by simp [decision?]⟩
  | resumeAdaptive => exact hkeeps.elim

/-- Once adaptive routing is stopped, it stays so and no decision is adaptive,
where neither an operator resumes it nor another policy is applied, and no
policy is applied with an empty list for its rules. -/
theorem adaptive_stop_sticky {cfg : Config F} {before ops : List (Op F)}
    (hstopped : ((new cfg).run u before).adaptiveStopped = true)
    (hkeeps : Along (step u) KeepsPolicy ((new cfg).run u before) ops)
    (hlists : ∀ op ∈ ops, appliesNoEmptyList op = true) :
    (((new cfg).run u before).run u ops).adaptiveStopped = true ∧
      Along (step u) (fun m op => ∀ decision ∈ m.decision? u op, decision.adaptive = false)
        ((new cfg).run u before) ops := by
  have hcloned : ((new cfg).run u before).Cloned :=
    foldl_invariant (fun m op h => h.step op) (cloned_new cfg) before
  have hno : Along (step u) (fun _ op => appliesNoEmptyList op = true) ((new cfg).run u before)
      ops := Along.of_forall hlists
  have hmeets := hkeeps.and hno
  have hinvariant (m : Manager F) (op : Op F) (h : m.Cloned ∧ m.adaptiveStopped = true)
      (hmeet : m.KeepsPolicy op ∧ appliesNoEmptyList op = true) :
      (m.step u op).Cloned ∧ (m.step u op).adaptiveStopped = true :=
    ⟨h.1.step op, (stopped_step h.1 h.2 hmeet.1 hmeet.2).1⟩
  constructor
  · exact (Along.invariant (P := fun m => m.Cloned ∧ m.adaptiveStopped = true) hinvariant
      ⟨hcloned, hstopped⟩ hmeets).2
  · exact Along.of_invariant (P := fun m => m.Cloned ∧ m.adaptiveStopped = true) hinvariant
      (fun m op h hmeet => (stopped_step h.1 h.2 hmeet.1 hmeet.2).2) ⟨hcloned, hstopped⟩ hmeets

/-- A request to a service that does well and has one target. -/
def healthyInput : Input ℚ where
  sloHealthy := true
  errorBudgetRemaining := 1
  errorBudgetBurnRate := 0
  failureRate := 0
  targets :=
    [{ id := "relay", observations := 10, latencyMs := 100, errorRate := 0, rateLimitRate := 0
       costMicrosPer1K := 0, capabilityScore := 1 }]

theorem adaptive_stop_sticky_reapplied :
    (((new adaptivePolicy).run ascii [.stopAdaptive "alert"]).run ascii
        [.apply adaptivePolicy, .evaluate healthyInput false 0 0]).adaptiveStopped = true ∧
      Along (step ascii) (fun m op => ∀ decision ∈ m.decision? ascii op, decision.adaptive = false)
        ((new adaptivePolicy).run ascii [.stopAdaptive "alert"])
        [.apply adaptivePolicy, .evaluate healthyInput false 0 0] := by
  have hstopped :
      ((new adaptivePolicy).run ascii [.stopAdaptive "alert"]).adaptiveStopped = true := rfl
  have hsame : SamePolicy adaptivePolicy
      ((new adaptivePolicy).run ascii [.stopAdaptive "alert"]).config := rfl
  exact adaptive_stop_sticky hstopped ⟨hsame, trivial, trivial⟩
    (by simp [appliesNoEmptyList, adaptivePolicy])

theorem stop_cleared :
    let stopped := (new adaptivePolicy).run ascii [.stopAdaptive "alert"]
    let reloaded := stopped.step ascii (.apply { adaptivePolicy with rules := some [] })
    stopped.adaptiveStopped = true ∧
      stopped.KeepsPolicy (.apply { adaptivePolicy with rules := some [] }) ∧
      reloaded.adaptiveStopped = false ∧
      (reloaded.evaluate ascii healthyInput false 0 0).2.adaptive = true := by
  have hchanged : policyRevision adaptivePolicy ≠
      policyRevision { adaptivePolicy with rules := some [] } := by
    rw [revisions_adaptivePolicy.1, revisions_adaptivePolicy.2]
    decide
  have hreloaded : ((new adaptivePolicy).run ascii [.stopAdaptive "alert"]).step ascii
      (.apply { adaptivePolicy with rules := some [] }) = new adaptivePolicy :=
    if_pos hchanged
  refine ⟨rfl, rfl, ?_, ?_⟩
  · rw [hreloaded]
    rfl
  · rw [hreloaded]
    decide +kernel

end Manager

end RelayLifeline.Policy
