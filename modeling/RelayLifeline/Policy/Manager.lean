import RelayLifeline.Policy.Config

/-!
# Traffic decisions

The policy manager decides of each request whether a rule matches it and, where
none names a target, whether adaptive routing picks one. Adaptive routing stops
itself when the service does badly and can be stopped by an operator. What it
keeps for the leases of shadow traffic decides nothing here.
-/

namespace RelayLifeline.Policy

open Journal Float64

structure TargetSignal (F : Type) where
  id : String
  circuitState : String := "closed"
  observations : Int
  latencyMs : Int
  errorRate : F
  rateLimitRate : F
  costMicrosPer1K : Int
  capabilityScore : F

structure Input (F : Type) where
  method : String := ""
  path : String := ""
  model : String := ""
  principal : String := ""
  requestID : String := ""
  idempotencyKey : String := ""
  bodyBytes : Int := 0
  sloHealthy : Bool
  errorBudgetRemaining : F
  errorBudgetBurnRate : F
  failureRate : F
  targets : List (TargetSignal F) := []

structure Decision (F : Type) where
  id : Nat
  evaluatedAt : Int
  dryRun : Bool
  enabled : Bool
  mode : String
  matchedRuleID : String := ""
  action : String := "default"
  targetID : String := ""
  recommendedTargetID : String := ""
  denied : Bool := false
  enforced : Bool := false
  reason : String := "no_match"
  adaptive : Bool := false
  shadowTargetID : String := ""
  shadowEligible : Bool := false
  requestID : String := ""
  canarySelected : Bool := false
  fallback : Bool := false
  adaptiveScore : F
  explanation : List String := ["policy evaluated"]

structure Manager (F : Type) where
  config : Config F
  nextID : Nat := 0
  decisions : Nat := 0
  denied : Nat := 0
  routed : Nat := 0
  adaptive : Nat := 0
  shadow : Nat := 0
  shadowActive : Int := 0
  shadowSent : Nat := 0
  shadowSkipped : Nat := 0
  shadowFailed : Nat := 0
  shadowWindow : Int := 0
  shadowWindowRequests : Int := 0
  shadowWindowCostMicros : Int := 0
  shadowActualCostMicros : Int := 0
  recent : List (Decision F) := []
  adaptiveStopped : Bool := false
  adaptiveStopReason : String := ""
  adaptiveSwitches : Nat := 0
  adaptiveLastTargetID : String := ""
  adaptiveLastScore : F
  adaptiveLastAt : Int := 0

variable {F : Type} [Float64 F]

/-! ## What a rule and a sample say -/

def matchesRule (u : Unicode) (rule : Rule) (input : Input F) : Bool :=
  rule.enabled && (rule.method = "" || u.equalFold rule.method input.method) &&
    (rule.pathPrefix = "" || hasPrefix input.path rule.pathPrefix) &&
    (rule.model = "" || rule.model = input.model) &&
    (rule.principalPrefix = "" || hasPrefix input.principal rule.principalPrefix)

/-- The place of a request among a hundred, by which it is sampled. -/
def sample (input : Input F) : Nat :=
  let seed :=
    if input.requestID ≠ "" then input.requestID
    else input.method ++ "\x00" ++ input.path ++ "\x00" ++ input.model ++ "\x00" ++ input.principal
  (Sha256.word ((sha256 (utf8 seed)).take 4)).toNat % 100

/-- `releaseSelectedLocked`. -/
def releaseSelected (cfg : Config F) (input : Input F) : Bool :=
  if cfg.releaseStage = "draft" ∨ cfg.releaseStage = "shadow" then false
  else if cfg.releaseStage = "canary" then
    0 < cfg.canaryPercent && sample input < cfg.canaryPercent
  else true

def shadowPlan (cfg : Shadow) (input : Input F) : Bool × String :=
  if cfg.enabled && 0 < cfg.samplePercent && 0 < cfg.requestBudgetPerHour &&
      input.bodyBytes ≤ cfg.maxRequestBody &&
      (!cfg.requireIdempotency || input.idempotencyKey ≠ "") && input.sloHealthy &&
      sample input < cfg.samplePercent then (true, cfg.targetID)
  else (false, "")

def fallbackTarget (cfg : Adaptive F) (input : Input F) : String :=
  if cfg.fallbackTargetID = "" then ""
  else if input.targets.any fun target =>
      target.id = cfg.fallbackTargetID && target.circuitState = "closed" then cfg.fallbackTargetID
  else ""

/-! ## Adaptive routing -/

def clamp (value low high : F) : F :=
  if lt value low then low else if lt high value then high else value

/-- A target that adaptive routing may pick. -/
def TargetSignal.eligible (target : TargetSignal F) (cfg : Adaptive F) : Bool :=
  target.circuitState = "closed" && cfg.minimumObservations ≤ target.observations &&
    0 < target.latencyMs && target.latencyMs ≤ cfg.maximumLatencyMillis

/-- The four weights, scaled to add up to one. -/
def weights (cfg : Adaptive F) : F × F × F × F :=
  let sum := add (add (add cfg.latencyWeight cfg.errorRateWeight) cfg.costWeight)
    cfg.capabilityWeight
  if le sum zero then (ofDecimal 5 1, ofDecimal 3 1, ofDecimal 15 2, ofDecimal 5 2)
  else
    (div cfg.latencyWeight sum, div cfg.errorRateWeight sum, div cfg.costWeight sum,
      div cfg.capabilityWeight sum)

def score (cfg : Adaptive F) (target : TargetSignal F) : F :=
  let w := weights cfg
  let latency := div (ofInt target.latencyMs) (ofInt cfg.maximumLatencyMillis)
  let errorRate := clamp (add target.errorRate target.rateLimitRate) zero one
  let cost := clamp (div (ofInt target.costMicrosPer1K) (ofInt 100000)) zero one
  let capability := clamp target.capabilityScore zero one
  add (add (add (mul w.1 latency) (mul w.2.1 errorRate)) (mul w.2.2.1 cost))
    (mul w.2.2.2 (sub one capability))

/-- The loop over the targets. -/
def best (cfg : Adaptive F) (targets : List (TargetSignal F)) : String × F :=
  targets.foldl (fun found target =>
    if target.eligible cfg then
      if found.1 = "" || lt (score cfg target) found.2 ||
          (eq (score cfg target) found.2 && target.id < found.1) then
        (target.id, score cfg target)
      else found
    else found) ("", zero)

namespace Manager

def new (cfg : Config F) : Manager F :=
  { config := cloneConfig cfg, adaptiveLastScore := zero }

/-- A guard stops adaptive routing. -/
def guardStop (m : Manager F) (reason : String) : Manager F :=
  { m with adaptiveStopped := true, adaptiveStopReason := reason }

/-- The guard that stops adaptive routing, with the reason it gives for the
decision. -/
def guarded (cfg : Adaptive F) (input : Input F) : Option (String × String) :=
  if !input.sloHealthy || lt input.errorBudgetRemaining cfg.errorBudgetFloor then
    some ("slo_guard", "adaptive_slo_guarded")
  else if lt zero cfg.autoStopBurnRate && lt cfg.autoStopBurnRate input.errorBudgetBurnRate then
    some ("burn_rate_guard", "adaptive_auto_stopped")
  else if lt zero cfg.autoStopFailureRate && le cfg.autoStopFailureRate input.failureRate then
    some ("failure_rate_guard", "adaptive_auto_stopped")
  else none

/-- The target the cooldown keeps, or else the best one. -/
def cooled (m : Manager F) (cfg : Adaptive F) (input : Input F) (now : Int) (bestID : String) :
    String :=
  if m.adaptiveLastTargetID ≠ "" ∧ m.adaptiveLastTargetID ≠ bestID ∧ 0 < cfg.switchCooldown ∧
      now - m.adaptiveLastAt < cfg.switchCooldown ∧
      input.targets.any (fun target =>
        target.id = m.adaptiveLastTargetID && target.eligible cfg) then m.adaptiveLastTargetID
  else bestID

/-- `adaptiveTargetLocked`. -/
def adaptiveTarget (m : Manager F) (cfg : Adaptive F) (input : Input F) (now : Int) :
    Manager F × String × F × String :=
  if !cfg.enabled || m.adaptiveStopped then (m, "", zero, "adaptive_stopped")
  else
    match guarded cfg input with
    | some (stop, reason) => (m.guardStop stop, "", zero, reason)
    | none =>
        let found := best cfg input.targets
        if found.1 = "" then (m, "", zero, "adaptive_no_eligible_target")
        else
          let bestID := m.cooled cfg input now found.1
          let m :=
            if bestID ≠ m.adaptiveLastTargetID then
              { m with
                adaptiveSwitches :=
                  if m.adaptiveLastTargetID ≠ "" then m.adaptiveSwitches + 1
                  else m.adaptiveSwitches
                adaptiveLastTargetID := bestID
                adaptiveLastAt := now }
            else m
          ({ m with adaptiveLastScore := found.2 }, bestID, found.2, "adaptive_scored")

def auditLimit : Nat := 500

/-- `recordLocked`. -/
def record (m : Manager F) (decision : Decision F) : Manager F × Decision F :=
  ({ m with
      decisions := m.decisions + 1
      denied := if decision.denied then m.denied + 1 else m.denied
      routed := if decision.targetID ≠ "" then m.routed + 1 else m.routed
      adaptive := if decision.adaptive then m.adaptive + 1 else m.adaptive
      shadow := if decision.shadowEligible then m.shadow + 1 else m.shadow
      recent :=
        (m.recent ++ [decision]).drop ((m.recent ++ [decision]).length - auditLimit) },
    decision)

/-! ## A decision -/

/-- The decision before any rule is looked at. -/
def opened (m : Manager F) (input : Input F) (dryRun : Bool) (now : Int) : Decision F :=
  { id := m.nextID, evaluatedAt := now, dryRun := dryRun, enabled := m.config.enabled,
    mode := m.config.mode, requestID := input.requestID, adaptiveScore := zero }

/-- The first rule that matches, by priority. -/
def firstMatch (u : Unicode) (cfg : Config F) (input : Input F) : Option Rule :=
  ((cfg.rules.getD []).mergeSort fun left right => left.priority ≤ right.priority).find? fun rule =>
    matchesRule u rule input

/-- The decision of the rules. -/
def decideRules (u : Unicode) (cfg : Config F) (input : Input F) (dryRun : Bool)
    (decision : Decision F) : Decision F :=
  let decision :=
    if cfg.releaseStage = "draft" ∨ cfg.releaseStage = "shadow" then
      { decision with
        reason := "release_not_enforcing"
        explanation :=
          decision.explanation ++ ["release stage does not enforce client traffic"] }
    else decision
  match firstMatch u cfg input with
  | none => decision
  | some rule =>
      { decision with
        matchedRuleID := rule.id, action := rule.action, reason := "rule_match"
        explanation := decision.explanation ++ ["matched rule " ++ rule.id]
        recommendedTargetID := rule.targetID
        denied := rule.action = "deny"
        enforced := cfg.mode = "enforce" && !dryRun && releaseSelected cfg input
        canarySelected := releaseSelected cfg input }

/-- The target `target` of adaptive routing, for a decision no rule has made. -/
def route (cfg : Config F) (input : Input F) (dryRun : Bool) (decision : Decision F)
    (target reason explanation : String) : Decision F :=
  { decision with
    action := "route", recommendedTargetID := target, reason := reason
    enforced := cfg.mode = "enforce" && !dryRun && releaseSelected cfg input
    canarySelected := releaseSelected cfg input
    explanation := decision.explanation ++ [explanation] }

/-- The decision of adaptive routing and of its fallback. -/
def decideAdaptive (m : Manager F) (input : Input F) (dryRun : Bool) (now : Int)
    (decision : Decision F) : Manager F × Decision F :=
  let cfg := m.config
  if decision.recommendedTargetID = "" && !decision.denied then
    let adapted := m.adaptiveTarget cfg.adaptive input now
    if adapted.2.1 ≠ "" then
      (adapted.1,
        { route cfg input dryRun decision adapted.2.1 adapted.2.2.2
            ("adaptive score selected " ++ adapted.2.1) with
          adaptive := true, adaptiveScore := adapted.2.2.1 })
    else if cfg.adaptive.enabled then
      let fallback := fallbackTarget cfg.adaptive input
      if fallback ≠ "" then
        (adapted.1,
          { route cfg input dryRun decision fallback "adaptive_fallback"
              "adaptive guard stopped; fallback target selected" with
            fallback := true })
      else (adapted.1, decision)
    else (adapted.1, decision)
  else (m, decision)

/-- The sample of a canary, the shadow plan and the target. -/
def finishDecision (cfg : Config F) (input : Input F) (decision : Decision F) : Decision F :=
  let decision :=
    if cfg.releaseStage = "canary" ∧ decision.canarySelected = false then
      { decision with
        enforced := false, reason := "canary_not_selected"
        explanation := decision.explanation ++ ["request was outside the canary sample"] }
    else decision
  let plan := shadowPlan cfg.shadow input
  { decision with
    shadowEligible := plan.1, shadowTargetID := plan.2
    targetID := if decision.enforced then decision.recommendedTargetID else decision.targetID }

/-- `evaluateLocked`. -/
def evaluateLocked (m : Manager F) (u : Unicode) (input : Input F) (dryRun : Bool)
    (now later : Int) : Manager F × Decision F :=
  let m := { m with nextID := m.nextID + 1 }
  let decision := m.opened input dryRun now
  if !m.config.enabled then
    m.record
      { decision with
        reason := "disabled"
        explanation := decision.explanation ++ ["traffic policy is disabled"] }
  else
    let decided := m.decideAdaptive input dryRun later
      (decideRules u m.config input dryRun decision)
    decided.1.record (finishDecision m.config input decided.2)

/-- `Evaluate`. A dry run is made on a copy, and the manager keeps nothing of
it. -/
def evaluate (m : Manager F) (u : Unicode) (input : Input F) (dryRun : Bool) (now later : Int) :
    Manager F × Decision F :=
  if dryRun then
    let copy : Manager F :=
      { config := cloneConfig m.config, nextID := m.nextID, adaptiveStopped := m.adaptiveStopped
        adaptiveStopReason := m.adaptiveStopReason, adaptiveSwitches := m.adaptiveSwitches
        adaptiveLastTargetID := m.adaptiveLastTargetID, adaptiveLastScore := m.adaptiveLastScore
        adaptiveLastAt := m.adaptiveLastAt }
    (m, (copy.evaluateLocked u input true now later).2)
  else m.evaluateLocked u input false now later

/-! ## Operators -/

def apply (m : Manager F) (cfg : Config F) : Manager F :=
  let changed := policyRevision m.config ≠ policyRevision cfg
  let m := { m with config := cloneConfig cfg }
  if changed then { m with adaptiveStopped := false, adaptiveStopReason := "" } else m

def stopAdaptive (m : Manager F) (reason : String) : Manager F :=
  { m with
    adaptiveStopped := true
    adaptiveStopReason := if trimSpace reason = "" then "operator_stop" else trimSpace reason }

def resumeAdaptive (m : Manager F) : Manager F :=
  { m with adaptiveStopped := false, adaptiveStopReason := "" }

inductive Op (F : Type) where
  | evaluate (input : Input F) (dryRun : Bool) (now later : Int)
  | apply (cfg : Config F)
  | stopAdaptive (reason : String)
  | resumeAdaptive

def step (u : Unicode) (m : Manager F) : Op F → Manager F
  | .evaluate input dryRun now later => (m.evaluate u input dryRun now later).1
  | .apply cfg => m.apply cfg
  | .stopAdaptive reason => m.stopAdaptive reason
  | .resumeAdaptive => m.resumeAdaptive

/-- What an `Evaluate` decides. -/
def decision? (u : Unicode) (m : Manager F) : Op F → Option (Decision F)
  | .evaluate input dryRun now later => some (m.evaluate u input dryRun now later).2
  | _ => none

def run (u : Unicode) (m : Manager F) (ops : List (Op F)) : Manager F := ops.foldl (step u) m

end Manager

end RelayLifeline.Policy
