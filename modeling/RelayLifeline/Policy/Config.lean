import Mathlib.Algebra.Field.Rat
import RelayLifeline.Journal.DigestNat
import RelayLifeline.Journal.Texts
import RelayLifeline.Text

/-!
# Traffic policies

The traffic policy of the configuration, its JSON, and the revision that stands
for it: the first 16 digits of the SHA-256 of that JSON without the revision
itself. A slice may be nil or empty, and its JSON tells the two apart, so the
rules are an `Option` of a list.

The arithmetic of `float64` and the Unicode tables decide nothing here, and
what the code uses of them is a parameter.
-/

namespace RelayLifeline.Policy

open Journal

/-- What the code uses of `float64`. A number that JSON cannot hold has no
text. -/
class Float64 (F : Type) where
  ofDecimal : Int → Nat → F
  add : F → F → F
  sub : F → F → F
  mul : F → F → F
  div : F → F → F
  lt : F → F → Bool
  le : F → F → Bool
  eq : F → F → Bool
  json : F → Option String

/-- The functions of `strings` that need the Unicode tables. -/
structure Unicode where
  toUpper : String → String
  equalFold : String → String → Bool

structure Rule where
  id : String
  enabled : Bool := true
  priority : Int := 0
  method : String := ""
  pathPrefix : String := ""
  model : String := ""
  principalPrefix : String := ""
  action : String := "route"
  targetID : String := ""
  deriving DecidableEq

structure Shadow where
  enabled : Bool := false
  targetID : String := ""
  samplePercent : Int := 0
  maxConcurrent : Int := 1
  maxRequestBody : Int := 1048576
  requestBudgetPerHour : Int := 0
  costBudgetMicrosPerHour : Int := 0
  costReservationMicros : Int := 1000
  requireIdempotency : Bool := true
  deriving DecidableEq

structure Adaptive (F : Type) where
  enabled : Bool := false
  errorBudgetFloor : F
  minimumObservations : Int := 10
  maximumLatencyMillis : Int := 30000
  latencyWeight : F
  errorRateWeight : F
  costWeight : F
  capabilityWeight : F
  switchCooldown : Int := 120000000000
  fallbackTargetID : String := ""
  autoStopBurnRate : F
  autoStopFailureRate : F

/-- `TrafficPolicyConfig`. -/
structure Config (F : Type) where
  enabled : Bool := false
  mode : String := "observe"
  releaseStage : String := "full"
  canaryPercent : Int := 0
  revision : String := ""
  rules : Option (List Rule) := none
  shadow : Shadow := {}
  adaptive : Adaptive F

variable {F : Type} [Float64 F]

/-! ## JSON -/

def jsonBool (b : Bool) : String := if b then "true" else "false"

/-- `FormatByteSize`. -/
def formatByteSize (value : Int) : String :=
  if 1073741824 ≤ value ∧ value % 1073741824 = 0 then toString (value / 1073741824) ++ "GiB"
  else if 1048576 ≤ value ∧ value % 1048576 = 0 then toString (value / 1048576) ++ "MiB"
  else if 1024 ≤ value ∧ value % 1024 = 0 then toString (value / 1024) ++ "KiB"
  else toString value ++ "B"

/-- `n` units of `10 ^ places`, without the zeros at the end of the fraction. -/
def decimal (n places : Nat) : String :=
  let fraction := ((padded places (n % 10 ^ places)).toList.reverse.dropWhile (· = '0')).reverse
  toString (n / 10 ^ places) ++
    (if places = 0 ∨ fraction = [] then "" else String.ofList ('.' :: fraction))

/-- `time.Duration.String`. -/
def durationString (d : Int) : String :=
  let n := d.natAbs
  let text :=
    if n = 0 then "0s"
    else if n < 1000 then toString n ++ "ns"
    else if n < 1000000 then decimal n 3 ++ "µs"
    else if n < 1000000000 then decimal n 6 ++ "ms"
    else
      let minutes := n / 60000000000
      let seconds := decimal (n % 60000000000) 9 ++ "s"
      if minutes = 0 then seconds
      else if minutes < 60 then toString minutes ++ "m" ++ seconds
      else toString (minutes / 60) ++ "h" ++ toString (minutes % 60) ++ "m" ++ seconds
  if d < 0 then "-" ++ text else text

example : durationString 120000000000 = "2m0s" ∧ durationString 1500000 = "1.5ms" := by
  decide +kernel

def Rule.json (rule : Rule) : String :=
  "\x7b\"id\":" ++ jsonString rule.id ++ ",\"enabled\":" ++ jsonBool rule.enabled ++
    ",\"priority\":" ++ toString rule.priority ++ ",\"method\":" ++ jsonString rule.method ++
    ",\"pathPrefix\":" ++ jsonString rule.pathPrefix ++ ",\"model\":" ++ jsonString rule.model ++
    ",\"principalPrefix\":" ++ jsonString rule.principalPrefix ++
    ",\"action\":" ++ jsonString rule.action ++
    ",\"targetId\":" ++ jsonString rule.targetID ++ "\x7d"

def jsonRules : Option (List Rule) → String
  | none => "null"
  | some rules => "[" ++ ",".intercalate (rules.map Rule.json) ++ "]"

def Shadow.json (shadow : Shadow) : String :=
  "\x7b\"enabled\":" ++ jsonBool shadow.enabled ++
    ",\"targetId\":" ++ jsonString shadow.targetID ++
    ",\"samplePercent\":" ++ toString shadow.samplePercent ++
    ",\"maxConcurrent\":" ++ toString shadow.maxConcurrent ++
    ",\"maxRequestBody\":\"" ++ formatByteSize shadow.maxRequestBody ++
    "\",\"requestBudgetPerHour\":" ++ toString shadow.requestBudgetPerHour ++
    ",\"costBudgetMicrosPerHour\":" ++ toString shadow.costBudgetMicrosPerHour ++
    ",\"costReservationMicros\":" ++ toString shadow.costReservationMicros ++
    ",\"requireIdempotency\":" ++ jsonBool shadow.requireIdempotency ++ "\x7d"

def Adaptive.json (adaptive : Adaptive F) : Option String := do
  let errorBudgetFloor ← Float64.json adaptive.errorBudgetFloor
  let latencyWeight ← Float64.json adaptive.latencyWeight
  let errorRateWeight ← Float64.json adaptive.errorRateWeight
  let costWeight ← Float64.json adaptive.costWeight
  let capabilityWeight ← Float64.json adaptive.capabilityWeight
  let autoStopBurnRate ← Float64.json adaptive.autoStopBurnRate
  let autoStopFailureRate ← Float64.json adaptive.autoStopFailureRate
  some ("\x7b\"enabled\":" ++ jsonBool adaptive.enabled ++
    ",\"errorBudgetFloor\":" ++ errorBudgetFloor ++
    ",\"minimumObservations\":" ++ toString adaptive.minimumObservations ++
    ",\"maximumLatencyMilliseconds\":" ++ toString adaptive.maximumLatencyMillis ++
    ",\"latencyWeight\":" ++ latencyWeight ++ ",\"errorRateWeight\":" ++ errorRateWeight ++
    ",\"costWeight\":" ++ costWeight ++ ",\"capabilityWeight\":" ++ capabilityWeight ++
    ",\"switchCooldown\":\"" ++ durationString adaptive.switchCooldown ++
    "\",\"fallbackTargetId\":" ++ jsonString adaptive.fallbackTargetID ++
    ",\"autoStopBurnRate\":" ++ autoStopBurnRate ++
    ",\"autoStopFailureRate\":" ++ autoStopFailureRate ++ "\x7d")

/-- `json.Marshal(policy)`. -/
def Config.json (policy : Config F) : Option String := do
  let adaptive ← policy.adaptive.json
  some ("\x7b\"enabled\":" ++ jsonBool policy.enabled ++ ",\"mode\":" ++ jsonString policy.mode ++
    ",\"releaseStage\":" ++ jsonString policy.releaseStage ++
    ",\"canaryPercent\":" ++ toString policy.canaryPercent ++
    (if policy.revision = "" then "" else ",\"revision\":" ++ jsonString policy.revision) ++
    ",\"rules\":" ++ jsonRules policy.rules ++ ",\"shadow\":" ++ policy.shadow.json ++
    ",\"adaptive\":" ++ adaptive ++ "\x7d")

/-- `policyRevision`. The error of `json.Marshal` is dropped, and nothing is
hashed then. -/
def policyRevision (policy : Config F) : String :=
  let data := ({ policy with revision := "" } : Config F).json.getD ""
  String.ofList ((hex (sha256 (utf8 data))).toList.take 16)

/-- What `append([]TrafficPolicyRule(nil), rules...)` makes of a slice. -/
def cloneRules : Option (List Rule) → Option (List Rule)
  | none | some [] => none
  | some rules => some rules

/-- `cloneConfig`, which `clonePolicyConfig` does as well. -/
def cloneConfig (policy : Config F) : Config F := { policy with rules := cloneRules policy.rules }

/-- The numbers with a finite decimal expansion, for the policies that are
evaluated here. -/
instance : Float64 ℚ where
  ofDecimal n places := n / 10 ^ places
  add := (· + ·)
  sub := (· - ·)
  mul := (· * ·)
  div := (· / ·)
  lt x y := x < y
  le x y := x ≤ y
  eq x y := x = y
  json x :=
    if 10 ^ 17 % x.den = 0 then
      some ((if x < 0 then "-" else "") ++ decimal (x.num.natAbs * (10 ^ 17 / x.den)) 17)
    else none

/-! ## Validation -/

namespace Float64

def zero : F := ofDecimal 0 0
def one : F := ofDecimal 1 0
def ofInt (n : Int) : F := ofDecimal n 0

end Float64

open Float64

def hasPrefix (s start : String) : Bool := start.toList.isPrefixOf s.toList

def Rule.valid (u : Unicode) (rule : Rule) : Bool :=
  trimSpace rule.id ≠ "" && rule.id.utf8ByteSize ≤ 64 && 0 ≤ rule.priority &&
    (rule.method = "" || rule.method = u.toUpper rule.method) &&
    (rule.pathPrefix = "" || hasPrefix rule.pathPrefix "/") &&
    (rule.action = "route" || rule.action = "deny")

def Shadow.valid (targets : List String) (shadow : Shadow) : Bool :=
  0 ≤ shadow.samplePercent && shadow.samplePercent ≤ 100 && 1 ≤ shadow.maxConcurrent &&
    1024 ≤ shadow.maxRequestBody && 0 ≤ shadow.requestBudgetPerHour &&
    0 ≤ shadow.costBudgetMicrosPerHour && 0 ≤ shadow.costReservationMicros &&
    (!shadow.enabled ||
      targets.contains shadow.targetID && shadow.samplePercent ≠ 0 &&
        shadow.requestBudgetPerHour ≠ 0 && shadow.costBudgetMicrosPerHour ≠ 0 &&
        shadow.costReservationMicros ≠ 0)

def Adaptive.valid (targets : List String) (adaptive : Adaptive F) : Bool :=
  let weights := add (add (add adaptive.latencyWeight adaptive.errorRateWeight)
    adaptive.costWeight) adaptive.capabilityWeight
  !lt adaptive.errorBudgetFloor zero && !lt one adaptive.errorBudgetFloor &&
    1 ≤ adaptive.minimumObservations && 1 ≤ adaptive.maximumLatencyMillis &&
    0 ≤ adaptive.switchCooldown && !lt adaptive.autoStopBurnRate zero &&
    !lt adaptive.autoStopFailureRate zero && !lt one adaptive.autoStopFailureRate &&
    !le weights zero &&
    (adaptive.fallbackTargetID = "" || targets.contains adaptive.fallbackTargetID)

/-- `validateTrafficPolicy(c) == nil`, before targets of these names. -/
def Config.valid (u : Unicode) (targets : List String) (policy : Config F) : Bool :=
  let rules := policy.rules.getD []
  (policy.mode = "observe" || policy.mode = "enforce") &&
    (policy.releaseStage = "draft" || policy.releaseStage = "shadow" ||
      policy.releaseStage = "canary" || policy.releaseStage = "full") &&
    0 ≤ policy.canaryPercent && policy.canaryPercent ≤ 100 &&
    !(policy.releaseStage = "canary" && policy.canaryPercent = 0) &&
    rules.all (fun rule =>
      rule.valid u && (rule.action ≠ "route" || targets.contains rule.targetID)) &&
    (rules.map Rule.id).Nodup && policy.shadow.valid targets && policy.adaptive.valid targets

/-- `validateCandidate(policy) == nil`. -/
def validateCandidate (u : Unicode) (policy : Config F) : Bool :=
  let ids := ((policy.rules.getD []).map Rule.targetID ++ [policy.shadow.targetID]).filter (· ≠ "")
  policy.valid u (if ids = [] then ["primary"] else ids)

/-! ## Clones -/

theorem cloneRules_ne_empty (rules : Option (List Rule)) : cloneRules rules ≠ some [] := by
  match rules with
  | none | some [] | some (_ :: _) => simp [cloneRules]

@[simp] theorem cloneRules_getD (rules : Option (List Rule)) :
    (cloneRules rules).getD [] = rules.getD [] := by
  match rules with
  | none | some [] | some (_ :: _) => rfl

/-- A slice that is not empty, or is nil, is what its clone is. -/
theorem cloneRules_eq {rules : Option (List Rule)} (h : rules ≠ some []) :
    cloneRules rules = rules := by
  match rules with
  | none | some (_ :: _) => rfl
  | some [] => exact absurd rfl h

/-- The same policy: equal in every field, and the same rules in the same
order. -/
def SamePolicy (policy policy' : Config F) : Prop :=
  cloneConfig policy = cloneConfig policy'

/-! ## The revision of a policy without rules -/

theorem policyRevision_eq_nat (policy : Config F) :
    policyRevision policy =
      String.ofList ((hex (sha256Nat
        (({ policy with revision := "" } : Config F).json.getD "").toByteArray.data.toList)).toList.take
          16) := by
  rw [policyRevision, sha256_eq_nat, utf8_eq_bytes]

def ascii : Unicode := ⟨String.toUpper, fun s t => s.toUpper = t.toUpper⟩

/-- The default policy with adaptive routing switched on. -/
def adaptivePolicy : Config ℚ where
  enabled := true
  adaptive :=
    { enabled := true, errorBudgetFloor := 1 / 2, latencyWeight := 1 / 2, errorRateWeight := 3 / 10
      costWeight := 3 / 20, capabilityWeight := 1 / 20, autoStopBurnRate := 2
      autoStopFailureRate := 1 / 4 }

theorem revisions_adaptivePolicy :
    policyRevision adaptivePolicy = "0a341848d4de233d" ∧
      policyRevision { adaptivePolicy with rules := some [] } = "4ea8e5839bbc47b7" := by
  rw [policyRevision_eq_nat, policyRevision_eq_nat]
  constructor
  · decide +kernel
  · decide +kernel

end RelayLifeline.Policy
