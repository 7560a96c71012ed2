import RelayLifeline.Clock
import RelayLifeline.Policy.Manager

/-!
# Shadow traffic

A request that the shadow plan has picked is sent a second time, to another
target, where the budget of the hour and the limit on concurrent ones leave room
for it. A lease stands for the request till it is completed, which may be in
another hour than it was accepted in, and may happen more than once.
-/

namespace RelayLifeline.Policy

variable {F : Type} [Float64 F]

namespace Manager

/-- The sum of two `int64`. -/
abbrev addMicros (a b : Int) : Int := (a + b).bmod (2 ^ 64)

def skipShadow (m : Manager F) : Manager F := { m with shadowSkipped := m.shadowSkipped + 1 }

/-- The counters begin again where the window is another one. -/
def openShadowWindow (m : Manager F) (window : Int) : Manager F :=
  if m.shadowWindow = window then m
  else { m with shadowWindow := window, shadowWindowRequests := 0, shadowWindowCostMicros := 0 }

/-- The budgets of the hour and the concurrent requests leave no room. -/
def shadowFull (m : Manager F) : Bool :=
  m.config.shadow.maxConcurrent ≤ m.shadowActive ||
    m.config.shadow.requestBudgetPerHour ≤ m.shadowWindowRequests ||
    m.config.shadow.costBudgetMicrosPerHour <
      addMicros m.shadowWindowCostMicros m.config.shadow.costReservationMicros

def sendShadow (m : Manager F) : Manager F :=
  { m with
    shadowActive := m.shadowActive + 1
    shadowSent := m.shadowSent + 1
    shadowWindowRequests := m.shadowWindowRequests + 1
    shadowWindowCostMicros :=
      addMicros m.shadowWindowCostMicros m.config.shadow.costReservationMicros }

/-- `AcquireShadow`, and whether it hands out a lease. -/
def acquireShadow (m : Manager F) (decision : Decision F) (now : Int) : Manager F × Bool :=
  if !decision.shadowEligible || !m.config.shadow.enabled then (m.skipShadow, false)
  else
    let m := m.openShadowWindow (truncateHour now)
    if m.shadowFull then (m.skipShadow, false) else (m.sendShadow, true)

/-- What the first `Complete` of a lease does. -/
def completeShadow (m : Manager F) (success : Bool) : Manager F :=
  { m with
    shadowActive := if 0 < m.shadowActive then m.shadowActive - 1 else m.shadowActive
    shadowFailed := if success then m.shadowFailed else m.shadowFailed + 1 }

def recordShadowCost (m : Manager F) (costMicros : Int) : Manager F :=
  if costMicros ≤ 0 then m
  else { m with shadowActualCostMicros := addMicros m.shadowActualCostMicros costMicros }

end Manager

/-- A lease and the hour it was accepted in, which the source does not remember. -/
structure ShadowLease where
  window : Int
  done : Bool := false
  deriving DecidableEq

/-- A manager, every lease it has handed out, in the order it did, and the
clock it reads. -/
structure ShadowTraffic (F : Type) where
  manager : Manager F
  leases : List ShadowLease := []
  clock : Int

/-- What may happen under one configuration. A lease is named by its place
among all of them. -/
inductive ShadowOp (F : Type) where
  | tick (elapsed : Nat)
  | acquire (decision : Decision F)
  | complete (lease : Nat) (success : Bool)
  | skip
  | recordCost (costMicros : Int)
  | evaluate (input : Input F) (dryRun : Bool) (elapsed : Nat)
  | stopAdaptive (reason : String)
  | resumeAdaptive

namespace ShadowTraffic

def start (cfg : Config F) (clock : Int) : ShadowTraffic F :=
  { manager := Manager.new cfg, clock := clock }

/-- `AcquireShadow`. -/
def acquire (t : ShadowTraffic F) (decision : Decision F) : ShadowTraffic F :=
  let acquired := t.manager.acquireShadow decision t.clock
  { t with
    manager := acquired.1
    leases := if acquired.2 then t.leases ++ [⟨truncateHour t.clock, false⟩] else t.leases }

/-- `Complete`, which does something once. A refused request has no lease. -/
def complete (t : ShadowTraffic F) (lease : Nat) (success : Bool) : ShadowTraffic F :=
  match t.leases[lease]? with
  | none => t
  | some held =>
      if held.done then t
      else
        { t with
          manager := t.manager.completeShadow success
          leases := t.leases.set lease { held with done := true } }

def step (u : Unicode) (t : ShadowTraffic F) : ShadowOp F → ShadowTraffic F
  | .tick elapsed => { t with clock := t.clock + elapsed }
  | .acquire decision => t.acquire decision
  | .complete lease success => t.complete lease success
  | .skip => { t with manager := t.manager.skipShadow }
  | .recordCost costMicros => { t with manager := t.manager.recordShadowCost costMicros }
  | .evaluate input dryRun elapsed =>
      { t with
        manager := (t.manager.evaluate u input dryRun t.clock (t.clock + elapsed)).1
        clock := t.clock + elapsed }
  | .stopAdaptive reason => { t with manager := t.manager.stopAdaptive reason }
  | .resumeAdaptive => { t with manager := t.manager.resumeAdaptive }

def run (u : Unicode) (t : ShadowTraffic F) (ops : List (ShadowOp F)) : ShadowTraffic F :=
  ops.foldl (step u) t

/-- The leases that are not completed. -/
def outstanding (t : ShadowTraffic F) : Nat := t.leases.countP fun lease => !lease.done

/-- The leases accepted in an hour. -/
def accepted (t : ShadowTraffic F) (window : Int) : Nat :=
  t.leases.countP fun lease => lease.window = window

end ShadowTraffic

end RelayLifeline.Policy
