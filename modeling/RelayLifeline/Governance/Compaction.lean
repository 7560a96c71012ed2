import RelayLifeline.Governance.Effects

/-!
# Compaction

An hourly job drops from the usage ledger every entity whose newest entry is
older than a cutoff. The manager first writes a heartbeat for each reservation
it holds, so that the reservation is kept; but only where an attempt is still
unreleased.
-/

namespace RelayLifeline.Governance

open Lib

/-- How rewriting the ledger's file went: it was done, it failed before the
new file replaced the old one, or the anchor of the new chain could not be
written after that. -/
inductive Rewrite where
  | done
  | failed
  | unanchored
  deriving DecidableEq, Repr

inductive CompactionError where
  | ledgerUnavailable
  | rewrite
  deriving DecidableEq, Repr

namespace Ledger

/-- Some entry of the entity is not older than the cutoff. -/
def retains (ledger : Ledger) (cutoff : Int) (id : String) : Bool :=
  ledger.entries.any fun entry => entry.entityID = id ∧ cutoff ≤ entry.time

/-- `Store.Compact`, which is `CompactWithProtection` with nothing
protected. -/
def compact (ledger : Ledger) (cutoff : Int) (rewrite : Rewrite) :
    Ledger × Except CompactionError Nat :=
  let retained := ledger.entries.filter fun entry => ledger.retains cutoff entry.entityID
  let removed := ledger.entries.length - retained.length
  if removed = 0 then (ledger, .ok 0)
  else
    match rewrite with
    | .done => ({ ledger with entries := retained }, .ok removed)
    | .failed => (ledger, .error .rewrite)
    | .unanchored =>
        ({ ledger with
            entries := retained
            state := if ledger.state = .closed then .closed else .degraded }, .error .rewrite)

end Ledger

namespace Manager

/-- The heartbeat `Compact` writes for one reservation. In enforce mode a
heartbeat that cannot be written stops it. -/
def heartbeat (clk : Clock) (stamp : String → Int) (acc : Manager × Bool)
    (reservation : ReservationState) : Manager × Bool :=
  if acc.2 || reservation.allAttemptsReleased then acc
  else
    let appended := acc.1.append { clk with stamp := stamp reservation.id } reservation.id
      (.heartbeat { principal := reservation.principal, recordedAt := clk.now })
    (appended.1, !appended.2 && acc.1.enforcing)

/-- `Compact`. The manager's clock is read once; each heartbeat is stamped as
it is written. -/
def compact (m : Manager) (clk : Clock) (stamp : String → Int) (cutoff : Int)
    (rewrite : Rewrite) : Manager × Except CompactionError Nat :=
  if m.ledger.isNone then (m, .ok 0)
  else
    let beaten := m.reservations.items.foldl (heartbeat clk stamp) (m, false)
    if beaten.2 then (beaten.1, .error .ledgerUnavailable)
    else
      match beaten.1.ledger with
      | none => (beaten.1, .ok 0)
      | some ledger =>
          let compacted := ledger.compact cutoff rewrite
          ({ beaten.1 with ledger := some compacted.1 }, compacted.2)

end Manager

/-! ## Calls and compactions in turn -/

/-- What happens to a manager: a client's call, or the job's. -/
inductive Step where
  | call (op : Op)
  | compact (clk : Clock) (stamp : String → Int) (cutoff : Int) (rewrite : Rewrite)

namespace Step

/-- The calls among the steps. -/
def op? : Step → Option Op
  | .call op => some op
  | .compact .. => none

/-- The cutoffs of the compactions among the steps. -/
def cutoff? : Step → Option Int
  | .call _ => none
  | .compact _ _ cutoff _ => some cutoff

/-- The journal stamps an entry after the manager read its clock, a cutoff is
not in the future, and the anchor, too, is an append that succeeds. -/
def Timely : Step → Prop
  | .call op => op.clk.now ≤ op.clk.stamp
  | .compact clk stamp cutoff rewrite =>
      cutoff ≤ clk.now ∧ (∀ id, clk.now ≤ stamp id) ∧ rewrite ≠ .unanchored

end Step

namespace Manager

def step (m : Manager) : Step → Manager
  | .call op => m.perform op
  | .compact clk stamp cutoff rewrite => (m.compact clk stamp cutoff rewrite).1

def runSteps (m : Manager) (steps : List Step) : Manager := steps.foldl step m

/-- A binding, an attempt or a settlement is about to be written: the call's
arguments are in order, it asks for something the reservation does not have,
and the limits allow it. -/
def writes (m : Manager) (op : Op) : Bool :=
  match op.call with
  | .admitWithContext _ _ _ => false
  | .bindUpstream id upstream =>
      match m.reservations.get? id with
      | none => false
      | some reservation =>
          let upstream := trimSpace upstream
          !decide (upstream = "" ∨ upstream.utf8ByteSize > 128) &&
            reservation.upstream != upstream &&
            (m.bindingAmounts op.clk reservation (m.keysAt reservation upstream)).isOk
  | .beginAttempt id attemptID =>
      match m.reservations.get? id with
      | none => false
      | some reservation =>
          let attemptID := trimSpace attemptID
          !decide (attemptID = "" ∨ attemptID.utf8ByteSize > 128) &&
            (reservation.attempts.get? attemptID).isNone &&
            (m.attemptDecision reservation op.clk.window reservation.budgetKeys).allowed
  | .record id settlementID _ =>
      match m.reservations.get? id with
      | none => false
      | some reservation =>
          let settlementID := trimSpace settlementID
          !decide (settlementID = "" ∨ settlementID.utf8ByteSize > 128) &&
            (reservation.settlements.lookup settlementID).isNone &&
            ((reservation.attempts.get? settlementID).isSome ||
              (m.attemptDecision reservation op.clk.window reservation.budgetKeys).allowed)
  | .release _ => false

/-- The ledger still has an entry of the reservation a call writes about. -/
def Covered (m : Manager) : Step → Prop
  | .call op => m.writes op → ∃ entry ∈ m.entries, entry.entityID = op.call.id
  | .compact .. => True

instance (m : Manager) : ∀ step, Decidable (m.Covered step)
  | .call op => inferInstanceAs
      (Decidable (m.writes op = true → ∃ entry ∈ m.entries, entry.entityID = op.call.id))
  | .compact .. => .isTrue trivial

end Manager

end RelayLifeline.Governance
