import RelayLifeline.Policy.Release

/-!
# Policy releases over the configuration file

A release changes two files. Its intent is appended to the release journal, the
policy goes into the configuration, and then the release is appended as
published; where that fails, the configuration is put back and the intent is
appended as aborted. The process may stop between any two of these, and a
restart loads the one file, replays the other and reconciles.
-/

namespace RelayLifeline.Policy

open Journal Lib

variable {F : Type} [Float64 F]

/-- What a management call asks to be released: a policy, or the draft where
there is none, or what was released under a revision once more. -/
inductive Request (F : Type) where
  | publish (policy : Option (Config F)) (draftRevision stage : String) (canaryPercent : Int)
  | rollback (policyRevision : String)

/-- A policy that is about to be released, and its record. -/
structure Prepared (F : Type) where
  policy : Config F
  record : ReleaseRecord F
  rollback : Bool

/-- How the durable steps of a release go: the time and the fate of its
appends, and whether the file takes the policy and takes the earlier one
back. -/
structure Answers where
  prepared : Int × Fate := (0, .written)
  updates : Bool := true
  finalized : Int × Fate := (0, .written)
  restores : Bool := true
  aborted : Int × Fate := (0, .written)

/-- `FindRevision`. -/
def ReleaseManager.findRevision (m : ReleaseManager F) (revision : String) :
    Option (ReleaseRecord F) :=
  m.history.reverse.find? fun record => record.revision = revision

/-- The `DraftRevision` of `Status`. -/
def ReleaseManager.draftRevision (m : ReleaseManager F) : String :=
  match m.draft with
  | none => ""
  | some draft => policyRevision (cloneConfig draft)

/-- The traffic policy of the configuration, which is the one in the file, and
the releases; and whether the process runs. -/
structure Site (F : Type) where
  config : Config F
  releases : Releases F := {}
  running : Bool := true

namespace Site

/-- What is loaded of a policy in the file: an absent list of rules is an empty
one. -/
def load (policy : Config F) : Config F := { policy with rules := some (policy.rules.getD []) }

/-- What `policyPublish` and `policyRollback` do before anything is durable;
none where they refuse. A policy in the request is decoded from JSON that gives
its size with a unit, as the program writes it. -/
def prepare (s : Site F) (u : Unicode) (now : Int) (actor : String) :
    Request F → Option (Prepared F)
  | .publish none draftRevision stage canaryPercent =>
      if draftRevision ≠ "" ∧ s.releases.manager.draftRevision ≠ draftRevision then none
      else
        match s.releases.preparePublish u now none stage canaryPercent actor with
        | .ok release => some ⟨release.1, release.2, false⟩
        | .error _ => none
  | .publish (some policy) _ stage canaryPercent => do
      let policy ← policy.readBack
      match s.releases.preparePublish u now (some policy) stage canaryPercent actor with
      | .ok release => some ⟨release.1, release.2, false⟩
      | .error _ => none
  | .rollback policyRevision => do
      let record ← s.releases.manager.findRevision policyRevision
      match Releases.prepareRollback u now record actor with
      | .ok release => some ⟨release.1, release.2, true⟩
      | .error _ => none

def prepareCommit (s : Site F) (p : Prepared F) (answer : Int × Fate) : Site F × Bool :=
  let committed := s.releases.prepareCommit answer.1 p.record p.rollback answer.2
  ({ s with releases := committed.1 }, committed.2)

def finalizeCommit (s : Site F) (p : Prepared F) (answer : Int × Fate) : Site F × Bool :=
  let committed := s.releases.finalizeCommit answer.1 p.record p.rollback answer.2
  ({ s with releases := committed.1 }, committed.2)

def abortCommit (s : Site F) (p : Prepared F) (reason : String) (answer : Int × Fate) : Site F :=
  { s with releases := (s.releases.abortCommit answer.1 p.record p.rollback reason answer.2).1 }

/-- The rest of `policyPublish` and `policyRollback`, as what is left after each
of their durable steps. -/
def durableSteps (s : Site F) (p : Prepared F) (a : Answers) : List (Site F) :=
  let prepared := s.prepareCommit p a.prepared
  if !prepared.2 then [prepared.1]
  else if !a.updates then
    [prepared.1, prepared.1.abortCommit p "config_update_failed" a.aborted]
  else
    let updated := { prepared.1 with config := p.policy }
    let finalized := updated.finalizeCommit p a.finalized
    if finalized.2 || !a.restores then [prepared.1, updated, finalized.1]
    else
      let restored := { finalized.1 with config := s.config }
      [prepared.1, updated, finalized.1, restored,
        restored.abortCommit p "audit_failed_compensated" a.aborted]

/-- A release of which these many durable steps are taken before the process
stops. -/
def release (s : Site F) (p : Prepared F) (a : Answers) (steps : Nat) : Site F :=
  let states := s.durableSteps p a
  { (states.take steps).getLastD s with running := states.length ≤ steps }

/-- The start of the process: `NewPersistentReleaseManager`, then `Reconcile` on
the loaded configuration. It does not come up where one of them fails. -/
def restart (s : Site F) (rank : String → Nat) (answers : String → Int × Fate) : Site F :=
  match ReleaseManager.replay s.releases.ledger.lines with
  | none => { s with running := false }
  | some manager =>
      let opened : Releases F := { manager := manager, ledger.lines := s.releases.ledger.lines }
      let reconciled := opened.reconcile (load s.config) rank answers
      { config := load s.config, releases := reconciled.1, running := reconciled.2 }

inductive Op (F : Type) where
  | saveDraft (now : Int) (policy : Config F) (expectedRevision : String) (fate : Fate)
  | release (now : Int) (request : Request F) (actor : String) (answers : Answers) (steps : Nat)
  | restart (rank : String → Nat) (answers : String → Int × Fate)

def step (u : Unicode) (s : Site F) : Op F → Site F
  | .saveDraft now policy expectedRevision fate =>
      match policy.readBack with
      | some policy =>
          if s.running then
            { s with releases := (s.releases.saveDraft u now policy expectedRevision fate).1 }
          else s
      | none => s
  | .release now request actor answers steps =>
      match s.prepare u now actor request with
      | some prepared => if s.running then s.release prepared answers steps else s
      | none => s
  | .restart rank answers => s.restart rank answers

def run (u : Unicode) (s : Site F) (ops : List (Op F)) : Site F := ops.foldl (step u) s

end Site

/-- Equal in all but the revision they are labelled with, which is computed from
the rest. -/
def SameContent (policy policy' : Config F) : Prop :=
  SamePolicy { policy with revision := "" } { policy' with revision := "" }

end RelayLifeline.Policy
