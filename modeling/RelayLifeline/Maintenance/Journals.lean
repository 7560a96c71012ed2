import RelayLifeline.Incidents.Store
import RelayLifeline.Policy.Site
import RelayLifeline.Repeat.Manager

/-!
# The journals under maintenance

`main` opens the journals of the incidents, the continuous tasks and the policy
releases, compacts each of them, and only then has the managers replay them;
`maintainJournals` compacts them again every hour. No entity is protected from
these compactions. The process stops at any time, and one that does not come up
leaves the journals to the next start.

A `Log` is the file, and an hourly compaction writes the file anew from what is
in memory. The two hold the same lines as long as no append has failed behind
the line it wrote.
-/

namespace RelayLifeline.Maintenance

open Journal Lib

/-- The retentions of the configuration that the journals go by. -/
structure Retentions where
  incidents : Int
  persistence : Int

/-- A compaction of each of the three journals: the times, and how each goes. -/
structure Sweep where
  retentions : Retentions
  incidents : Int × Fate
  repeats : Int × Fate
  policies : Int × Fate

namespace Sweep

def incidentCutoff (s : Sweep) : Int := s.incidents.1 - s.retentions.incidents

def repeatCutoff (s : Sweep) : Int := s.repeats.1 - s.retentions.persistence

def policyCutoff (s : Sweep) : Int := s.policies.1 - s.retentions.persistence

end Sweep

/-- What a start of the process goes by. -/
structure Startup where
  sweep : Sweep
  policyRank : String → Nat
  reconciled : String → Int × Fate
  incidentRank : String → Nat
  pruning : Incidents.Pruning
  scheduling : Incidents.Scheduling
  repeatRank : String → Nat
  interrupted : String → Clock × Fate

/-- `Compact`, and whether it succeeds. It writes nothing where there is nothing
to remove; one that is `unacknowledged` has replaced the file and failed at the
anchor. -/
def compact {P : Type} (log : Log P) (cutoff : Int) (fate : Fate) : Log P × Bool :=
  let retained := Log.compact log.lines cutoff []
  if retained.length = log.lines.length then (log, true)
  else
    match fate with
    | .lost => (log, false)
    | .written => ({ log with lines := retained }, true)
    | .unacknowledged => ({ lines := retained, degraded := true }, false)

variable {F : Type} [Policy.Float64 F]

/-- The managers with their journals, and the releases that management calls
have prepared. Where the process does not run, a manager is what it was when it
last did. -/
structure World (F : Type) where
  site : Policy.Site F
  incidents : Incidents.Store
  repeats : Repeat.Service
  handed : List (Policy.Prepared F) := []

inductive Input (F : Type) where
  | incident (i : Incidents.Store.Input)
  | task (i : Repeat.Service.Input)
  | saveDraft (now : Int) (policy : Policy.Config F) (expectedRevision : String) (fate : Fate)
  | prepare (now : Int) (request : Policy.Request F) (actor : String)
  | prepareCommit (call : Nat) (answer : Int × Fate)
  | finalizeCommit (call : Nat) (answer : Int × Fate)
  | abortCommit (call : Nat) (reason : String) (answer : Int × Fate)
  | configure (policy : Policy.Config F)
  | maintain (now : Int) (retentions : Retentions) (incidents repeats policies : Fate)
  | start (s : Startup)

namespace World

/-! ## Compactions -/

def compactIncidents (w : World F) (s : Sweep) : World F × Bool :=
  match w.incidents.journal with
  | none => (w, true)
  | some log =>
      let compacted := compact log s.incidentCutoff s.incidents.2
      ({ w with incidents := { w.incidents with journal := some compacted.1 } }, compacted.2)

def compactRepeats (w : World F) (s : Sweep) : World F × Bool :=
  match w.repeats.manager.journal with
  | none => (w, true)
  | some log =>
      let compacted := compact log s.repeatCutoff s.repeats.2
      ({ w with
          repeats := { w.repeats with
            manager := { w.repeats.manager with journal := some compacted.1 } } },
        compacted.2)

def compactPolicies (w : World F) (s : Sweep) : World F × Bool :=
  let compacted := compact w.site.releases.ledger s.policyCutoff s.policies.2
  ({ w with
      site := { w.site with releases := { w.site.releases with ledger := compacted.1 } } },
    compacted.2)

/-- One round of `maintainJournals`, which logs what fails and goes on. -/
def maintain (w : World F) (s : Sweep) : World F :=
  (((w.compactIncidents s).1.compactRepeats s).1.compactPolicies s).1

/-! ## A start -/

/-- The files of the journals, opened again. -/
def reopen (w : World F) : World F :=
  { w with
    incidents := { w.incidents with
      journal := w.incidents.journal.map fun log => { lines := log.lines } }
    repeats := { w.repeats with
      manager := { w.repeats.manager with
        journal := w.repeats.manager.journal.map fun log => { lines := log.lines } } }
    site := { w.site with
      releases := { w.site.releases with ledger := { lines := w.site.releases.ledger.lines } } } }

/-- The compactions of `main`, which exits at one that fails. -/
def compactAll (w : World F) (s : Sweep) : World F × Bool :=
  let incidents := w.compactIncidents s
  if !incidents.2 then incidents
  else
    let repeats := incidents.1.compactRepeats s
    if !repeats.2 then repeats else repeats.1.compactPolicies s

/-- `main`, as far as these journals go. -/
def start (w : World F) (s : Startup) : World F :=
  let compacted := w.reopen.compactAll s.sweep
  let w := { compacted.1 with handed := [] }
  if !compacted.2 then { w with site := { w.site with running := false } }
  else
    let w := { w with site := w.site.restart s.policyRank s.reconciled }
    if !w.site.running then w
    else
      let w :=
        { w with
          incidents := .new w.incidents.journal s.incidentRank s.pruning s.scheduling }
      match w.repeats.manager.journal with
      | none => w
      | some log =>
          let restored := Repeat.Manager.new log s.repeatRank s.interrupted
          { w with repeats := { manager := restored.1 }, site := { w.site with running := restored.2 } }

/-! ## Runs -/

/-- One call of a management request that was prepared. -/
def settle (w : World F) (call : Nat) (f : Policy.Site F → Policy.Prepared F → Policy.Site F) :
    World F :=
  match w.handed[call]? with
  | none => w
  | some p => { w with site := f w.site p }

/-- What a process that runs does with an input. -/
def take (u : Policy.Unicode) (w : World F) : Input F → World F
  | .incident (.restart ..) | .start _ => w
  | .incident i => { w with incidents := w.incidents.step i }
  | .task i => { w with repeats := w.repeats.step i }
  | .saveDraft now policy expectedRevision fate =>
      { w with site := w.site.step u (.saveDraft now policy expectedRevision fate) }
  | .prepare now request actor =>
      match w.site.prepare u now actor request with
      | none => w
      | some p => { w with handed := w.handed ++ [p] }
  | .prepareCommit call answer => w.settle call fun site p => (site.prepareCommit p answer).1
  | .finalizeCommit call answer => w.settle call fun site p => (site.finalizeCommit p answer).1
  | .abortCommit call reason answer => w.settle call fun site p => site.abortCommit p reason answer
  | .configure policy => { w with site := { w.site with config := policy } }
  | .maintain now retentions incidents repeats policies =>
      w.maintain ⟨retentions, (now, incidents), (now, repeats), (now, policies)⟩

/-- A start stops the process that runs. -/
def step (u : Policy.Unicode) (w : World F) : Input F → World F
  | .start s => w.start s
  | i => if w.site.running then w.take u i else w

def run (u : Policy.Unicode) (w : World F) (inputs : List (Input F)) : World F :=
  inputs.foldl (step u) w

/-- Empty journals, before the first start. -/
def fresh (config : Policy.Config F) : World F where
  site := { config := config, running := false }
  incidents := { journal := some {} }
  repeats := { manager := { journal := some {} } }

end World

end RelayLifeline.Maintenance
