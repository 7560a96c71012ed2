import RelayLifeline.Lib.Trace
import RelayLifeline.Registry.Calls
import RelayLifeline.Registry.Effects

/-!
# A skipped call has no effect

What an operator can do to a request is its control state: the two signals, the
policy, the resolution and the cancellation. `CancelChecked` and
`ResolveUncertain` write the timeline first and act then, so that a call they
skip has done nothing. The other three act first, and where the append after
that fails they answer that they were skipped.
-/

namespace RelayLifeline.Registry

open Lib Lifecycle Timeline

/-- What a call acts on a request by. -/
structure Control where
  retryNow : Bool
  policyChanged : Bool
  policy : Option RetryPolicy
  resolution : Option Resolution
  canceled : Bool

namespace Scene

variable {s : Scene} {now : Int} {persisted : Bool}

def control (s : Scene) : Control where
  retryNow := s.entry.retryNow
  policyChanged := s.entry.policyChanged
  policy := s.entry.retryPolicy
  resolution := s.entry.resolution
  canceled := s.canceled

/-- A move of the call leaves the control state as it finds it. -/
def KeepsControl (s : Scene) : Move → Prop
  | .call now persisted => (s.advance now persisted).control = s.control
  | .others _ _ => True

/-- An append that comes after the call has acted succeeds. -/
def logsAction (s : Scene) : Move → Bool
  | .call _ persisted =>
      match s.progress with
      | .logRetry _ | .logPolicy _ _ => persisted || s.entry.timeline.finished.isSome
      | _ => true
  | .others _ _ => true

end Scene

/-- The call has acted, or is about to with nothing left that could stop it. -/
def Progress.acted : Progress → Bool
  | .logRetry _ | .logPolicy _ _ | .signalPolicy _ | .sendCompensation _ | .cancel _
  | .returned (.ok _) => true
  | .called _ | .sendRetry _ | .returned (.error _) => false

namespace Scene

variable {s : Scene} {now : Int} {persisted : Bool}

theorem log_acted {event : Event} {next : Progress} (hnext : next.acted = true)
    (hlogs : (persisted || s.entry.timeline.finished.isSome) = true) :
    (s.log event persisted next).progress.acted = true := by
  have hadded : (s.entry.addEvent event persisted).2 = true := by
    simp only [Entry.addEvent, Record.add]
    split
    · rfl
    · next hopen => simp_all
  simp only [log, hadded, if_true]
  exact hnext

/-- A call that has acted and whose appends succeed is not skipped any more. -/
theorem acted_step {move : Move} (hacted : s.progress.acted = true)
    (hlogs : s.logsAction move = true) : (s.step move).progress.acted = true := by
  cases move with
  | others entry canceled => exact hacted
  | call now persisted =>
      simp only [step, advance]
      simp only [logsAction] at hlogs
      cases hprogress : s.progress with
      | called call => simp [hprogress, Progress.acted] at hacted
      | sendRetry state => simp [hprogress, Progress.acted] at hacted
      | logRetry state =>
          simp only [hprogress] at hlogs
          exact log_acted rfl hlogs
      | logPolicy state event =>
          simp only [hprogress] at hlogs
          refine log_acted ?_ hlogs
          split
          · rfl
          · rfl
      | signalPolicy state => rfl
      | sendCompensation state => rfl
      | cancel state => rfl
      | returned answer => simpa [hprogress] using hacted

/-- Going on with `next` is acting, and being skipped keeps what the section
kept. -/
theorem go_keeps_or_acted {answer : Entry × Except ActionReason State} {next : State → Progress}
    (hacted : ∀ state, (next state).acted = true)
    (hkept : ∀ reason, answer.2 = .error reason → ({ s with entry := answer.1 } : Scene).control = s.control) :
    (s.go answer next).control = s.control ∨ (s.go answer next).progress.acted = true := by
  obtain ⟨entry, answer⟩ := answer
  cases answer with
  | ok state => exact .inr (hacted state)
  | error reason => exact .inl (hkept reason rfl)

theorem control_recordEvent (s : Scene) (event : Event) (persisted : Bool) :
    ({ s with entry := (s.entry.recordEvent event persisted).1 } : Scene).control = s.control := by
  have halike := s.entry.recordEvent_alike event persisted
  simp only [control, Entry.retryPolicy_recordEvent, halike.retryNow, halike.policyChanged,
    halike.resolution]

/-- `CancelChecked` changes nothing before its cancellation. -/
theorem cancelChecked_keeps :
    ({ s with entry := (s.entry.cancelChecked persisted).1 } : Scene).control = s.control := by
  simp only [Entry.cancelChecked]
  split
  · rfl
  · split
    · rfl
    · split
      · exact control_recordEvent s _ persisted
      · rfl

theorem storeRetryPolicy_keeps {spec : RetryPolicySpec} {overwrite : Bool} {reason : ActionReason}
    (hskipped : (s.entry.storeRetryPolicy now spec overwrite).2 = .error reason) :
    ({ s with entry := (s.entry.storeRetryPolicy now spec overwrite).1 } : Scene).control = s.control := by
  simp only [Entry.storeRetryPolicy] at hskipped ⊢
  split at hskipped
  · next hinvalid => rw [if_pos hinvalid]
  · next hvalid =>
      rw [if_neg hvalid]
      split at hskipped
      · rfl
      · split
        · rfl
        · next hcapable =>
            rw [if_neg hcapable] at hskipped
            split
            · rfl
            · next hfree => rw [if_neg hfree] at hskipped; cases hskipped

theorem dropRetryPolicy_keeps {reason : ActionReason}
    (hskipped : s.entry.dropRetryPolicy.2 = .error reason) :
    ({ s with entry := s.entry.dropRetryPolicy.1 } : Scene).control = s.control := by
  simp only [Entry.dropRetryPolicy] at hskipped ⊢
  split at hskipped
  · rfl
  · split
    · rfl
    · next hcapable =>
        rw [if_neg hcapable] at hskipped
        split
        · rfl
        · next hset => rw [if_neg hset] at hskipped; cases hskipped

theorem resolveUncertain_keeps {resolution : Resolution} {reason : ActionReason}
    (hskipped : (s.entry.resolveUncertain now resolution persisted).2 = .error reason) :
    ({ s with entry := (s.entry.resolveUncertain now resolution persisted).1 } : Scene).control =
      s.control := by
  simp only [Entry.resolveUncertain] at hskipped ⊢
  split at hskipped
  · rfl
  · split
    · rfl
    · next huncertain =>
        rw [if_neg huncertain] at hskipped
        split
        · rfl
        · next hopen =>
            rw [if_neg hopen] at hskipped
            split
            · next hadded => rw [if_pos hadded] at hskipped; cases hskipped
            · exact control_recordEvent s _ persisted

/-- A move of a call that has not acted yet keeps the control state, or acts. -/
theorem keeps_or_acted (now : Int) (persisted : Bool) (hnot : s.progress.acted = false) :
    (s.advance now persisted).control = s.control ∨
      (s.advance now persisted).progress.acted = true := by
  simp only [advance]
  cases hprogress : s.progress with
  | called call =>
      cases call with
      | cancelChecked =>
          exact go_keeps_or_acted (fun _ => rfl) fun _ _ => cancelChecked_keeps
      | retryNowChecked =>
          simp only [go]
          left
          rfl
      | applyRetryPolicy spec overwrite =>
          exact go_keeps_or_acted (fun _ => rfl) fun _ hskipped => storeRetryPolicy_keeps hskipped
      | clearRetryPolicy =>
          exact go_keeps_or_acted (fun _ => rfl) fun _ hskipped => dropRetryPolicy_keeps hskipped
      | resolveUncertain resolution =>
          cases resolution with
          | none => exact .inl rfl
          | some resolution =>
              refine go_keeps_or_acted ?_ fun _ hskipped => resolveUncertain_keeps hskipped
              intro state
              split
              · rfl
              · rfl
  | sendRetry state =>
      dsimp only
      split
      · exact .inl rfl
      · exact .inr rfl
  | returned answer => exact .inl rfl
  | logRetry _ | logPolicy _ _ | signalPolicy _ | sendCompensation _ | cancel _ =>
      simp [hprogress, Progress.acted] at hnot

/-! ## Runs -/

theorem acted_run {moves : List Move} (hacted : s.progress.acted = true)
    (hlogs : Along step (fun s move => s.logsAction move = true) s moves) :
    (s.run moves).progress.acted = true :=
  Along.invariant (P := fun s => s.progress.acted = true) (fun _ _ h hlogs => acted_step h hlogs)
    hacted hlogs

theorem keeps_run {moves : List Move} {reason : ActionReason}
    (hskipped : (s.run moves).progress = .returned (.error reason))
    (hlogs : Along step (fun s move => s.logsAction move = true) s moves) :
    Along step KeepsControl s moves := by
  induction moves generalizing s with
  | nil => trivial
  | cons move moves ih =>
      refine ⟨?_, ih hskipped hlogs.2⟩
      -- had it acted, the call could not end as skipped
      have hrest : (s.step move).progress.acted = false := by
        by_contra hacted
        have hend := acted_run (by simpa using hacted) hlogs.2
        rw [show ((s.step move).run moves).progress = .returned (.error reason) from hskipped] at hend
        cases hend
      have hnot : s.progress.acted = false := by
        by_contra hacted
        have hstep := acted_step (by simpa using hacted) hlogs.1
        rw [hrest] at hstep
        cases hstep
      cases move with
      | others entry canceled => trivial
      | call now persisted =>
          rcases keeps_or_acted now persisted hnot with hkept | hacted
          · exact hkept
          · rw [show (s.advance now persisted).progress.acted = false from hrest] at hacted
            cases hacted

/-- A call that is skipped has left the control state alone in every move,
where no append failed that came after the call had acted. -/
theorem skipped_keeps_control {entry : Entry} {canceled : Bool} {call : Call} {moves : List Move}
    {reason : ActionReason}
    (hskipped : ((start entry canceled call).run moves).progress = .returned (.error reason))
    (hlogs : Along step (fun s move => s.logsAction move = true)
      (start entry canceled call) moves) :
    Along step KeepsControl (start entry canceled call) moves :=
  keeps_run hskipped hlogs

/-- A request that waits for its next attempt, under this policy. -/
def waitingEntry (policy : Option RetryPolicy) : Entry :=
  { request := some { info := { state := .waiting, attempt := 1 }, policy := policy } }

/-- A retry that was asked for before is skipped, with another operator's
policy stored in between. -/
theorem skipped_keeps_control_twice :
    Along step KeepsControl
      (start { waitingEntry none with retryNow := true } false .retryNowChecked)
      [.call 0 true,
        .others { (waitingEntry none).setPolicy (some (.new { duration := 60 * second } 0)) with
          retryNow := true } false,
        .call 0 true] :=
  skipped_keeps_control rfl (by decide)

/-- Where the append fails, each of the three calls has acted when it answers
that it was skipped. -/
theorem skipped_acts :
    let retried := (start (waitingEntry none) false .retryNowChecked).run
      [.call 0 true, .call 0 true, .call 0 false]
    let applied := (start (waitingEntry none) false
      (.applyRetryPolicy { duration := 60 * second } false)).run [.call 1 true, .call 1 false]
    let cleared := (start (waitingEntry (some (.new { duration := 60 * second } 0))) false
      .clearRetryPolicy).run [.call 1 true, .call 1 false]
    retried.progress = .returned (.error .persistenceUnavailable) ∧
      (waitingEntry none).retryNow = false ∧ retried.control.retryNow = true ∧
      applied.progress = .returned (.error .persistenceUnavailable) ∧
      (waitingEntry none).retryPolicy = none ∧ applied.control.policy.isSome ∧
      cleared.progress = .returned (.error .persistenceUnavailable) ∧
      cleared.control.policy = none :=
  ⟨rfl, rfl, rfl, rfl, rfl, rfl, rfl, rfl⟩

end Scene

end RelayLifeline.Registry
