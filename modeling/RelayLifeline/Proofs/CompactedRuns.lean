import Mathlib.Data.Set.Finite.Lattice
import RelayLifeline.Proofs.Compaction

/-!
# Runs with compactions

Every step of a run keeps the ledger replayable if the calls that write of a
reservation find it in the ledger. The first that does not find it writes an
orphan, and from then on the ledger cannot be replayed.
-/

namespace RelayLifeline.Governance

open Lib

/-! ## What a call writes -/

/-- An entry replay refuses where it has no reservation for it. -/
def LedgerEvent.NeedsReservation : LedgerEvent → Prop
  | .bound _ => True
  | .attemptReserved _ => True
  | .usageRecorded _ => True
  | _ => False

/-- Replay refuses such an entry. -/
theorem Replay.entry_orphan {r : Replay} {e : Entry} (he : e.event.NeedsReservation)
    (hnone : r.active.get? e.entityID = none) : ∃ error, r.entry e = .error error := by
  obtain ⟨time, id, event⟩ := e
  cases event with
  | bound event => exact ⟨.orphanBinding id, by simp only [entry, bound, hnone]⟩
  | attemptReserved event =>
      exact ⟨.orphanAttemptReservation id, by simp only [entry, attemptReserved, hnone]⟩
  | usageRecorded event =>
      exact ⟨.orphanSettlement id, by simp only [entry, usageRecorded, hnone]⟩
  | reserved | released | reconciled | heartbeat | malformed | other => cases he

namespace Manager

variable {m m' : Manager} {op : Op} {since : Int}

/-- A call that writes of a reservation adds an entry that needs it. -/
def Extends (m : Manager) (id : String) (m' : Manager) : Prop :=
  ∃ e rest, m'.entries = m.entries ++ e :: rest ∧ e.entityID = id ∧ e.event.NeedsReservation

theorem reserveAttempt_durable (hd : m.Durable) (clk : Clock) (reservation : ReservationState)
    (attempt : AttemptState) :
    ∃ m', m.reserveAttempt clk reservation attempt = (m', none) ∧
      Extends m reservation.id m' ∧ m'.Durable ∧
      m'.reservations = m.reservations.set (reservation.addAttempt attempt) := by
  unfold reserveAttempt
  dsimp only
  rw [append_eq_withEntries hd]
  exact ⟨_, if_neg (by simp), ⟨_, [], withEntries_entries m _ hd, rfl, trivial⟩,
    withEntries_durable m _ hd, rfl⟩

theorem settle_durable (hd : m.Durable) (clk : Clock) (reservation : ReservationState)
    (attempt : AttemptState) (settlementID : String) (usage : Usage) :
    Extends m reservation.id (m.settle clk reservation attempt settlementID usage).1 := by
  unfold settle
  dsimp only
  rw [append_eq_withEntries hd]
  dsimp only
  rw [if_neg (by simp)]
  exact ⟨_, [], withEntries_entries m _ hd, rfl, trivial⟩

theorem Extends.trans {m₁ : Manager} {id id' : String} (h : Extends m id m₁)
    (h' : Extends m₁ id' m') : Extends m id m' := by
  obtain ⟨e, rest, he, hid, hneeds⟩ := h
  obtain ⟨e', rest', he', -⟩ := h'
  exact ⟨e, rest ++ e' :: rest', by rw [he', he]; simp, hid, hneeds⟩

/-- Where `written` is false nothing was changed, and where it is true an entry
was added. -/
structure Tells (written : Bool) (m : Manager) (id : String) (m' : Manager) : Prop where
  quiet : written = false → Quiet m m'
  told : m.Durable → written = true → Extends m id m'

theorem Tells.silent {id : String} (h : Quiet m m') : Tells false m id m' :=
  ⟨fun _ => h, fun _ hw => nomatch hw⟩

theorem Tells.aloud {id : String} (h : m.Durable → Extends m id m') : Tells true m id m' :=
  ⟨fun hw => (nomatch hw), fun hd _ => h hd⟩

theorem bindUpstream_tells (m : Manager) (clk : Clock) (id upstream : String) :
    Tells (m.writes ⟨clk, .bindUpstream id upstream⟩) m id
      (m.bindUpstreamWithDecision clk id upstream).1 := by
  unfold writes bindUpstreamWithDecision
  dsimp only
  generalize trimSpace upstream = upstream
  cases hget : m.reservations.get? id with
  | none =>
      dsimp only
      split <;> exact .silent (.refl m)
  | some reservation =>
      dsimp only
      by_cases hvalid : upstream = "" ∨ upstream.utf8ByteSize > 128
      · rw [if_pos hvalid, decide_eq_true hvalid]
        exact .silent (.refl m)
      rw [if_neg hvalid, decide_eq_false hvalid]
      by_cases hhere : reservation.upstream = upstream
      · rw [if_pos hhere, bne_eq_false_iff_eq.2 hhere]
        exact .silent (.refl m)
      rw [if_neg hhere, bne_iff_ne.2 hhere]
      cases m.bindingAmounts clk reservation (m.keysAt reservation upstream) with
      | error reason => exact .silent (.refl m)
      | ok amounts =>
          refine .aloud fun hd => ?_
          dsimp only
          rw [append_eq_withEntries hd]
          dsimp only
          rw [if_neg (by simp)]
          exact ⟨_, [], withEntries_entries m _ hd, rfl, trivial⟩

theorem begin_tells (m : Manager) (clk : Clock) (id attemptID : String) :
    Tells (m.writes ⟨clk, .beginAttempt id attemptID⟩) m id
      (m.beginAttempt clk clk id attemptID none).1 := by
  unfold writes beginAttempt begin
  dsimp only
  generalize trimSpace attemptID = attemptID
  cases hget : m.reservations.get? id with
  | none =>
      dsimp only
      split <;> exact .silent (.refl m)
  | some reservation =>
      obtain rfl : reservation.id = id := Table.key_of_get? hget
      dsimp only
      by_cases hvalid : attemptID = "" ∨ attemptID.utf8ByteSize > 128
      · rw [if_pos hvalid, decide_eq_true hvalid]
        exact .silent (.refl m)
      rw [if_neg hvalid, decide_eq_false hvalid]
      cases reservation.attempts.get? attemptID with
      | some existing =>
          dsimp only
          split <;> exact .silent (.refl m)
      | none =>
          dsimp only
          cases (m.attemptDecision reservation clk.window reservation.budgetKeys).allowed with
          | false => exact .silent (quiet_reject m _)
          | true =>
              refine .aloud fun hd => ?_
              obtain ⟨m', hm', hextends, -⟩ := reserveAttempt_durable hd clk reservation
                (allowedAttempt clk reservation attemptID
                  ((m.attemptDecision reservation clk.window reservation.budgetKeys).reservedTokens,
                    (m.attemptDecision reservation clk.window
                      reservation.budgetKeys).reservedCostMicros))
              rw [if_pos rfl, hm']
              exact hextends

theorem record_tells (m : Manager) (clk : Clock) (id settlementID : String) (usage : Usage) :
    Tells (m.writes ⟨clk, .record id settlementID usage⟩) m id
      (m.record clk id settlementID usage).1 := by
  unfold writes record
  dsimp only
  generalize trimSpace settlementID = settlementID
  cases hget : m.reservations.get? id with
  | none =>
      dsimp only
      split <;> exact .silent (.refl m)
  | some reservation =>
      obtain rfl : reservation.id = id := Table.key_of_get? hget
      dsimp only
      by_cases hvalid : settlementID = "" ∨ settlementID.utf8ByteSize > 128
      · rw [if_pos hvalid, decide_eq_true hvalid]
        exact .silent (.refl m)
      rw [if_neg hvalid, decide_eq_false hvalid]
      cases reservation.settlements.lookup settlementID with
      | some cost => exact .silent (.refl m)
      | none =>
          dsimp only
          cases reservation.attempts.get? settlementID with
          | some attempt =>
              exact .aloud fun hd => settle_durable hd clk reservation attempt settlementID usage
          | none =>
              dsimp only [beginAttemptLocked]
              cases (m.attemptDecision reservation clk.window reservation.budgetKeys).allowed with
              | false => exact .silent (.refl m)
              | true =>
                  refine .aloud fun hd => ?_
                  obtain ⟨m', hm', hextends, hd', hset⟩ := reserveAttempt_durable hd clk
                    reservation (allowedAttempt clk reservation settlementID
                      ((m.attemptDecision reservation clk.window
                          reservation.budgetKeys).reservedTokens,
                        (m.attemptDecision reservation clk.window
                          reservation.budgetKeys).reservedCostMicros))
                  rw [if_pos rfl, hm']
                  dsimp only
                  rw [hset]
                  rw [show (m.reservations.set (reservation.addAttempt _)).get? reservation.id =
                    some (reservation.addAttempt _) from
                      Table.get?_set_self (a := reservation.addAttempt _)]
                  exact hextends.trans (settle_durable hd' clk _ _ settlementID usage)

/-- An admission under the identifier of a live reservation is refused. -/
theorem admit_of_live (m : Manager) (clk : Clock) (canceled : Bool) (id : String)
    (admission : AdmissionContext) (h : (m.reservations.get? (trimSpace id)).isSome = true) :
    Quiet m (m.admitWithContext clk canceled id admission).1 := by
  unfold admitWithContext
  split
  · exact .refl m
  · dsimp only
    split
    · exact .refl m
    · unfold admitNormalized
      split
      · exact quiet_reject m _
      · exact .refl m

/-! ## One step -/

theorem Makes.entries_kept {e : Effect} (h : Makes op m e m') (hd : m.Durable) {entry : Entry}
    (hin : entry ∈ m.entries) : entry ∈ m'.entries := by
  rw [(h.durable hd).2]
  exact List.mem_append_left _ hin

/-- Whatever is changed of a reservation the ledger knows. -/
theorem known_of_entry {e : Effect} {entry : Entry} (hin : entry ∈ m.entries)
    (hid : entry.entityID = e.id) : m.Known e := by
  cases e <;> first | trivial | exact ⟨entry, hin, hid⟩

theorem Compacted.of_entry (h : m.Compacted since) (hclk : op.clk.now ≤ op.clk.stamp)
    (hentry : ∃ entry ∈ m.entries, entry.entityID = op.call.id) (ht : Transition op m m') :
    m'.Compacted since := by
  obtain ⟨entry, hin, hid⟩ := hentry
  have hknown : ∀ {m₁ : Manager} {e : Effect}, entry ∈ m₁.entries → e.Allowed m₁ op →
      m₁.Known e := fun hin he => known_of_entry hin (hid.trans he.id_eq.symm)
  cases ht with
  | quiet hq => exact h.quiet hq
  | change hmakes => exact h.makes hmakes hclk (hknown hin hmakes.allowed)
  | beginAndSettle hbegan hsettled =>
      have hin₁ := hbegan.entries_kept h.durable hin
      exact (h.makes hbegan hclk (hknown hin hbegan.allowed)).makes hsettled hclk
        (hknown hin₁ hsettled.allowed)

/-- A call covered by the ledger keeps it replayable. -/
theorem Compacted.call (h : m.Compacted since) (ht : (Step.call op).Timely)
    (hcovered : m.Covered (.call op)) : (m.perform op).Compacted since := by
  obtain ⟨clk, call⟩ := op
  have hsaid : m.writes ⟨clk, call⟩ = true → (m.perform ⟨clk, call⟩).Compacted since := fun hw =>
    h.of_entry ht (hcovered hw) (m.perform_transition ⟨clk, call⟩)
  have htold : ∀ {id : String}, Tells (m.writes ⟨clk, call⟩) m id (m.perform ⟨clk, call⟩) →
      (m.perform ⟨clk, call⟩).Compacted since := by
    intro id htells
    cases hw : m.writes ⟨clk, call⟩ with
    | true => exact hsaid hw
    | false => exact h.quiet (htells.quiet hw)
  cases call with
  | bindUpstream id upstream => exact htold (m.bindUpstream_tells clk id upstream)
  | beginAttempt id attemptID => exact htold (m.begin_tells clk id attemptID)
  | record id settlementID usage => exact htold (m.record_tells clk id settlementID usage)
  | release id =>
      rcases m.release_cases clk id with hq | ⟨reservation, hmakes⟩
      · exact h.quiet hq
      · exact h.makes hmakes ht trivial
  | admitWithContext canceled id admission =>
      cases hget : m.reservations.get? (trimSpace id) with
      | some reservation =>
          exact h.quiet (m.admit_of_live clk canceled id admission (by rw [hget]; rfl))
      | none =>
          have hopens : ∀ {e : Effect}, e.Allowed m ⟨clk, .admitWithContext canceled id admission⟩ →
              m.Known e := by
            intro e he
            cases he with
            | admitted => trivial
            | bound call => cases call
            | @began reservation _ _ target found =>
                rw [show reservation.id = trimSpace id from target.symm, hget] at found
                cases found
            | @settled reservation _ _ target found =>
                rw [show reservation.id = trimSpace id from target.symm, hget] at found
                cases found
            | released call => cases call
          have hgranted : ∀ {m' : Manager} {error : Option Error},
              Asked ⟨clk, .admitWithContext canceled id admission⟩ m m' error → m'.Compacted since := by
            intro m' error hasked
            cases hasked with
            | refused hq => exact h.quiet hq
            | idle _ hsame => exact hsame ▸ h
            | granted _ _ hmakes => exact h.makes hmakes ht (hopens hmakes.allowed)
          exact hgranted (m.admitWithContext_asked clk canceled id admission)

/-- A call the ledger does not cover leaves one that cannot be replayed. -/
theorem Compacted.uncovered (h : m.Compacted since) {step : Step} (hcovered : ¬m.Covered step) :
    ∃ error, Replay.entries {} (m.step step).entries = .error error := by
  obtain ⟨op⟩ | _ := step
  · obtain ⟨hw, habsent⟩ : m.writes op = true ∧ ∀ entry ∈ m.entries, entry.entityID ≠ op.call.id := by
      simpa [Covered] using hcovered
    obtain ⟨whole, r, hr, -⟩ := h.replay
    have hnone : r.part op.call.id = (none, []) := Replay.entries_absent habsent hr
    obtain ⟨e, rest, hentries, hid, hneeds⟩ : Extends m op.call.id (m.perform op) := by
      obtain ⟨clk, call⟩ := op
      cases call with
      | bindUpstream id upstream => exact (m.bindUpstream_tells clk id upstream).told h.durable hw
      | beginAttempt id attemptID => exact (m.begin_tells clk id attemptID).told h.durable hw
      | record id settlementID usage =>
          exact (m.record_tells clk id settlementID usage).told h.durable hw
      | admitWithContext => cases hw
      | release => cases hw
    obtain ⟨error, herror⟩ := Replay.entry_orphan (r := r) hneeds (by
      rw [hid]
      exact congrArg Prod.fst hnone)
    refine ⟨error, ?_⟩
    show Replay.entries {} (m.perform op).entries = _
    rw [hentries, Replay.entries_append, hr]
    show List.foldlM Replay.entry r (e :: rest) = _
    rw [List.foldlM_cons, herror]
    rfl
  · exact absurd trivial hcovered

/-! ## Runs -/

theorem compacted_of_fresh (hfresh : m.Fresh) (hd : m.Durable) (since : Int) :
    m.Compacted since where
  durable := hd
  wellFormed := run_wellFormed hfresh []
  timed := by
    rw [hfresh.entries]
    exact fun _ _ _ _ hin => absurd hin List.not_mem_nil
  replay := by
    refine ⟨{}, {}, ?_, ⟨hfresh.windows.symm, hfresh.estimates.symm, ?_, ?_⟩, fun _ _ _ => rfl,
      fun _ => .inl rfl⟩
    · rw [hfresh.entries]
      rfl
    · rw [accounts_reservations, hfresh.reservations]
      exact .nil
    · rw [accounts_reservations, hfresh.reservations]
      exact fun _ hin => absurd hin List.not_mem_nil

theorem Compacted.step {step : Step} (h : m.Compacted since) (ht : step.Timely)
    (hcutoff : ∀ cutoff, step.cutoff? = some cutoff → cutoff ≤ since)
    (hcovered : m.Covered step) : (m.step step).Compacted since := by
  cases step with
  | call op => exact h.call ht hcovered
  | compact clk stamp cutoff rewrite =>
      have hmax := (h.compact ht).1
      rw [max_eq_left (hcutoff cutoff rfl)] at hmax
      exact hmax

/-- A run whose steps the ledger covers keeps it replayable, and leaves the
manager the calls alone would have left, over other entries. -/
theorem Compacted.runSteps {plain : Manager} {steps : List Step} (h : m.Compacted since)
    (hplain : ∃ l, m = plain.withEntries l) (ht : ∀ step ∈ steps, step.Timely)
    (hcutoff : ∀ cutoff ∈ steps.filterMap Step.cutoff?, cutoff ≤ since)
    (hcovered : Along Manager.step Covered m steps) :
    (m.runSteps steps).Compacted since ∧
      ∃ l, m.runSteps steps = (plain.run (steps.filterMap Step.op?)).withEntries l := by
  induction steps generalizing m plain with
  | nil => exact ⟨h, hplain⟩
  | cons step steps ih =>
      obtain ⟨hfirst, hrest⟩ := hcovered
      obtain ⟨l, rfl⟩ := hplain
      have hstep := h.step (ht step (by simp)) (fun cutoff hc => hcutoff cutoff (by simp [hc]))
        hfirst
      have ht' : ∀ step ∈ steps, step.Timely := fun s hs => ht s (List.mem_cons_of_mem _ hs)
      have hcutoff' : ∀ cutoff ∈ steps.filterMap Step.cutoff?, cutoff ≤ since :=
        fun cutoff hc => hcutoff cutoff (by
          obtain ⟨s, hs, hsc⟩ := List.mem_filterMap.1 hc
          exact List.mem_filterMap.2 ⟨s, List.mem_cons_of_mem _ hs, hsc⟩)
      cases step with
      | call op => exact ih hstep (plain.perform_withEntries l op) ht' hcutoff' hrest
      | compact clk stamp cutoff rewrite =>
          obtain ⟨l', hl'⟩ := (h.compact (ht _ List.mem_cons_self)).2
          exact ih hstep ⟨l', hl'.trans (withEntries_withEntries plain l l')⟩ ht' hcutoff' hrest

/-- What a restart finds in the windows no compaction reached. -/
theorem Compacted.restart (h : m.Compacted since) {ledger : Ledger}
    (hledger : m.ledger = some ledger) (cfg : GovernanceConfig) (clk : String → Clock) :
    ∃ restarted, newPersistent cfg ledger clk = .ok restarted ∧
      ∀ key window, since ≤ truncateMinute window →
        (restarted.windows.get key window).unreserved = (m.windows.get key window).unreserved := by
  obtain ⟨whole, r, hr, hmirrors, htracks⟩ := h.replay
  have hentries : m.entries = ledger.entries := by
    unfold entries
    rw [hledger]
  have hd : (replayed cfg ledger r).Durable := by
    obtain ⟨l, hl, hs, hf⟩ := h.durable
    rw [hledger] at hl
    cases hl
    exact ⟨ledger, rfl, hs, hf⟩
  obtain ⟨restarted, hok, hrec⟩ := reconcile_all clk r.active.items hd
  refine ⟨restarted, ?_, fun key window hle => ?_⟩
  · unfold newPersistent
    rw [← hentries, hr]
    exact hok
  · have hkept := Windows.Rel.foldl (R := fun s s' => s'.unreserved = s.unreserved)
      respectsRelease_unreserved.refl respectsRelease_unreserved.trans
      (fun w reservation (_ : reservation ∈ r.active.items) =>
        windowsAfter_released_rel respectsRelease_unreserved w reservation)
      r.windows (slotOf key) (truncateMinute window)
    unfold Windows.get
    rw [hrec.windows]
    refine hkept.trans (congrArg UsageState.unreserved ?_)
    rw [htracks.windows _ _ hle, hmirrors.windows]
    rfl

/-- After these steps a restart succeeds, and finds in the windows from every
cutoff on what it would have found had nothing been compacted. -/
def RestartsWhole (m : Manager) (steps : List Step) : Prop :=
  ∀ (ledger plain : Ledger) (cfg : GovernanceConfig) (clk clk' : String → Clock),
    (m.runSteps steps).ledger = some ledger →
    (m.run (steps.filterMap Step.op?)).ledger = some plain →
    ∃ restarted whole, newPersistent cfg ledger clk = .ok restarted ∧
      newPersistent cfg plain clk' = .ok whole ∧
      ∀ (scope : Scope) (value : String) (window : Int),
        (∀ cutoff ∈ steps.filterMap Step.cutoff?, cutoff ≤ truncateMinute window) →
          (restarted.windows.get (scope.key value) window).unreserved =
            (whole.windows.get (scope.key value) window).unreserved

theorem restartsWhole_of_covered (hfresh : m.Fresh) (hd : m.Durable) {steps : List Step}
    (ht : ∀ step ∈ steps, step.Timely) (hcovered : Along Manager.step Covered m steps) :
    m.RestartsWhole steps := by
  intro ledger plain cfg clk clk' hledger hplain
  have hrun : ∀ since, (∀ cutoff ∈ steps.filterMap Step.cutoff?, cutoff ≤ since) →
      (m.runSteps steps).Compacted since ∧
        ∃ l, m.runSteps steps = (m.run (steps.filterMap Step.op?)).withEntries l :=
    fun since hcutoff => (compacted_of_fresh hfresh hd since).runSteps
      ⟨m.entries, m.withEntries_self.symm⟩ ht hcutoff hcovered
  obtain ⟨bound, hbound⟩ := (List.finite_toSet (steps.filterMap Step.cutoff?)).bddAbove
  obtain ⟨restarted, hok, -⟩ := (hrun bound hbound).1.restart hledger cfg clk
  obtain ⟨whole, hwhole, hrestart, -⟩ := restart_refines_live m hfresh hd
    (steps.filterMap Step.op?) plain hplain cfg clk'
  refine ⟨restarted, whole, hok, hwhole, fun scope value window hcutoff => ?_⟩
  obtain ⟨hcompacted, l, hsame⟩ := hrun (truncateMinute window) hcutoff
  obtain ⟨restarted', hok', husage⟩ := hcompacted.restart hledger cfg clk
  obtain rfl : restarted' = restarted := by
    rw [hok] at hok'
    exact (Except.ok.inj hok').symm
  rw [husage _ window le_rfl, hrestart.usage scope value window, hsame]
  rfl

theorem ledger_of_entries {entry : Entry} (h : entry ∈ m.entries) :
    ∃ ledger, m.ledger = some ledger := by
  unfold entries at h
  cases hl : m.ledger with
  | none =>
      rw [hl] at h
      cases h
  | some ledger => exact ⟨ledger, rfl⟩

/-- A run that meets no uncovered step can be compacted up to any bound past its
cutoffs. -/
theorem runSteps_compacted (hfresh : m.Fresh) (hd : m.Durable) {steps : List Step}
    (ht : ∀ step ∈ steps, step.Timely) (hcovered : Along Manager.step Covered m steps) :
    ∃ since, (m.runSteps steps).Compacted since := by
  obtain ⟨bound, hbound⟩ := (List.finite_toSet (steps.filterMap Step.cutoff?)).bddAbove
  exact ⟨bound, ((compacted_of_fresh hfresh hd bound).runSteps ⟨m.entries, m.withEntries_self.symm⟩
    ht hbound hcovered).1⟩

/-- Every point of a run can be restarted from, to the usage an uncompacted
ledger would give, exactly if whenever a binding, an attempt or a settlement
is about to be written the ledger still has an entry of its reservation. -/
theorem restartsWhole_iff_covered (m : Manager) (hfresh : m.Fresh) (hd : m.Durable)
    (steps : List Step) (ht : ∀ step ∈ steps, step.Timely) :
    (∀ front, front <+: steps → m.RestartsWhole front) ↔ Along step Covered m steps := by
  constructor
  · intro h
    by_contra hnot
    obtain ⟨front, step, rest, rfl, hfront, huncovered⟩ := Along.exists_first hnot
    obtain ⟨since, hcompacted⟩ := runSteps_compacted hfresh hd
      (fun s hs => ht s (List.mem_append_left _ hs)) hfront
    obtain ⟨error, herror⟩ := hcompacted.uncovered huncovered
    have hrun : m.runSteps (front ++ [step]) = (m.runSteps front).step step := by
      unfold runSteps
      rw [List.foldl_append]
      rfl
    obtain ⟨ledger, hledger⟩ : ∃ ledger, (m.runSteps (front ++ [step])).ledger = some ledger := by
      rw [hrun]
      cases hentries : ((m.runSteps front).step step).entries with
      | nil =>
          rw [hentries] at herror
          cases herror
      | cons entry l => exact ledger_of_entries (by rw [hentries]; exact List.mem_cons_self)
    obtain ⟨plain, hplain, -⟩ :=
      (run_mirrored hfresh hd ((front ++ [step]).filterMap Step.op?)).2
    obtain ⟨restarted, -, hok, -⟩ := h (front ++ [step]) ⟨rest, by simp⟩ ledger plain m.config
      (fun _ => { now := minute, stamp := minute }) (fun _ => { now := minute, stamp := minute })
      hledger hplain
    rw [← hrun] at herror
    unfold entries at herror
    rw [hledger] at herror
    unfold newPersistent at hok
    rw [herror] at hok
    cases hok
  · rintro h front ⟨rest, rfl⟩
    exact restartsWhole_of_covered hfresh hd (fun step hs => ht step (List.mem_append_left _ hs))
      (Along.append.1 h).1

/-- A client's only attempt is settled, its request waits for a retry while the
job drops its reservation from the ledger, and the retry is begun. -/
def settledThenRetried : List Step :=
  [.call ⟨{ now := minute, stamp := minute }, .admitWithContext false "a" { principal := "alice" }⟩,
   .call ⟨{ now := minute, stamp := minute },
     .record "a" "attempt-1" { totalTokens := 2, known := true }⟩,
   .compact { now := minute + 9, stamp := minute + 9 } (fun _ => minute + 9) (minute + 5) .done,
   .call ⟨{ now := minute + 9, stamp := minute + 9 }, .beginAttempt "a" "attempt-2"⟩]

/-- The ledger that leaves has an attempt without its reservation. -/
theorem not_restartsWhole_settledThenRetried :
    ledgered.Fresh ∧ ledgered.Durable ∧ (∀ step ∈ settledThenRetried, step.Timely) ∧
      ¬ledgered.RestartsWhole settledThenRetried := by
  refine ⟨⟨rfl, rfl, rfl, rfl⟩, ⟨_, rfl, rfl, rfl⟩, ?_, fun h => ?_⟩
  · simp [settledThenRetried, Step.Timely]
  · have hfails : (newPersistent ledgered.config
        ((ledgered.runSteps settledThenRetried).ledger.getD {})
        fun _ => { now := 2 * minute, stamp := 2 * minute }).isOk = false := by decide +kernel
    obtain ⟨restarted, -, hok, -⟩ := h ((ledgered.runSteps settledThenRetried).ledger.getD {})
      ((ledgered.run (settledThenRetried.filterMap Step.op?)).ledger.getD {}) ledgered.config
      (fun _ => { now := 2 * minute, stamp := 2 * minute })
      (fun _ => { now := 2 * minute, stamp := 2 * minute }) (by rfl) (by rfl)
    rw [hok] at hfails
    cases hfails

/-- One client is done before the job runs, another waits with an attempt
outstanding and goes on afterwards. -/
def doneAndWaiting : List Step :=
  [.call ⟨{ now := minute, stamp := minute }, .admitWithContext false "a" { principal := "alice" }⟩,
   .call ⟨{ now := minute, stamp := minute },
     .record "a" "attempt-1" { totalTokens := 2, known := true }⟩,
   .call ⟨{ now := minute, stamp := minute }, .release "a"⟩,
   .call ⟨{ now := minute, stamp := minute }, .admitWithContext false "b" { principal := "bob" }⟩,
   .compact { now := minute + 9, stamp := minute + 9 } (fun _ => minute + 9) (minute + 5) .done,
   .call ⟨{ now := minute + 9, stamp := minute + 9 }, .record "b" "attempt-1" {}⟩,
   .call ⟨{ now := minute + 9, stamp := minute + 9 }, .beginAttempt "b" "attempt-2"⟩]

/-- A restart at the end of it sees what the whole ledger would show. -/
theorem restartsWhole_doneAndWaiting :
    ∃ ledger restarted, (ledgered.runSteps doneAndWaiting).ledger = some ledger ∧
      newPersistent ledgered.config ledger
        (fun _ => { now := 2 * minute, stamp := 2 * minute }) = .ok restarted :=
  have hwhole := (restartsWhole_iff_covered ledgered ⟨rfl, rfl, rfl, rfl⟩ ⟨_, rfl, rfl, rfl⟩
    doneAndWaiting (by simp [doneAndWaiting, Step.Timely])).2 (by decide +kernel)
    doneAndWaiting List.prefix_rfl
  have ⟨restarted, _, hok, _⟩ := hwhole ((ledgered.runSteps doneAndWaiting).ledger.getD {})
    ((ledgered.run (doneAndWaiting.filterMap Step.op?)).ledger.getD {}) ledgered.config
    (fun _ => { now := 2 * minute, stamp := 2 * minute })
    (fun _ => { now := 2 * minute, stamp := 2 * minute }) (by rfl) (by rfl)
  ⟨_, restarted, by rfl, hok⟩

end Manager

end RelayLifeline.Governance
