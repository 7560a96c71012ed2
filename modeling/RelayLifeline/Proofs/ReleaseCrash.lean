import RelayLifeline.Policy.Site
import RelayLifeline.Proofs.ReleaseReplay

/-!
# A release that is cut short

How far a release got is read off the journal: nothing of it, its intent, or
how the intent was settled. From there a restart settles what is pending by one
comparison, of the revision of the policy it loads with the one the intent
names. So a restart agrees with the configuration where that comparison tells
whether the policy in the file is the one of the release, and where the journal
does not hold the release while the file was put back.
-/

namespace RelayLifeline.Policy

open Journal Lib

variable {F : Type}

/-! ## Policies that come in as JSON -/

theorem Config.kept_of_readBack {raw policy : Config F} (h : raw.readBack = some policy)
    (hsize : 0 ≤ policy.shadow.maxRequestBody) : policy.sizeKept = true := by
  obtain ⟨size, hread, hpolicy⟩ := Option.bind_eq_some_iff.1 h
  obtain rfl := Option.some.inj hpolicy
  simp only [sizeKept, decide_eq_true_eq]
  exact readByteSize_of_read hread hsize

theorem Config.nonneg_of_kept {policy : Config F} (h : policy.sizeKept = true) :
    0 ≤ policy.shadow.maxRequestBody := by
  simp only [sizeKept, decide_eq_true_eq, readByteSize] at h
  split at h
  · cases h
  · next hpos => exact Int.not_lt.1 hpos

variable [Float64 F]

/-- The revision is computed without the one a policy is labelled with. -/
theorem policyRevision_label (policy : Config F) (revision : String) :
    policyRevision { policy with revision := revision } = policyRevision policy := by
  simp only [policyRevision]

/-! ## What a manager holds -/

/-- An intent as `PrepareCommit` makes one of a record that was prepared. -/
structure Intent.Sound (intent : Intent F) : Prop where
  kept : intent.record.policy.sizeKept = true
  marshals : intent.record.policy.json.isSome = true
  named : intent.record.operationID = intent.operationID
  computed : intent.operationID = releaseOperationID intent.record

namespace ReleaseManager

variable {m : ReleaseManager F} {record : ReleaseRecord F} {intent : Intent F} {id : String}

/-- The operations of the history. -/
def operations (m : ReleaseManager F) : List String := m.history.map ReleaseRecord.operationID

structure Kept (m : ReleaseManager F) : Prop where
  draft : ∀ policy ∈ m.draft, policy.sizeKept = true
  history : ∀ record ∈ m.history, record.policy.sizeKept = true
  pending : ∀ intent ∈ m.pending.items, intent.Sound

theorem kept_empty : ({} : ReleaseManager F).Kept :=
  ⟨by simp, by simp, by simp⟩

omit [Float64 F] in
theorem mem_appendHistory {r : ReleaseRecord F} (h : r ∈ (m.appendHistory record).history) :
    r ∈ m.history ∨ r = record := by
  rw [appendHistory] at h
  split at h
  · exact .inl h
  · simpa using List.mem_of_mem_drop h

omit [Float64 F] in
theorem operations_appendHistory_of_ne (h : id ≠ record.operationID) (hnew : id ∉ m.operations) :
    id ∉ (m.appendHistory record).operations := by
  intro hin
  obtain ⟨r, hr, rfl⟩ := List.mem_map.1 hin
  rcases mem_appendHistory hr with hold | rfl
  · exact hnew (List.mem_map_of_mem hold)
  · exact h rfl

omit [Float64 F] in
/-- A record with an operation is in the history it is appended to. -/
theorem mem_operations_appendHistory (m : ReleaseManager F) (record : ReleaseRecord F) :
    record.operationID ∈ (m.appendHistory record).operations := by
  rw [appendHistory]
  split
  · next h =>
      obtain ⟨existing, hin, heq⟩ := List.any_eq_true.1 h.2
      exact List.mem_map.2 ⟨existing, hin, by simpa using heq⟩
  · refine List.mem_map_of_mem ?_
    show record ∈ (m.history ++ [record]).drop ((m.history ++ [record]).length - limit)
    have hlen : (m.history ++ [record]).length - limit ≤ m.history.length := by
      rw [List.length_append]
      show m.history.length + 1 - 50 ≤ _
      omega
    rw [List.drop_append_of_le_length hlen]
    exact List.mem_append_right _ List.mem_cons_self

theorem Kept.set (h : m.Kept) (hintent : intent.Sound) :
    ({ m with pending := m.pending.set intent } : ReleaseManager F).Kept := by
  refine ⟨h.draft, h.history, fun other hin => ?_⟩
  rcases Table.mem_set.1 hin with rfl | ⟨hold, -⟩
  · exact hintent
  · exact h.pending other hold

theorem Kept.erase (h : m.Kept) (id : String) :
    ({ m with pending := m.pending.erase id } : ReleaseManager F).Kept :=
  ⟨h.draft, h.history, fun other hin => h.pending other (Table.mem_erase.1 hin).1⟩

theorem Kept.releasedAs (h : m.Kept) (hrecord : record.policy.sizeKept = true) (id : String) :
    (m.releasedAs record id).Kept := by
  refine ⟨by simp [ReleaseManager.releasedAs], fun r hr => ?_, fun other hin => ?_⟩
  · rcases mem_appendHistory hr with hold | rfl
    · exact h.history r hold
    · exact hrecord
  · rw [releasedAs_pending] at hin
    exact h.pending other (Table.mem_erase.1 hin).1

theorem Kept.settledBy (h : m.Kept) (current : Config F) (hintent : intent.Sound) :
    (m.settledBy current intent).Kept := by
  rw [ReleaseManager.settledBy]
  split
  · exact h.releasedAs hintent.kept _
  · exact h.erase _

@[simp] theorem settledBy_pending (m : ReleaseManager F) (current : Config F)
    (intent : Intent F) :
    (m.settledBy current intent).pending = m.pending.erase intent.operationID := by
  rw [settledBy]
  split
  · exact releasedAs_pending _ _ _
  · rfl

/-- An operation that is not in the history is there after a settlement just
where it is the one that is settled and its revision is the current one. -/
theorem mem_operations_settledBy (current : Config F) (hintent : intent.Sound)
    (hnew : id ∉ m.operations) :
    id ∈ (m.settledBy current intent).operations ↔
      intent.operationID = id ∧ policyRevision current = intent.record.revision := by
  rw [settledBy]
  split
  · next hmatches =>
      show id ∈ (m.appendHistory intent.record).operations ↔ _
      constructor
      · intro hin
        by_contra hother
        refine operations_appendHistory_of_ne (fun heq => hother ⟨?_, hmatches⟩) hnew hin
        rw [heq, hintent.named]
      · rintro ⟨rfl, -⟩
        rw [← hintent.named]
        exact mem_operations_appendHistory m intent.record
  · next hdiffers => exact ⟨fun hin => absurd hin hnew, fun h => absurd h.2 hdiffers⟩

end ReleaseManager

/-! ## What is prepared -/

/-- A release as `PreparePublish` and `PrepareRollback` make one. -/
structure Prepared.Sound (p : Prepared F) : Prop where
  kept : p.record.policy.sizeKept = true
  computed : p.record.operationID = releaseOperationID p.record
  revision : p.record.revision = policyRevision p.policy
  policy : p.record.policy = cloneConfig p.policy

namespace Prepared

variable {p : Prepared F}

/-- The intent of the release. -/
def intent (p : Prepared F) : Intent F := ⟨p.record.operationID, p.rollback, p.record, ""⟩

theorem Sound.named (h : p.Sound) : p.record.operationID ≠ "" :=
  h.computed ▸ releaseOperationID_ne_empty p.record

theorem Sound.identified (h : p.Sound) : p.record.identified = p.record := if_neg h.named

theorem Sound.intent (h : p.Sound) (hmarshals : p.record.policy.json.isSome = true) :
    p.intent.Sound :=
  ⟨h.kept, hmarshals, rfl, h.computed⟩

theorem sound_recordOf {policy : Config F} (hkept : policy.sizeKept = true) (stage : String)
    (now : Int) (actor : String) (rollback : Bool) :
    (⟨(Releases.recordOf policy stage now actor).1, (Releases.recordOf policy stage now actor).2,
      rollback⟩ : Prepared F).Sound := by
  constructor
  · rw [Config.sizeKept, decide_eq_true_eq] at hkept ⊢
    simpa only [Releases.recordOf, cloneConfig] using hkept
  · simp only [Releases.recordOf, releaseOperationID]
  · simp only [Releases.recordOf, policyRevision_label]
  · simp only [Releases.recordOf]

end Prepared

theorem nonneg_of_valid {u : Unicode} {policy : Config F} (h : validateCandidate u policy = true) :
    0 ≤ policy.shadow.maxRequestBody := by
  simp only [validateCandidate, Config.valid, Bool.and_eq_true] at h
  have hshadow := h.1.2
  simp only [Shadow.valid, Bool.and_eq_true, decide_eq_true_eq] at hshadow
  have hsize := hshadow.1.1.1.1.2
  omega

theorem sound_of_preparePublish {r : Releases F} {u : Unicode} {now : Int}
    {chosen : Option (Config F)} {stage actor : String} {canaryPercent : Int}
    {release : Config F × ReleaseRecord F}
    (hdraft : ∀ policy ∈ r.manager.draft, policy.sizeKept = true)
    (hchosen : ∀ policy ∈ chosen, 0 ≤ policy.shadow.maxRequestBody → policy.sizeKept = true)
    (h : r.preparePublish u now chosen stage canaryPercent actor = .ok release) :
    (⟨release.1, release.2, false⟩ : Prepared F).Sound := by
  simp only [Releases.preparePublish] at h
  split at h
  · cases h
  · split at h
    · cases h
    · next policy hcandidate =>
        generalize (if stage ≠ "canary" then 100 else canaryPercent) = percent at h
        split at h
        · cases h
        · split at h
          · cases h
          · next hvalid =>
              obtain rfl := Except.ok.inj h
              rw [Bool.not_eq_true, Bool.not_eq_false'] at hvalid
              have hsize := nonneg_of_valid hvalid
              refine Prepared.sound_recordOf ?_ _ _ _ _
              cases chosen with
              | some raw =>
                  obtain rfl := Except.ok.inj hcandidate
                  exact Config.sizeKept_of_shadow rfl (hchosen raw rfl hsize)
              | none =>
                  cases hsaved : r.manager.draft with
                  | none => simp [Releases.candidate, hsaved] at hcandidate
                  | some draft =>
                      simp only [Releases.candidate, hsaved] at hcandidate
                      obtain rfl := Except.ok.inj hcandidate
                      exact Config.sizeKept_of_shadow rfl (hdraft draft hsaved)

theorem sound_of_prepareRollback {u : Unicode} {now : Int} {record : ReleaseRecord F}
    {actor : String} {release : Config F × ReleaseRecord F}
    (hrecord : record.policy.sizeKept = true)
    (h : Releases.prepareRollback u now record actor = .ok release) :
    (⟨release.1, release.2, true⟩ : Prepared F).Sound := by
  simp only [Releases.prepareRollback] at h
  split at h
  · cases h
  · obtain rfl := Except.ok.inj h
    refine Prepared.sound_recordOf ?_ _ _ _ _
    exact Config.sizeKept_of_shadow rfl hrecord

/-- What a manager is asked for once it holds only what was read from JSON. -/
theorem sound_of_prepare {s : Site F} {u : Unicode} {now : Int} {actor : String}
    {request : Request F} {p : Prepared F} (hkept : s.releases.manager.Kept)
    (h : s.prepare u now actor request = some p) : p.Sound := by
  match request with
  | .publish none draftRevision stage canaryPercent =>
      simp only [Site.prepare] at h
      split at h
      · cases h
      · split at h
        · next release hrelease =>
            obtain rfl := Option.some.inj h
            exact sound_of_preparePublish hkept.draft (by simp) hrelease
        · cases h
  | .publish (some raw) _ stage canaryPercent =>
      obtain ⟨policy, hread, h⟩ := Option.bind_eq_some_iff.1 h
      split at h
      · next release hrelease =>
          obtain rfl := Option.some.inj h
          refine sound_of_preparePublish hkept.draft (fun chosen hchosen hsize => ?_) hrelease
          obtain rfl := Option.some.inj hchosen
          exact Config.kept_of_readBack hread hsize
      · cases h
  | .rollback policyRevision =>
      obtain ⟨record, hfound, h⟩ := Option.bind_eq_some_iff.1 h
      split at h
      · next release hrelease =>
          obtain rfl := Option.some.inj h
          have hin := List.mem_reverse.1 (List.mem_of_find?_eq_some hfound)
          exact sound_of_prepareRollback (hkept.history record hin) hrelease
      · cases h

/-! ## How far a release got -/

/-- What is durable of a release when the process stops. -/
inductive Reached where
  /-- Nothing of it. -/
  | nothing
  /-- Its intent, over the earlier configuration. -/
  | prepared
  /-- Its intent, and its policy in the configuration. -/
  | applied
  /-- The release, and its policy in the configuration. -/
  | released
  /-- The release, over the earlier configuration. -/
  | compensated
  /-- Its intent and the abortion of it. -/
  | aborted

namespace Reached

/-- How far these many durable steps of a release come. -/
def of (writable : Bool) (a : Answers) : Nat → Reached
  | 0 => .nothing
  | n + 1 =>
      if !writable then .nothing
      else
        match a.prepared.2 with
        | .lost => .nothing
        | .unacknowledged => .prepared
        | .written =>
            if n = 0 then .prepared
            else if !a.updates then
              match a.aborted.2 with
              | .lost => .prepared
              | .written | .unacknowledged => .aborted
            else if n = 1 then .applied
            else
              match a.finalized.2 with
              | .written => .released
              | .unacknowledged => if !a.restores || n = 2 then .released else .compensated
              | .lost => if !a.restores || n = 2 then .applied else .prepared

/-- The configuration holds the policy of the release. -/
def updates : Reached → Bool
  | .applied | .released => true
  | .nothing | .prepared | .compensated | .aborted => false

/-- What a restart makes of the journal. -/
def manager (m : ReleaseManager F) (p : Prepared F) : Reached → ReleaseManager F
  | .nothing => m
  | .prepared | .applied => { m with pending := m.pending.set p.intent }
  | .released | .compensated =>
      ({ m with pending := m.pending.set p.intent } : ReleaseManager F).releasedAs p.record
        p.record.operationID
  | .aborted => { m with pending := (m.pending.set p.intent).erase p.record.operationID }

end Reached

namespace Releases

variable {r : Releases F} {m : ReleaseManager F} {p : Prepared F} {now : Int} {fate : Fate}

/-- What is appended of the release can get into the journal. -/
def writable (r : Releases F) (p : Prepared F) : Bool :=
  !r.ledger.degraded && p.record.policy.json.isSome

/-- How a commit of the release goes: whether it is acknowledged, and what the
journal holds then. -/
structure Commits (r : Releases F) (p : Prepared F) (fate : Fate) (m m' : ReleaseManager F)
    (committed : Releases F × Bool) : Prop where
  ok : committed.2 = (r.writable p && fate = .written)
  writable : committed.1.writable p = committed.2
  holds : committed.1.Holds (if r.writable p && fate ≠ .lost then m' else m)

theorem commits {entityID : String} {event : Event F} {f : ReleaseManager F → ReleaseManager F}
    {m' : ReleaseManager F} (h : r.Holds m) (hevent : m.replayEvent event = some m')
    (hmarshals : event.marshals = p.record.policy.json.isSome) :
    r.Commits p fate m m' (r.commit now entityID event fate f) := by
  have hlands : r.lands event fate = (r.writable p && fate ≠ .lost) := by
    rw [lands, hmarshals, writable]
  have hok : (r.commit now entityID event fate f).2 = (r.writable p && fate = .written) := by
    rw [commit_ok, hlands]
    cases fate <;> simp
  refine ⟨hok, ?_, ?_⟩
  · rw [writable, commit_degraded, Bool.not_not, hok]
    cases hwritable : r.writable p with
    | false => simp
    | true => simp [(Bool.and_eq_true _ _ ▸ hwritable : _ ∧ _).2]
  · rw [← hlands]
    exact h.commit hevent

theorem Commits.healthy {m' : ReleaseManager F} {committed : Releases F × Bool}
    (h : r.Commits p fate m m' committed) (hok : committed.2 = true) :
    committed.1.ledger.degraded = false := by
  have hwritable := h.writable
  rw [hok, Releases.writable, Bool.and_eq_true, Bool.not_eq_true'] at hwritable
  exact hwritable.1

/-- A journal that is degraded takes nothing of a release. -/
theorem abortCommit_of_degraded {reason : String} (h : r.ledger.degraded = true) :
    (r.abortCommit now p.record p.rollback reason fate).1 = r := by
  rw [abortCommit_eq, commit_of_degraded h]

theorem finalizeCommit_degraded (r : Releases F) (record : ReleaseRecord F) (rollback : Bool) :
    (r.finalizeCommit now record rollback fate).1.ledger.degraded =
      !(r.finalizeCommit now record rollback fate).2 := by
  rw [finalizeCommit_eq, commit_degraded]

theorem finalizeCommit_of_degraded (h : r.ledger.degraded = true) :
    (r.finalizeCommit now p.record p.rollback fate).1 = r := by
  rw [finalizeCommit_eq, commit_of_degraded h]

theorem prepareCommit_of_degraded (h : r.ledger.degraded = true) :
    (r.prepareCommit now p.record p.rollback fate).1 = r := by
  cases hpending : r.manager.pending.get? p.record.identified.operationID with
  | some _ => rw [prepareCommit, if_pos (by simp [hpending])]
  | none => rw [prepareCommit_eq p.rollback hpending, commit_of_degraded h]

theorem commits_prepareCommit (hp : p.Sound)
    (hnew : r.manager.pending.get? p.record.operationID = none) (h : r.Holds m) :
    r.Commits p fate m { m with pending := m.pending.set p.intent }
      (r.prepareCommit now p.record p.rollback fate) := by
  rw [prepareCommit_eq p.rollback (by rwa [hp.identified])]
  simp only [hp.identified]
  exact commits h (replayEvent_releasePrepared m hp.kept hp.named) rfl

theorem commits_finalizeCommit (hp : p.Sound) (h : r.Holds m) :
    r.Commits p fate m (m.releasedAs p.record p.record.operationID)
      (r.finalizeCommit now p.record p.rollback fate) := by
  rw [finalizeCommit_eq]
  simp only [hp.identified]
  have hevent := replayEvent_applied m p.rollback hp.kept
  rw [← hp.computed] at hevent
  refine commits h hevent ?_
  rw [appliedEvent]
  split
  · rfl
  · rfl

theorem commits_abortCommit {reason : String} (hp : p.Sound) (h : r.Holds m) :
    r.Commits p fate m { m with pending := m.pending.erase p.record.operationID }
      (r.abortCommit now p.record p.rollback reason fate) := by
  rw [abortCommit_eq]
  simp only [hp.identified]
  exact commits h (replayEvent_releaseAborted m (Config.nonneg_of_kept hp.kept) hp.named) rfl

end Releases

namespace Site

variable {s : Site F} {m : ReleaseManager F} {p : Prepared F}

theorem durableSteps_refused {a : Answers} (hok : (s.prepareCommit p a.prepared).2 = false) :
    s.durableSteps p a = [(s.prepareCommit p a.prepared).1] := by
  rw [durableSteps, if_pos (by rw [hok]; rfl)]

theorem durableSteps_aborted {a : Answers} (hok : (s.prepareCommit p a.prepared).2 = true)
    (hupdates : a.updates = false) :
    s.durableSteps p a =
      [(s.prepareCommit p a.prepared).1,
        (s.prepareCommit p a.prepared).1.abortCommit p "config_update_failed" a.aborted] := by
  rw [durableSteps, if_neg (by simp [hok]), if_pos (by rw [hupdates]; rfl)]

/-- The configuration once it holds the policy. -/
def updated (s : Site F) (p : Prepared F) (a : Answers) : Site F :=
  { (s.prepareCommit p a.prepared).1 with config := p.policy }

theorem durableSteps_kept {a : Answers} (hok : (s.prepareCommit p a.prepared).2 = true)
    (hupdates : a.updates = true)
    (hkeeps : (((s.updated p a).finalizeCommit p a.finalized).2 || !a.restores) = true) :
    s.durableSteps p a =
      [(s.prepareCommit p a.prepared).1, s.updated p a,
        ((s.updated p a).finalizeCommit p a.finalized).1] := by
  rw [durableSteps, if_neg (by simp [hok]), if_neg (by simp [hupdates])]
  exact if_pos hkeeps

theorem durableSteps_restored {a : Answers} (hok : (s.prepareCommit p a.prepared).2 = true)
    (hupdates : a.updates = true)
    (hrestores : (((s.updated p a).finalizeCommit p a.finalized).2 || !a.restores) = false) :
    let restored :=
      { ((s.updated p a).finalizeCommit p a.finalized).1 with config := s.config }
    s.durableSteps p a =
      [(s.prepareCommit p a.prepared).1, s.updated p a,
        ((s.updated p a).finalizeCommit p a.finalized).1, restored,
        restored.abortCommit p "audit_failed_compensated" a.aborted] := by
  rw [durableSteps, if_neg (by simp [hok]), if_neg (by simp [hupdates])]
  exact if_neg (by rw [← Bool.not_eq_true] at hrestores; exact hrestores)

/-- What a release comes to once its intent is acknowledged. -/
theorem release_reaches_of_prepared (hp : p.Sound) {a : Answers} (hfate : a.prepared.2 = .written)
    (hok : (s.prepareCommit p a.prepared).2 = true)
    (hwrites : (s.prepareCommit p a.prepared).1.releases.writable p = true)
    (h : (s.prepareCommit p a.prepared).1.releases.Holds
      { m with pending := m.pending.set p.intent }) (n : Nat) :
    (s.release p a (n + 1)).releases.Holds ((Reached.of true a (n + 1)).manager m p) ∧
      (s.release p a (n + 1)).config =
        if (Reached.of true a (n + 1)).updates then p.policy else s.config := by
  obtain ⟨⟨preparedAt, prepared⟩, updates, ⟨finalizedAt, finalized⟩, restores, ⟨abortedAt, aborted⟩⟩ := a
  obtain rfl : prepared = .written := hfate
  cases updates with
  | false =>
      have hcommits : Releases.Commits _ p aborted _ _
          (Releases.abortCommit _ abortedAt p.record p.rollback "config_update_failed" aborted) :=
        Releases.commits_abortCommit hp h
      have haborted := hcommits.holds
      rw [hwrites] at haborted
      cases n with
      | zero =>
          rw [release, durableSteps_aborted hok rfl]
          exact ⟨h, rfl⟩
      | succ n =>
          simp only [release, durableSteps_aborted hok rfl, List.take_succ_cons, List.take_nil]
          cases aborted with
          | lost => exact ⟨haborted, rfl⟩
          | written => exact ⟨haborted, rfl⟩
          | unacknowledged => exact ⟨haborted, rfl⟩
  | true =>
      have hfinalized : Releases.Commits _ p finalized _ _
          (Releases.finalizeCommit _ finalizedAt p.record p.rollback finalized) :=
        Releases.commits_finalizeCommit hp h
      have hholds := hfinalized.holds
      rw [hwrites] at hholds
      have hended := hfinalized.ok
      rw [hwrites, Bool.true_and] at hended
      cases hkeeps : (finalized = .written || !restores : Bool) with
      | true =>
          have hsteps := durableSteps_kept (a := ⟨_, true, _, _, _⟩) hok rfl (hended ▸ hkeeps)
          match n with
          | 0 =>
              rw [release, hsteps]
              exact ⟨h, rfl⟩
          | 1 =>
              rw [release, hsteps]
              exact ⟨h, rfl⟩
          | n + 2 =>
              simp only [release, hsteps, List.take_succ_cons, List.take_nil]
              cases finalized with
              | written => exact ⟨hholds, rfl⟩
              | lost =>
                  obtain rfl : restores = false := by simpa using hkeeps
                  exact ⟨hholds, rfl⟩
              | unacknowledged =>
                  obtain rfl : restores = false := by simpa using hkeeps
                  exact ⟨hholds, rfl⟩
      | false =>
          have hsteps := durableSteps_restored (a := ⟨_, true, _, _, _⟩) hok rfl (hended ▸ hkeeps)
          simp only [Bool.or_eq_false_iff, decide_eq_false_iff_not, Bool.not_eq_false'] at hkeeps
          obtain ⟨hfails, rfl⟩ := hkeeps
          -- The journal is degraded, so the abortion does not get into it.
          have hcommits : Releases.Commits _ p aborted _ _
              (Releases.abortCommit _ abortedAt p.record p.rollback "audit_failed_compensated"
                aborted) :=
            Releases.commits_abortCommit hp hholds
          have haborted := hcommits.holds
          rw [hfinalized.writable, hended, decide_eq_false hfails, Bool.false_and] at haborted
          match n with
          | 0 =>
              rw [release, hsteps]
              exact ⟨h, rfl⟩
          | 1 =>
              rw [release, hsteps]
              exact ⟨h, rfl⟩
          | 2 =>
              rw [release, hsteps]
              cases finalized with
              | written => exact absurd rfl hfails
              | lost => exact ⟨hholds, rfl⟩
              | unacknowledged => exact ⟨hholds, rfl⟩
          | 3 =>
              rw [release, hsteps]
              cases finalized with
              | written => exact absurd rfl hfails
              | lost => exact ⟨hholds, rfl⟩
              | unacknowledged => exact ⟨hholds, rfl⟩
          | n + 4 =>
              simp only [release, hsteps, List.take_succ_cons, List.take_nil]
              cases finalized with
              | written => exact absurd rfl hfails
              | lost => exact ⟨haborted, rfl⟩
              | unacknowledged => exact ⟨haborted, rfl⟩

/-- A release leaves in the two files what it comes to. -/
theorem release_reaches (hp : p.Sound)
    (hnew : s.releases.manager.pending.get? p.record.operationID = none) (h : s.releases.Holds m)
    (a : Answers) (n : Nat) :
    (s.release p a n).releases.Holds
        ((Reached.of (s.releases.writable p) a n).manager m p) ∧
      (s.release p a n).config =
        if (Reached.of (s.releases.writable p) a n).updates then p.policy else s.config := by
  cases n with
  | zero => exact ⟨h, rfl⟩
  | succ n =>
      have hprepared : s.releases.Commits p a.prepared.2 m _
          ((s.prepareCommit p a.prepared).1.releases, (s.prepareCommit p a.prepared).2) :=
        Releases.commits_prepareCommit hp hnew h
      have hok := hprepared.ok
      have hholds := hprepared.holds
      have hwrites := hprepared.writable
      cases hwritable : s.releases.writable p with
      | false =>
          rw [hwritable] at hok hholds
          simp only [release, durableSteps_refused hok, List.take_succ_cons, List.take_nil]
          exact ⟨hholds, rfl⟩
      | true =>
          rw [hwritable] at hok hholds
          cases hfate : a.prepared.2 with
          | lost =>
              rw [hfate] at hok hholds
              simp only [release, durableSteps_refused hok, List.take_succ_cons, List.take_nil,
                Reached.of, hfate]
              exact ⟨hholds, rfl⟩
          | unacknowledged =>
              rw [hfate] at hok hholds
              simp only [release, durableSteps_refused hok, List.take_succ_cons, List.take_nil,
                Reached.of, hfate]
              exact ⟨hholds, rfl⟩
          | written =>
              rw [hfate] at hok hholds
              exact release_reaches_of_prepared hp hfate hok (hwrites.trans hok) hholds n

end Site

/-! ## The restart -/

namespace Releases

variable {r : Releases F} {current : Config F} {intent : Intent F}

theorem reconcile_nil (h : r.manager.pending.items = []) (rank : String → Nat)
    (answers : String → Int × Fate) : r.reconcile current rank answers = (r, true) := by
  rw [reconcile, h, List.mergeSort_nil]
  rfl

theorem reconcile_singleton (h : r.manager.pending.items = [intent]) (rank : String → Nat)
    (answers : String → Int × Fate) :
    r.reconcile current rank answers =
      r.commit (answers intent.operationID).1 intent.operationID (settlingEvent current intent)
        (answers intent.operationID).2 (fun m => m.settledBy current intent) := by
  rw [reconcile, h, List.mergeSort_singleton, List.map_singleton, reconcileLoop]
  simp only [reconcileIntent_eq, reconcileLoop]
  split
  · next hok => exact Prod.ext rfl hok.symm
  · rfl

end Releases

namespace ReleaseManager

/-- What is left for a restart to settle: nothing, or one intent. And whether
the history holds the operation then. -/
structure Settling (m : ReleaseManager F) (current : Config F) (id : String) (holds : Prop) :
    Prop where
  kept : m.Kept
  decided : m.pending.items = [] ∧ (id ∈ m.operations ↔ holds) ∨
    ∃ intent, m.pending.items = [intent] ∧ id ∉ m.operations ∧
      (holds ↔ intent.operationID = id ∧ policyRevision current = intent.record.revision)

variable {m : ReleaseManager F} {current : Config F} {intent : Intent F} {id : String} {holds : Prop}

omit [Float64 F] in
theorem erase_singleton (h : m.pending.items = [intent]) :
    (m.pending.erase intent.operationID).items = [] := by
  rw [List.eq_nil_iff_forall_not_mem]
  intro other hother
  obtain ⟨hin, hne⟩ := Table.mem_erase.1 hother
  obtain rfl : other = intent := by simpa [h] using hin
  exact hne rfl

/-- The one intent settled, nothing is pending. -/
theorem Settling.settledBy (h : m.Settling current id holds) (hitems : m.pending.items = [intent]) :
    (m.settledBy current intent).pending.items = [] ∧
      (id ∈ (m.settledBy current intent).operations ↔ holds) := by
  rcases h.decided with ⟨hnone, -⟩ | ⟨other, hother, hnew, hholds⟩
  · rw [hitems] at hnone
    cases hnone
  · obtain rfl : intent = other := by simpa [hitems] using hother
    have hsound := h.kept.pending intent (by simp [hitems])
    rw [settledBy_pending, hholds]
    exact ⟨erase_singleton hitems, mem_operations_settledBy current hsound hnew⟩

end ReleaseManager

theorem Intent.Sound.settlesAlike {intent : Intent F} (h : intent.Sound) (current : Config F) :
    Releases.settlesAlike current intent = true := by
  have hnamed : intent.operationID ≠ "" := h.computed ▸ releaseOperationID_ne_empty intent.record
  simp only [Releases.settlesAlike, Bool.and_eq_true, decide_eq_true_eq]
  refine ⟨hnamed, ?_⟩
  split
  · rw [h.kept, decide_eq_true h.computed]
    rfl
  · exact decide_eq_true (Config.nonneg_of_kept h.kept)

theorem Intent.Sound.settlingEvent_marshals {intent : Intent F} (h : intent.Sound)
    (current : Config F) : (Releases.settlingEvent current intent).marshals = true := by
  rw [Releases.settlingEvent]
  split
  · rw [Releases.appliedEvent]
    split
    · exact h.marshals
    · exact h.marshals
  · exact h.marshals

namespace Site

variable {s : Site F} {id : String} {holds : Prop}

/-- The files decide whether a restart finds the operation in the history. -/
def Decides (s : Site F) (id : String) (holds : Prop) : Prop :=
  ∃ m, s.releases.Holds m ∧ m.Settling (load s.config) id holds

theorem restart_eq {m : ReleaseManager F} (h : s.releases.Holds m) (rank : String → Nat)
    (answers : String → Int × Fate) {reconciled : Releases F × Bool}
    (hreconcile : Releases.reconcile { manager := m, ledger.lines := s.releases.ledger.lines }
      (load s.config) rank answers = reconciled) :
    s.restart rank answers =
      { config := load s.config, releases := reconciled.1, running := reconciled.2 } := by
  have hlines : ReleaseManager.replay s.releases.ledger.lines = some m := h
  rw [Site.restart, hlines, ← hreconcile]

theorem restart_config {m : ReleaseManager F} (h : s.releases.Holds m) (rank : String → Nat)
    (answers : String → Int × Fate) : (s.restart rank answers).config = load s.config := by
  rw [restart_eq h rank answers rfl]

/-- A restart settles at most the one intent that is pending; and where it comes
up, nothing is pending and the manager is what the journal holds. -/
theorem restart_cases {m : ReleaseManager F} (h : s.releases.Holds m) (hkept : m.Kept)
    (hpending : m.pending.items.length ≤ 1) (rank : String → Nat)
    (answers : String → Int × Fate) :
    ∃ m', (s.restart rank answers).releases.Holds m' ∧
      (m' = m ∨ ∃ intent, m.pending.items = [intent] ∧ m' = m.settledBy (load s.config) intent) ∧
      ((s.restart rank answers).running = true →
        (s.restart rank answers).releases.manager = m' ∧ m'.pending.items = []) ∧
      ((∀ operation, (answers operation).2 = .written) →
        (s.restart rank answers).running = true) := by
  have hopened : Releases.Holds { manager := m, ledger.lines := s.releases.ledger.lines } m := h
  cases hitems : m.pending.items with
  | nil =>
      rw [restart_eq h rank answers (Releases.reconcile_nil hitems rank answers)]
      exact ⟨m, hopened, .inl rfl, fun _ => ⟨rfl, hitems⟩, fun _ => rfl⟩
  | cons intent rest =>
      obtain rfl : rest = [] := by simpa [hitems] using hpending
      have hsound := hkept.pending intent (by simp [hitems])
      have hevent := Releases.replayEvent_settlingEvent m (hsound.settlesAlike (load s.config))
      have hreconcile :
          ({ manager := m, ledger.lines := s.releases.ledger.lines } : Releases F).reconcile
            (load s.config) rank answers = _ :=
        Releases.reconcile_singleton hitems rank answers
      obtain ⟨m', hm', hsettled⟩ : ∃ m',
          (Releases.reconcile { manager := m, ledger.lines := s.releases.ledger.lines }
            (load s.config) rank answers).1.Holds m' ∧
          m' = if Releases.lands { manager := m, ledger.lines := s.releases.ledger.lines }
              (Releases.settlingEvent (load s.config) intent) (answers intent.operationID).2
            then m.settledBy (load s.config) intent else m := by
        rw [hreconcile]
        exact ⟨_, hopened.commit hevent, rfl⟩
      rw [restart_eq h rank answers rfl]
      refine ⟨m', hm', ?_, fun hok => ?_, fun hwritten => ?_⟩
      · rw [hsettled]
        split
        · exact .inr ⟨intent, rfl, rfl⟩
        · exact .inl rfl
      · simp only [hreconcile] at hok ⊢
        have hlands := hok
        rw [Releases.commit_ok, Bool.and_eq_true] at hlands
        rw [hsettled, if_pos hlands.1, Releases.commit_manager, if_pos hok,
          ReleaseManager.settledBy_pending]
        exact ⟨rfl, ReleaseManager.erase_singleton hitems⟩
      · simp only [hreconcile]
        rw [Releases.commit_ok, hwritten, Releases.lands, hsound.settlingEvent_marshals]
        rfl

/-- A restart decides nothing anew; and one that comes up has settled what was
pending. -/
theorem Decides.restart (h : s.Decides id holds) (rank : String → Nat)
    (answers : String → Int × Fate) :
    (s.restart rank answers).Decides id holds ∧
      ((s.restart rank answers).running = true →
        (s.restart rank answers).releases.manager.pending.items = [] ∧
          (id ∈ (s.restart rank answers).releases.manager.operations ↔ holds)) ∧
      ((∀ operation, (answers operation).2 = .written) →
        (s.restart rank answers).running = true) := by
  obtain ⟨m, hholds, hsettling⟩ := h
  have hpending : m.pending.items.length ≤ 1 := by
    rcases hsettling.decided with ⟨hnone, -⟩ | ⟨intent, hitems, -⟩
    · simp [hnone]
    · simp [hitems]
  obtain ⟨m', hholds', hcases, hrunning, hwritten⟩ :=
    restart_cases hholds hsettling.kept hpending rank answers
  have hsettling' : m'.Settling (load s.config) id holds := by
    rcases hcases with heq | ⟨intent, hitems, heq⟩
    · rwa [heq]
    · have hsound := hsettling.kept.pending intent (by simp [hitems])
      rw [heq]
      exact ⟨hsettling.kept.settledBy _ hsound, .inl (hsettling.settledBy hitems)⟩
  refine ⟨⟨m', hholds', ?_⟩, fun hup => ?_, hwritten⟩
  · rwa [restart_config hholds]
  · obtain ⟨hmanager, hnone⟩ := hrunning hup
    rw [hmanager]
    refine ⟨hnone, ?_⟩
    rcases hsettling'.decided with ⟨-, hiff⟩ | ⟨intent, hitems, -⟩
    · exact hiff
    · rw [hnone] at hitems
      cases hitems

/-! ## Runs -/

/-- What every run keeps: the journal leaves at most one intent to settle; and a
process whose journal takes appends has nothing pending, and holds what the
journal does. -/
structure Sound (s : Site F) : Prop where
  durable : ∃ m, s.releases.Holds m ∧ m.Kept ∧ m.pending.items.length ≤ 1
  kept : s.running = true → s.releases.manager.Kept
  idle : s.running = true → s.releases.ledger.degraded = false →
    s.releases.Replays ∧ s.releases.manager.pending.items = []

theorem Sound.restart (h : s.Sound) (rank : String → Nat) (answers : String → Int × Fate) :
    (s.restart rank answers).Sound := by
  obtain ⟨m, hholds, hkept, hpending⟩ := h.durable
  obtain ⟨m', hholds', hcases, hrunning, -⟩ := restart_cases hholds hkept hpending rank answers
  have hkept' : m'.Kept ∧ m'.pending.items.length ≤ 1 := by
    rcases hcases with heq | ⟨intent, hitems, heq⟩
    · rw [heq]
      exact ⟨hkept, hpending⟩
    · rw [heq]
      refine ⟨hkept.settledBy _ (hkept.pending intent (by simp [hitems])), ?_⟩
      rw [ReleaseManager.settledBy_pending, ReleaseManager.erase_singleton hitems]
      exact Nat.zero_le 1
  refine ⟨⟨m', hholds', hkept'⟩, fun hup => ?_, fun hup _ => ?_⟩
  · rw [(hrunning hup).1]
    exact hkept'.1
  · rw [Releases.Replays, (hrunning hup).1]
    exact ⟨hholds', (hrunning hup).2⟩

theorem Sound.saveDraft (h : s.Sound) (hup : s.running = true) (u : Unicode) (now : Int)
    {raw policy : Config F} (hread : raw.readBack = some policy) (expectedRevision : String)
    (fate : Fate) :
    ({ s with releases := (s.releases.saveDraft u now policy expectedRevision fate).1 } :
      Site F).Sound := by
  rcases s.releases.saveDraft_eq u now policy expectedRevision fate with heq | ⟨hvalid, heq⟩
  · rw [heq]
    exact h
  · have hsize : policy.sizeKept = true := Config.kept_of_readBack hread (nonneg_of_valid hvalid)
    have hdraft (m : ReleaseManager F) (hkept : m.Kept) :
        ({ m with draft := some (Releases.draftOf policy) } : ReleaseManager F).Kept := by
      refine ⟨fun draft hin => ?_, hkept.history, hkept.pending⟩
      obtain rfl := Option.some.inj hin
      exact Config.sizeKept_of_shadow rfl hsize
    obtain ⟨m, hholds, hkept, hpending⟩ := h.durable
    rw [heq]
    refine ⟨⟨_, hholds.commit (Releases.replayEvent_draftSaved m hsize), ?_⟩, fun _ => ?_,
      fun _ hhealthy => ?_⟩
    · split
      · exact ⟨hdraft m hkept, hpending⟩
      · exact ⟨hkept, hpending⟩
    · simp only [Releases.commit_manager]
      split
      · exact hdraft _ (h.kept hup)
      · exact h.kept hup
    · simp only [Releases.commit_degraded, Bool.not_eq_false'] at hhealthy
      have hbefore : s.releases.ledger.degraded = false := by
        by_contra hdegraded
        rw [Releases.commit_of_degraded (by simpa using hdegraded)] at hhealthy
        cases hhealthy
      obtain ⟨hreplays, hnone⟩ := h.idle hup hbefore
      refine ⟨hreplays.commit (Releases.replayEvent_draftSaved _ hsize) hhealthy, ?_⟩
      simp only [Releases.commit_manager, hhealthy, if_true]
      exact hnone

/-- What the process knows of its releases while it runs. -/
structure Live (r : Releases F) (pending : List (Intent F)) : Prop where
  kept : r.manager.Kept
  idle : r.ledger.degraded = false → r.Replays ∧ r.manager.pending.items = pending

theorem Live.of_degraded {r : Releases F} (hkept : r.manager.Kept)
    (h : r.ledger.degraded = true) (pending : List (Intent F)) : Live r pending :=
  ⟨hkept, fun hhealthy => by rw [h] at hhealthy; cases hhealthy⟩

variable {r : Releases F} {p : Prepared F} {now : Int} {fate : Fate}

theorem Live.prepareCommit (h : Live r []) (hhealthy : r.ledger.degraded = false) (hp : p.Sound) :
    Live (r.prepareCommit now p.record p.rollback fate).1
      (if (r.prepareCommit now p.record p.rollback fate).2 then [p.intent] else []) := by
  obtain ⟨hreplays, hnone⟩ := h.idle hhealthy
  have hempty : r.manager.pending = ∅ := Table.ext hnone
  have hnew : r.manager.pending.get? p.record.operationID = none := by rw [hempty]; rfl
  have hcommits : r.Commits p fate _ _ (r.prepareCommit now p.record p.rollback fate) :=
    Releases.commits_prepareCommit hp hnew hreplays
  have hok := hcommits.ok
  rw [Releases.prepareCommit_eq p.rollback (by rwa [hp.identified])] at hok ⊢
  simp only [hp.identified] at hok ⊢
  split
  · next hacknowledged =>
      rw [hacknowledged, eq_comm, Bool.and_eq_true, Releases.writable, Bool.and_eq_true] at hok
      constructor
      · rw [Releases.commit_manager, if_pos hacknowledged]
        exact h.kept.set (hp.intent hok.1.2)
      · intro _
        refine ⟨hreplays.commit (Releases.replayEvent_releasePrepared _ hp.kept hp.named)
          hacknowledged, ?_⟩
        rw [Releases.commit_manager, if_pos hacknowledged, hempty]
        rfl
  · next hfails =>
      refine Live.of_degraded ?_ (by rw [Releases.commit_degraded]; simpa using hfails) _
      rw [Releases.commit_manager, if_neg hfails]
      exact h.kept

theorem Live.finalizeCommit (h : Live r [p.intent]) (hhealthy : r.ledger.degraded = false)
    (hp : p.Sound) : Live (r.finalizeCommit now p.record p.rollback fate).1 [] := by
  obtain ⟨hreplays, hitems⟩ := h.idle hhealthy
  have hevent := Releases.replayEvent_applied r.manager p.rollback hp.kept
  rw [← hp.computed] at hevent
  rw [Releases.finalizeCommit_eq]
  simp only [hp.identified]
  constructor
  · rw [Releases.commit_manager]
    split
    · exact h.kept.releasedAs hp.kept _
    · exact h.kept
  · intro hstill
    rw [Releases.commit_degraded, Bool.not_eq_false'] at hstill
    refine ⟨hreplays.commit hevent hstill, ?_⟩
    rw [Releases.commit_manager, if_pos hstill, ReleaseManager.releasedAs_pending]
    exact ReleaseManager.erase_singleton hitems

theorem Live.abortCommit {reason : String} (h : Live r [p.intent])
    (hhealthy : r.ledger.degraded = false) (hp : p.Sound) :
    Live (r.abortCommit now p.record p.rollback reason fate).1 [] := by
  obtain ⟨hreplays, hitems⟩ := h.idle hhealthy
  rw [Releases.abortCommit_eq]
  simp only [hp.identified]
  constructor
  · rw [Releases.commit_manager]
    split
    · exact h.kept.erase _
    · exact h.kept
  · intro hstill
    rw [Releases.commit_degraded, Bool.not_eq_false'] at hstill
    refine ⟨hreplays.commit (Releases.replayEvent_releaseAborted _
      (Config.nonneg_of_kept hp.kept) hp.named) hstill, ?_⟩
    rw [Releases.commit_manager, if_pos hstill]
    exact ReleaseManager.erase_singleton hitems

/-- The process that goes on after a release. -/
theorem Live.durableSteps (h : Live s.releases []) (hhealthy : s.releases.ledger.degraded = false)
    (hp : p.Sound) (a : Answers) : Live ((s.durableSteps p a).getLastD s).releases [] := by
  have hprepared : Live (s.prepareCommit p a.prepared).1.releases
      (if (s.prepareCommit p a.prepared).2 then [p.intent] else []) :=
    h.prepareCommit hhealthy hp
  cases hok : (s.prepareCommit p a.prepared).2 with
  | false =>
      rw [hok] at hprepared
      rw [durableSteps_refused hok]
      exact hprepared
  | true =>
      rw [hok] at hprepared
      obtain ⟨hreplays, hnone⟩ := h.idle hhealthy
      have hempty : s.releases.manager.pending = ∅ := Table.ext hnone
      have hcommits : s.releases.Commits p a.prepared.2 _ _
          (s.releases.prepareCommit a.prepared.1 p.record p.rollback a.prepared.2) :=
        Releases.commits_prepareCommit hp (by rw [hempty]; rfl) hreplays
      have hstill : (s.prepareCommit p a.prepared).1.releases.ledger.degraded = false :=
        hcommits.healthy hok
      cases hupdates : a.updates with
      | false =>
          rw [durableSteps_aborted hok hupdates]
          exact hprepared.abortCommit hstill hp
      | true =>
          have hfinalized : Live ((s.updated p a).finalizeCommit p a.finalized).1.releases [] :=
            hprepared.finalizeCommit hstill hp
          cases hkeeps : (((s.updated p a).finalizeCommit p a.finalized).2 || !a.restores) with
          | true =>
              rw [durableSteps_kept hok hupdates hkeeps]
              exact hfinalized
          | false =>
              rw [durableSteps_restored hok hupdates hkeeps]
              have hfails : ((s.updated p a).finalizeCommit p a.finalized).2 = false :=
                (Bool.or_eq_false_iff.1 hkeeps).1
              have hdegraded :
                  ((s.updated p a).finalizeCommit p a.finalized).1.releases.ledger.degraded =
                    true := by
                show (Releases.finalizeCommit _ _ _ _ _).1.ledger.degraded = true
                rw [Releases.finalizeCommit_degraded, Bool.not_eq_true']
                exact hfails
              have hlast : Live (Releases.abortCommit
                  ((s.updated p a).finalizeCommit p a.finalized).1.releases a.aborted.1 p.record
                  p.rollback "audit_failed_compensated" a.aborted.2).1 [] := by
                rw [Releases.abortCommit_of_degraded hdegraded]
                exact hfinalized
              exact hlast

/-- A release over a degraded journal leaves the releases as they are. -/
theorem durableSteps_of_degraded (h : s.releases.ledger.degraded = true) (a : Answers) :
    ∀ s' ∈ s.durableSteps p a, s'.releases = s.releases := by
  have hprepared : (s.prepareCommit p a.prepared).1.releases = s.releases :=
    Releases.prepareCommit_of_degraded h
  have hfinalized : ((s.updated p a).finalizeCommit p a.finalized).1.releases = s.releases := by
    have hstill : (s.updated p a).releases.ledger.degraded = true := by
      show (s.prepareCommit p a.prepared).1.releases.ledger.degraded = true
      rwa [hprepared]
    exact (Releases.finalizeCommit_of_degraded hstill).trans hprepared
  have haborted (s' : Site F) (hs' : s'.releases = s.releases) (reason : String) :
      (s'.abortCommit p reason a.aborted).releases = s.releases := by
    show (Releases.abortCommit _ _ _ _ _ _).1 = _
    rw [hs', Releases.abortCommit_of_degraded h]
  cases hok : (s.prepareCommit p a.prepared).2 with
  | false =>
      rw [durableSteps_refused hok]
      simp [hprepared]
  | true =>
      cases hupdates : a.updates with
      | false =>
          rw [durableSteps_aborted hok hupdates]
          simp [hprepared, haborted]
      | true =>
          have hupdated : (s.updated p a).releases = s.releases := hprepared
          cases hkeeps : (((s.updated p a).finalizeCommit p a.finalized).2 || !a.restores) with
          | true =>
              rw [durableSteps_kept hok hupdates hkeeps]
              simp [hprepared, hupdated, hfinalized]
          | false =>
              rw [durableSteps_restored hok hupdates hkeeps]
              simp [hprepared, hupdated, hfinalized, haborted]

theorem release_of_degraded (h : s.releases.ledger.degraded = true) (a : Answers) (n : Nat) :
    (s.release p a n).releases = s.releases := by
  have hlast : ((s.durableSteps p a).take n).getLastD s ∈ s :: (s.durableSteps p a).take n :=
    List.getLastD_mem_cons
  show (((s.durableSteps p a).take n).getLastD s).releases = s.releases
  rcases List.mem_cons.1 hlast with heq | hin
  · rw [heq]
  · exact durableSteps_of_degraded h a _ (List.mem_of_mem_take hin)

/-- What a release comes to leaves at most its own intent to settle. -/
theorem kept_reached {m : ReleaseManager F} (hm : m.Kept) (hnone : m.pending.items = [])
    (hp : p.Sound) (hintent : p.intent.Sound) (reached : Reached) :
    (reached.manager m p).Kept ∧ (reached.manager m p).pending.items.length ≤ 1 := by
  have hempty : m.pending = ∅ := Table.ext hnone
  have hset : (m.pending.set p.intent).items = [p.intent] := by rw [hempty]; rfl
  have hsettled : ((m.pending.set p.intent).erase p.record.operationID).items = [] :=
    ReleaseManager.erase_singleton (m := { m with pending := m.pending.set p.intent }) hset
  have hprepared := hm.set hintent
  cases reached with
  | nothing => exact ⟨hm, by rw [Reached.manager, hnone]; exact Nat.zero_le 1⟩
  | prepared => exact ⟨hprepared, by rw [Reached.manager, hset]; exact Nat.le_refl 1⟩
  | applied => exact ⟨hprepared, by rw [Reached.manager, hset]; exact Nat.le_refl 1⟩
  | released =>
      refine ⟨hprepared.releasedAs hp.kept _, ?_⟩
      rw [Reached.manager, ReleaseManager.releasedAs_pending, hsettled]
      exact Nat.zero_le 1
  | compensated =>
      refine ⟨hprepared.releasedAs hp.kept _, ?_⟩
      rw [Reached.manager, ReleaseManager.releasedAs_pending, hsettled]
      exact Nat.zero_le 1
  | aborted =>
      refine ⟨hprepared.erase _, ?_⟩
      rw [Reached.manager, hsettled]
      exact Nat.zero_le 1

theorem Sound.release (h : s.Sound) (hup : s.running = true) (hp : p.Sound) (a : Answers) (n : Nat) :
    (s.release p a n).Sound := by
  cases hdegraded : s.releases.ledger.degraded with
  | true =>
      have hsame := release_of_degraded (p := p) hdegraded a n
      refine ⟨by rw [hsame]; exact h.durable, fun _ => by rw [hsame]; exact h.kept hup,
        fun _ hhealthy => ?_⟩
      rw [hsame, hdegraded] at hhealthy
      cases hhealthy
  | false =>
      obtain ⟨hreplays, hnone⟩ := h.idle hup hdegraded
      have hempty : s.releases.manager.pending = ∅ := Table.ext hnone
      have hlive : Live s.releases [] := ⟨h.kept hup, fun _ => ⟨hreplays, hnone⟩⟩
      have hlast (hend : (s.release p a n).running = true) : Live (s.release p a n).releases [] := by
        have hall : (s.durableSteps p a).take n = s.durableSteps p a :=
          List.take_of_length_le (of_decide_eq_true hend)
        show Live (((s.durableSteps p a).take n).getLastD s).releases []
        rw [hall]
        exact hlive.durableSteps hdegraded hp a
      refine ⟨⟨_, (release_reaches hp (by rw [hempty]; rfl) hreplays a n).1, ?_⟩,
        fun hend => (hlast hend).kept, fun hend hhealthy => (hlast hend).idle hhealthy⟩
      cases hwritable : s.releases.writable p with
      | false =>
          have hnothing : Reached.of false a n = .nothing := by cases n <;> rfl
          rw [hnothing]
          exact ⟨h.kept hup, by rw [Reached.manager, hnone]; exact Nat.zero_le 1⟩
      | true =>
          rw [Releases.writable, Bool.and_eq_true] at hwritable
          exact kept_reached (h.kept hup) hnone hp (hp.intent hwritable.2) _

theorem Sound.step (u : Unicode) (h : s.Sound) (op : Op F) : (Site.step u s op).Sound := by
  cases op with
  | saveDraft now raw expectedRevision fate =>
      simp only [Site.step]
      split
      · next policy hread =>
          split
          · next hup => exact h.saveDraft hup u now hread expectedRevision fate
          · exact h
      · exact h
  | release now request actor answers steps =>
      simp only [Site.step]
      split
      · next prepared hprepared =>
          split
          · next hup => exact h.release hup (sound_of_prepare (h.kept hup) hprepared) answers steps
          · exact h
      · exact h
  | restart rank answers => exact h.restart rank answers

theorem sound_run (u : Unicode) (config : Config F) (ops : List (Op F)) :
    (run u { config := config } ops).Sound := by
  refine foldl_invariant (fun s op h => h.step u op) ?_ ops
  exact ⟨⟨{}, rfl, ReleaseManager.kept_empty, Nat.zero_le 1⟩, fun _ => ReleaseManager.kept_empty,
    fun _ _ => ⟨rfl, rfl⟩⟩

/-! ## The release and the configuration -/

/-- The operation is neither pending nor in the journal. -/
def Unused (s : Site F) (id : String) : Prop :=
  s.releases.manager.pending.get? id = none ∧
    ∀ m, s.releases.Holds m → id ∉ m.operations ∧ m.pending.get? id = none

/-- Whether the history holds a release that came this far, once a restart has
settled what was pending. -/
def holdsRelease (previous : Config F) (p : Prepared F) : Reached → Prop
  | .nothing | .aborted => False
  | .prepared => policyRevision (load previous) = policyRevision p.policy
  | .applied => policyRevision (load p.policy) = policyRevision p.policy
  | .released | .compensated => True

theorem decides_release (h : s.Sound) (hup : s.running = true) (hp : p.Sound)
    (hunused : s.Unused p.record.operationID) (a : Answers) (n : Nat) :
    (s.release p a n).Decides p.record.operationID
        (holdsRelease s.config p (Reached.of (s.releases.writable p) a n)) ∧
      (s.release p a n).config =
        if (Reached.of (s.releases.writable p) a n).updates then p.policy else s.config := by
  obtain ⟨m, hholds, hkept, hpending⟩ := h.durable
  obtain ⟨hnew, hother⟩ := hunused.2 m hholds
  obtain ⟨hreached, hconfig⟩ := release_reaches hp hunused.1 hholds a n
  refine ⟨⟨_, hreached, ?_⟩, hconfig⟩
  rw [hconfig]
  cases hwritable : s.releases.writable p with
  | false =>
      have hnothing : Reached.of false a n = .nothing := by cases n <;> rfl
      rw [hnothing]
      refine ⟨hkept, ?_⟩
      cases hitems : m.pending.items with
      | nil => exact .inl ⟨hitems, iff_of_false hnew id⟩
      | cons intent rest =>
          obtain rfl : rest = [] := by simpa [hitems] using hpending
          refine .inr ⟨intent, hitems, hnew, iff_of_false id fun hsame => ?_⟩
          exact Table.get?_eq_none.1 hother intent (by simp [hitems]) hsame.1
  | true =>
      rw [Releases.writable, Bool.and_eq_true, Bool.not_eq_true'] at hwritable
      obtain ⟨hreplays, hnone⟩ := h.idle hup hwritable.1
      obtain rfl : m = s.releases.manager := Option.some.inj (hholds.symm.trans hreplays)
      have hempty : s.releases.manager.pending = ∅ := Table.ext hnone
      have hset : (s.releases.manager.pending.set p.intent).items = [p.intent] := by
        rw [hempty]
        rfl
      have hsettled : ((s.releases.manager.pending.set p.intent).erase p.record.operationID).items =
          [] :=
        ReleaseManager.erase_singleton
          (m := { s.releases.manager with pending := s.releases.manager.pending.set p.intent }) hset
      refine ⟨(kept_reached hkept hnone hp (hp.intent hwritable.2) _).1, ?_⟩
      cases Reached.of true a n with
      | nothing => exact .inl ⟨hnone, iff_of_false hnew id⟩
      | prepared => exact .inr ⟨p.intent, hset, hnew, by simp [holdsRelease, Prepared.intent, Reached.updates, hp.revision]⟩
      | applied => exact .inr ⟨p.intent, hset, hnew, by simp [holdsRelease, Prepared.intent, Reached.updates, hp.revision]⟩
      | released =>
          refine .inl ⟨?_, iff_of_true (ReleaseManager.mem_operations_appendHistory _ _) trivial⟩
          rwa [Reached.manager, ReleaseManager.releasedAs_pending]
      | compensated =>
          refine .inl ⟨?_, iff_of_true (ReleaseManager.mem_operations_appendHistory _ _) trivial⟩
          rwa [Reached.manager, ReleaseManager.releasedAs_pending]
      | aborted => exact .inl ⟨hsettled, iff_of_false hnew id⟩

/-- Nothing is pending, and the history holds the release just where its policy
is the one of the configuration. -/
def Agrees (s : Site F) (p : Prepared F) : Prop :=
  s.releases.manager.pending.items = [] ∧
    (p.record.operationID ∈ s.releases.manager.operations ↔ SameContent s.config p.policy)

/-- What the agreement comes down to, for a release that came this far. -/
def agreesAt (previous : Config F) (p : Prepared F) : Reached → Prop
  | .nothing | .aborted => ¬SameContent previous p.policy
  | .prepared =>
      (policyRevision (load previous) = policyRevision p.policy ↔ SameContent previous p.policy)
  | .applied => policyRevision (load p.policy) = policyRevision p.policy
  | .released => True
  | .compensated => SameContent previous p.policy

omit [Float64 F] in
theorem sameContent_load (policy policy' : Config F) :
    SameContent (load policy) policy' ↔ SameContent policy policy' := by
  have hload : cloneConfig { load policy with revision := "" } =
      cloneConfig { policy with revision := "" } := by
    simp only [cloneConfig, load]
    cases policy.rules with
    | none => rfl
    | some rules => rfl
  rw [SameContent, SamePolicy, hload]
  rfl

/-- Restarts after each other. -/
def restarts (s : Site F) (tries : List ((String → Nat) × (String → Int × Fate))) : Site F :=
  tries.foldl (fun s t => s.restart t.1 t.2) s

theorem Decides.restarts (h : s.Decides id holds)
    (tries : List ((String → Nat) × (String → Int × Fate))) :
    (s.restarts tries).Decides id holds ∧
      load (s.restarts tries).config = load s.config := by
  induction tries generalizing s with
  | nil => exact ⟨h, rfl⟩
  | cons t tries ih =>
      obtain ⟨hdecides, hconfig⟩ := ih (h.restart t.1 t.2).1
      obtain ⟨m, hholds, -⟩ := h
      refine ⟨hdecides, hconfig.trans ?_⟩
      rw [restart_config hholds]
      rfl

theorem agrees_iff (h : s.Sound) (hup : s.running = true) (hp : p.Sound)
    (hunused : s.Unused p.record.operationID) (a : Answers) (n : Nat)
    (tries : List ((String → Nat) × (String → Int × Fate))) (rank : String → Nat)
    (answers : String → Int × Fate) :
    ((((s.release p a n).restarts tries).restart rank answers).running = true →
      ((((s.release p a n).restarts tries).restart rank answers).Agrees p ↔
        agreesAt s.config p (Reached.of (s.releases.writable p) a n))) ∧
    ((∀ operation, (answers operation).2 = .written) →
      (((s.release p a n).restarts tries).restart rank answers).running = true) := by
  obtain ⟨hreached, hpolicy⟩ := decides_release h hup hp hunused a n
  obtain ⟨hdecides, hconfig⟩ := hreached.restarts tries
  obtain ⟨-, hcomesUp, hwritten⟩ := hdecides.restart rank answers
  refine ⟨fun hrunning => ?_, hwritten⟩
  obtain ⟨hnone, hhistory⟩ := hcomesUp hrunning
  obtain ⟨m, hholds, -⟩ := hdecides
  rw [Agrees, hhistory, restart_config hholds, hconfig, hpolicy, sameContent_load]
  simp only [hnone, true_and]
  have hsame : SameContent p.policy p.policy := rfl
  cases Reached.of (s.releases.writable p) a n with
  | nothing => simp [holdsRelease, agreesAt, Reached.updates]
  | prepared => simp [holdsRelease, agreesAt, Reached.updates]
  | applied => simp [holdsRelease, agreesAt, Reached.updates, hsame]
  | released => simp [holdsRelease, agreesAt, Reached.updates, hsame]
  | compensated => simp [holdsRelease, agreesAt, Reached.updates]
  | aborted => simp [holdsRelease, agreesAt, Reached.updates]

/-- After any run, a release under an operation that was not used before, of
which any number of durable steps are taken with any of its appends failing, and
then any restarts: one that comes up finds nothing pending, and the release in
the history just where its policy is the one of the configuration, exactly if
`agreesAt` says so of what the release came to; and a restart whose appends
succeed comes up. -/
theorem restart_agrees_iff (u : Unicode) (config : Config F) (before : List (Op F)) {now : Int}
    {request : Request F} {actor : String} {p : Prepared F}
    (hup : (run u { config := config } before).running = true)
    (hprepared : (run u { config := config } before).prepare u now actor request = some p)
    (hunused : (run u { config := config } before).Unused p.record.operationID) (a : Answers)
    (steps : Nat) (tries : List ((String → Nat) × (String → Int × Fate))) (rank : String → Nat)
    (answers : String → Int × Fate) :
    let s := run u { config := config } before
    let restarted := ((s.step u (.release now request actor a steps)).restarts tries).restart rank
      answers
    (restarted.running = true →
      (restarted.Agrees p ↔
        agreesAt s.config p (Reached.of (s.releases.writable p) a steps))) ∧
    ((∀ operation, (answers operation).2 = .written) → restarted.running = true) := by
  have hsound := sound_run u config before
  have hp := sound_of_prepare (hsound.kept hup) hprepared
  have hstep : Site.step u (run u { config := config } before) (.release now request actor a steps) =
      (run u { config := config } before).release p a steps := by
    simp only [Site.step, hprepared, hup, if_true]
  intro s restarted
  simp only [s, restarted, hstep]
  exact agrees_iff hsound hup hp hunused a steps tries rank answers

/-! ## A policy without rules -/

/-- The default policy with adaptive routing, as it is released. -/
def fullPolicy : Config ℚ := { adaptivePolicy with releaseStage := "full", canaryPercent := 100 }

def fullRelease : Prepared ℚ :=
  ⟨(Releases.recordOf fullPolicy "full" 0 "admin").1,
    (Releases.recordOf fullPolicy "full" 0 "admin").2, false⟩

theorem revisions_fullPolicy :
    policyRevision { fullPolicy with rules := some [] } = "62aa9ce6735e5c42" ∧
      policyRevision fullPolicy = "6bac71bb594f2144" := by
  rw [policyRevision_eq_nat, policyRevision_eq_nat]
  constructor
  · decide +kernel
  · decide +kernel

/-- A site whose policy is switched off. -/
def quiet : Site ℚ := { config := { adaptivePolicy with enabled := false } }

def publishFull : Request ℚ := .publish (some adaptivePolicy) "" "full" 0

theorem prepare_publishFull : quiet.prepare ascii 0 "admin" publishFull = some fullRelease := by
  have hread : adaptivePolicy.readBack = some adaptivePolicy :=
    Config.readBack_of_kept (by decide +kernel)
  have hvalid : validateCandidate ascii fullPolicy = true := by decide +kernel
  have hrelease : quiet.releases.preparePublish ascii 0 (some adaptivePolicy) "full" 0 "admin" =
      .ok (Releases.recordOf fullPolicy "full" 0 "admin") := by
    rw [Releases.preparePublish, if_neg (by decide)]
    simp only [Releases.candidate]
    rw [if_neg (by decide)]
    exact if_neg (by rw [Bool.not_eq_true', Bool.not_eq_false]; exact hvalid)
  simp only [prepare, publishFull, hread, hrelease, Option.bind_eq_bind, Option.bind_some]
  rfl

theorem unused_fullRelease : quiet.Unused fullRelease.record.operationID := by
  refine ⟨rfl, fun m hholds => ?_⟩
  obtain rfl : {} = m := Option.some.inj hholds
  exact ⟨List.not_mem_nil, rfl⟩

theorem restart_agrees_published :
    ((quiet.step ascii (.release 0 publishFull "admin" {} 3)).restart (fun _ => 0)
      (fun _ => (1, .written))).Agrees fullRelease := by
  have h := restart_agrees_iff ascii quiet.config [] (p := fullRelease) rfl prepare_publishFull
    unused_fullRelease {} 3 [] (fun _ => 0) (fun _ => (1, .written))
  have hwritable : quiet.releases.writable fullRelease = true := by decide +kernel
  refine (h.1 (h.2 fun _ => rfl)).2 ?_
  show agreesAt _ _ (Reached.of (quiet.releases.writable fullRelease) {} 3)
  rw [hwritable]
  trivial

/-- Stopped once the configuration is written, the release of a policy without
rules is aborted though the configuration holds it. -/
theorem aborted_though_applied :
    let restarted := (quiet.step ascii (.release 0 publishFull "admin" {} 2)).restart (fun _ => 0)
      (fun _ => (1, .written))
    restarted.running = true ∧ ¬restarted.Agrees fullRelease := by
  have hsound : quiet.Sound := sound_run ascii quiet.config []
  have hp : fullRelease.Sound := sound_of_prepare ReleaseManager.kept_empty prepare_publishFull
  have hwritable : quiet.releases.writable fullRelease = true := by decide +kernel
  obtain ⟨hiff, hcomesUp⟩ := agrees_iff hsound rfl hp unused_fullRelease {} 2 [] (fun _ => 0)
    (fun _ => (1, .written))
  have hstep : quiet.step ascii (.release 0 publishFull "admin" {} 2) =
      quiet.release fullRelease {} 2 := by
    simp only [Site.step, prepare_publishFull]
    rfl
  intro restarted
  simp only [restarted, hstep]
  refine ⟨hcomesUp fun _ => rfl, fun hagrees => ?_⟩
  have hrevisions := (hiff (hcomesUp fun _ => rfl)).1 hagrees
  rw [hwritable] at hrevisions
  have hreload : policyRevision (load fullRelease.policy) = policyRevision fullRelease.policy :=
    hrevisions
  have hpolicy : fullRelease.policy = { fullPolicy with revision := policyRevision fullPolicy } := by
    simp only [fullRelease, Releases.recordOf]
  have hloaded : load { fullPolicy with revision := policyRevision fullPolicy } =
      { ({ fullPolicy with rules := some [] } : Config ℚ) with
        revision := policyRevision fullPolicy } := by
    simp only [load, fullPolicy, adaptivePolicy, Option.getD_none]
  have hsame : policyRevision { fullPolicy with rules := some [] } = policyRevision fullPolicy := by
    rwa [hpolicy, hloaded, policyRevision_label, policyRevision_label] at hreload
  rw [revisions_fullPolicy.1, revisions_fullPolicy.2] at hsame
  revert hsame
  decide

end Site

end RelayLifeline.Policy
