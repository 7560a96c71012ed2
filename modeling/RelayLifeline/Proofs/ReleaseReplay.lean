import Mathlib.Data.Nat.Log
import RelayLifeline.Lib.Trace
import RelayLifeline.Policy.Release

/-!
# A restarted release manager

Each change of the release manager is appended first and made then, so the
manager is at any time what a replay of its journal gives, as long as what was
appended reads back as it was, and as long as a published record names the
operation it was prepared under: the replay of a publication closes the
operation it computes from the record, and not the one the record names.
-/

namespace RelayLifeline.Policy

open Journal Lib

variable {F : Type}

/-! ## Reading back -/

/-- The byte size of the policy survives its text. -/
def Config.sizeKept (policy : Config F) : Bool :=
  readByteSize policy.shadow.maxRequestBody = some policy.shadow.maxRequestBody

theorem Config.sizeKept_of_shadow {policy policy' : Config F} (hshadow : policy'.shadow = policy.shadow)
    (h : policy.sizeKept = true) : policy'.sizeKept = true := by
  rwa [sizeKept, hshadow]

theorem byteUnit_dvd (n : Nat) : byteUnit (n : Int) ∣ n := by
  simp only [byteUnit]
  split
  · omega
  · split
    · omega
    · split
      · omega
      · exact one_dvd n

theorem byteUnit_eq_pow (value : Int) : ∃ j, byteUnit value = 2 ^ j := by
  simp only [byteUnit]
  split
  · exact ⟨30, rfl⟩
  · split
    · exact ⟨20, rfl⟩
    · split
      · exact ⟨10, rfl⟩
      · exact ⟨0, rfl⟩

/-- A number of 53 bits followed by zeros is a float. -/
theorem nearestFloat_mul_pow {a : Nat} (k : Nat) (h : a < 2 ^ 53) :
    nearestFloat (a * 2 ^ k) = a * 2 ^ k := by
  rw [nearestFloat]
  split
  · rfl
  · next hlarge =>
      have hne : a * 2 ^ k ≠ 0 := by omega
      have hlog : Nat.log2 (a * 2 ^ k) < 53 + k := by
        rw [Nat.log2_lt hne, pow_add]
        exact Nat.mul_lt_mul_of_pos_right h (Nat.two_pow_pos k)
      have hdvd : 2 ^ (Nat.log2 (a * 2 ^ k) - 52) ∣ a * 2 ^ k :=
        (pow_dvd_pow 2 (by omega)).mul_left a
      simp only [Nat.mod_eq_zero_of_dvd hdvd, Nat.mul_zero, Nat.not_lt_zero, false_or]
      rw [if_neg (by have := Nat.two_pow_pos (Nat.log2 (a * 2 ^ k) - 52); omega)]
      exact Nat.div_mul_cancel hdvd

theorem nearestFloat_eq (n : Nat) : ∃ a k, a < 2 ^ 53 ∧ nearestFloat n = a * 2 ^ k := by
  rw [nearestFloat]
  split
  · next h => exact ⟨n, 0, h, (Nat.mul_one n).symm⟩
  · next h =>
      have hquotient : n / 2 ^ (Nat.log2 n - 52) < 2 ^ 53 := by
        have hlog : n < 2 ^ (Nat.log2 n + 1) := Nat.lt_log2_self
        have h53 : 53 ≤ Nat.log2 n := (Nat.le_log2 (by omega)).2 (by omega)
        rw [Nat.div_lt_iff_lt_mul (Nat.two_pow_pos _), ← pow_add]
        convert hlog using 2
        omega
      simp only
      split
      · rcases Nat.lt_or_ge (n / 2 ^ (Nat.log2 n - 52) + 1) (2 ^ 53) with hlt | hge
        · exact ⟨_, _, hlt, rfl⟩
        · refine ⟨2 ^ 52, Nat.log2 n - 52 + 1, by decide, ?_⟩
          have heq : n / 2 ^ (Nat.log2 n - 52) + 1 = 2 ^ 53 := by omega
          rw [heq, pow_succ 2 (Nat.log2 n - 52), pow_succ 2 52, Nat.mul_assoc, Nat.mul_comm 2]
      · exact ⟨_, _, hquotient, rfl⟩

theorem mul_pow_div {a k j : Nat} (ha : a < 2 ^ 53) :
    ∃ b l, b < 2 ^ 53 ∧ a * 2 ^ k / 2 ^ j = b * 2 ^ l := by
  rcases Nat.le_total j k with hle | hle
  · refine ⟨a, k - j, ha, ?_⟩
    rw [← Nat.sub_add_cancel hle, pow_add, ← Nat.mul_assoc, Nat.mul_div_cancel _ (Nat.two_pow_pos j)]
    simp
  · refine ⟨a / 2 ^ (j - k), 0, (Nat.div_le_self _ _).trans_lt ha, ?_⟩
    rw [← Nat.sub_add_cancel hle, pow_add, Nat.mul_div_mul_right _ _ (Nat.two_pow_pos k)]
    simp

/-- A size that was read from a text is what its own text gives. -/
theorem readByteSize_of_read {value size : Int} (h : readByteSize value = some size)
    (hsize : 0 ≤ size) : readByteSize size = some size := by
  obtain ⟨n, rfl⟩ := Int.eq_ofNat_of_zero_le hsize
  have hfloat : ∃ a k, a < 2 ^ 53 ∧ n = a * 2 ^ k := by
    rw [readByteSize] at h
    split at h
    · cases h
    · obtain ⟨a, k, ha, heq⟩ := nearestFloat_eq (value.toNat / byteUnit value)
      obtain ⟨j, hj⟩ := byteUnit_eq_pow value
      have hread := Option.some.inj h
      split at hread
      · refine ⟨a, k + j, ha, ?_⟩
        rw [heq, hj] at hread
        have : ((a * 2 ^ k * 2 ^ j : Nat) : Int) = n := by exact_mod_cast hread
        rw [pow_add, ← Nat.mul_assoc]
        exact_mod_cast this.symm
      · omega
  obtain ⟨a, k, ha, heq⟩ := hfloat
  obtain ⟨j, hj⟩ := byteUnit_eq_pow n
  obtain ⟨b, l, hb, hbl⟩ := mul_pow_div (j := j) (k := k) ha
  have hread : nearestFloat (n / byteUnit n) * byteUnit n = n := by
    rw [hj, heq, hbl, nearestFloat_mul_pow l hb, ← hbl, ← heq, ← hj]
    exact Nat.div_mul_cancel (byteUnit_dvd n)
  have hbound : (n : Int) < 2 ^ 63 := by
    rw [readByteSize] at h
    split at h
    · cases h
    · have := Option.some.inj h
      split at this
      · omega
      · omega
  rw [readByteSize, if_neg (by omega), Int.toNat_natCast]
  have hint : (nearestFloat (n / byteUnit n) : Int) * byteUnit n = n := by exact_mod_cast hread
  simp only [hint]
  rw [if_pos hbound]
theorem Config.readBack_of_kept {policy : Config F} (h : policy.sizeKept = true) :
    policy.readBack = some policy := by
  simp only [sizeKept, decide_eq_true_eq] at h
  simp only [readBack, h]
  rfl

theorem ReleaseRecord.readBack_of_kept {record : ReleaseRecord F}
    (h : record.policy.sizeKept = true) : record.readBack = some record := by
  simp only [readBack, Config.readBack_of_kept h]
  rfl

theorem Intent.readBack_of_kept {intent : Intent F} (h : intent.record.policy.sizeKept = true) :
    intent.readBack = some intent := by
  simp only [readBack, ReleaseRecord.readBack_of_kept h]
  rfl

/-- What is read back of an intent names the same operation. -/
theorem Intent.readBack_of_nonneg {intent : Intent F}
    (h : 0 ≤ intent.record.policy.shadow.maxRequestBody) :
    ∃ read, intent.readBack = some read ∧ read.operationID = intent.operationID := by
  have hsize : ∃ size, readByteSize intent.record.policy.shadow.maxRequestBody = some size := by
    rw [readByteSize, if_neg (by omega)]
    exact ⟨_, rfl⟩
  obtain ⟨size, hsize⟩ := hsize
  simp only [readBack, ReleaseRecord.readBack, Config.readBack, hsize]
  exact ⟨_, rfl, rfl⟩

/-! ## Operations have names -/

/-- An operation that a record gives has a name of eight bytes at least. -/
theorem le_length_releaseOperationID (record : ReleaseRecord F) :
    8 ≤ (releaseOperationID record).length := by
  simp only [releaseOperationID, String.length_append]
  exact Nat.le_add_right 8 _

theorem releaseOperationID_ne_empty (record : ReleaseRecord F) : releaseOperationID record ≠ "" := by
  intro h
  have hlen := le_length_releaseOperationID record
  rw [h] at hlen
  exact absurd hlen (by decide)

theorem identified_ne_empty (record : ReleaseRecord F) : record.identified.operationID ≠ "" := by
  rw [ReleaseRecord.identified]
  split
  · exact releaseOperationID_ne_empty record
  · next h => exact h

@[simp] theorem identified_policy (record : ReleaseRecord F) :
    record.identified.policy = record.policy := by
  rw [ReleaseRecord.identified]
  split
  · rfl
  · rfl

theorem releaseOperationID_identified (record : ReleaseRecord F) :
    releaseOperationID record.identified = releaseOperationID record := by
  rw [ReleaseRecord.identified]
  split
  · rfl
  · rfl

namespace ReleaseManager

theorem identify_of_ne {intent : Intent F} (h : intent.operationID ≠ "") :
    identify intent = intent := if_neg h

theorem replayFrom_append (m : ReleaseManager F) (lines : List (Line (Event F)))
    (line : Line (Event F)) :
    m.replayFrom (lines ++ [line]) = (m.replayFrom lines).bind fun m => m.replayEvent line.payload := by
  induction lines generalizing m with
  | nil =>
      show (m.replayEvent line.payload).bind some = m.replayEvent line.payload
      exact Option.bind_fun_some _
  | cons first lines ih =>
      show (m.replayEvent first.payload).bind _ = ((m.replayEvent first.payload).bind _).bind _
      rw [Option.bind_assoc]
      congr 1
      funext m'
      exact ih m'

/-- What `Reconcile` makes of a pending intent. -/
def settledBy [Float64 F] (m : ReleaseManager F) (current : Config F) (intent : Intent F) :
    ReleaseManager F :=
  if policyRevision current = intent.record.revision then
    m.releasedAs intent.record intent.operationID
  else { m with pending := m.pending.erase intent.operationID }

end ReleaseManager

namespace Releases

open ReleaseManager

variable {r : Releases F} {m : ReleaseManager F} {now : Int} {fate : Fate}

/-- The manager that a restart on the journal makes. -/
def Holds (r : Releases F) (m : ReleaseManager F) : Prop := replay r.ledger.lines = some m

/-- The manager is what a restart on its journal makes. -/
def Replays (r : Releases F) : Prop := r.Holds r.manager

/-! ## What each event replays as -/

theorem replayEvent_releasePrepared (m : ReleaseManager F) {intent : Intent F}
    (hkept : intent.record.policy.sizeKept = true) (hnamed : intent.operationID ≠ "") :
    m.replayEvent (.releasePrepared intent) = some { m with pending := m.pending.set intent } := by
  simp only [replayEvent, Intent.readBack_of_kept hkept, Option.bind_eq_bind, Option.bind_some,
    identify_of_ne hnamed]

theorem replayEvent_applied (m : ReleaseManager F) (rollback : Bool) {record : ReleaseRecord F}
    (hkept : record.policy.sizeKept = true) :
    m.replayEvent (appliedEvent rollback record) =
      some (m.releasedAs record (releaseOperationID record)) := by
  cases rollback with
  | false =>
      simp only [appliedEvent, Bool.false_eq_true, if_false, replayEvent,
        ReleaseRecord.readBack_of_kept hkept, Option.bind_eq_bind, Option.bind_some]
  | true =>
      simp only [appliedEvent, if_true, replayEvent, ReleaseRecord.readBack_of_kept hkept,
        Option.bind_eq_bind, Option.bind_some]

theorem replayEvent_releaseAborted (m : ReleaseManager F) {intent : Intent F}
    (hsize : 0 ≤ intent.record.policy.shadow.maxRequestBody) (hnamed : intent.operationID ≠ "") :
    m.replayEvent (.releaseAborted intent) =
      some { m with pending := m.pending.erase intent.operationID } := by
  obtain ⟨read, hread, hname⟩ := Intent.readBack_of_nonneg hsize
  have hid : (identify read).operationID = intent.operationID := by
    rw [identify_of_ne (hname ▸ hnamed), hname]
  simp only [replayEvent, hread, Option.bind_eq_bind, Option.bind_some, hid]

variable [Float64 F] {u : Unicode}

theorem replayEvent_draftSaved (m : ReleaseManager F) {candidate : Config F}
    (h : candidate.sizeKept = true) :
    m.replayEvent (.draftSaved (draftOf candidate)) =
      some { m with draft := some (draftOf candidate) } := by
  have hkept : (draftOf candidate).sizeKept = true := Config.sizeKept_of_shadow rfl h
  have hclone : cloneConfig (draftOf candidate) = draftOf candidate := by
    simp only [draftOf, cloneConfig, cloneRules_eq (cloneRules_ne_empty candidate.rules)]
  simp only [replayEvent, Config.readBack_of_kept hkept, Option.bind_eq_bind, Option.bind_some,
    hclone]

/-! ## Appending first -/

/-- The line of an append gets into the file. -/
def lands (r : Releases F) (event : Event F) (fate : Fate) : Bool :=
  !r.ledger.degraded && event.marshals && fate ≠ .lost

/-- An append, and the change that is made once it is acknowledged. -/
def commit (r : Releases F) (now : Int) (entityID : String) (event : Event F) (fate : Fate)
    (f : ReleaseManager F → ReleaseManager F) : Releases F × Bool :=
  let appended := r.append now entityID event fate
  if appended.2 then ({ appended.1 with manager := f appended.1.manager }, true)
  else (appended.1, false)

variable {entityID : String} {event : Event F} {f : ReleaseManager F → ReleaseManager F}

theorem append_eq (r : Releases F) (now : Int) (entityID : String) (event : Event F) (fate : Fate) :
    r.append now entityID event fate =
      ({ r with ledger :=
          { lines := if r.lands event fate then r.ledger.lines ++ [⟨now, entityID, event⟩]
              else r.ledger.lines
            degraded := !(r.lands event fate && fate = .written) } },
        r.lands event fate && fate = .written) := by
  obtain ⟨manager, ⟨lines, degraded⟩⟩ := r
  simp only [append, Log.append, lands]
  cases degraded with
  | true => simp
  | false =>
      rcases Bool.eq_false_or_eq_true event.marshals with hmarshals | hmarshals
      · cases fate <;> simp [hmarshals]
      · simp [hmarshals]

theorem commit_ok (r : Releases F) (now : Int) (entityID : String) (event : Event F) (fate : Fate)
    (f : ReleaseManager F → ReleaseManager F) :
    (r.commit now entityID event fate f).2 = (r.lands event fate && fate = .written) := by
  simp only [commit, append_eq]
  split
  · next h => exact h.symm
  · next h => simpa using h

theorem commit_degraded (r : Releases F) (now : Int) (entityID : String) (event : Event F)
    (fate : Fate) (f : ReleaseManager F → ReleaseManager F) :
    (r.commit now entityID event fate f).1.ledger.degraded =
      !(r.commit now entityID event fate f).2 := by
  rw [commit_ok]
  simp only [commit, append_eq]
  split
  · rfl
  · rfl

theorem commit_manager (r : Releases F) (now : Int) (entityID : String) (event : Event F)
    (fate : Fate) (f : ReleaseManager F → ReleaseManager F) :
    (r.commit now entityID event fate f).1.manager =
      if (r.commit now entityID event fate f).2 then f r.manager else r.manager := by
  rw [commit_ok]
  simp only [commit, append_eq]
  split
  · rfl
  · rfl

/-- A journal that has failed once stays as it is. -/
theorem commit_of_degraded (h : r.ledger.degraded = true) :
    r.commit now entityID event fate f = (r, false) := by
  simp only [commit, append, Log.append, h, if_true, Bool.false_eq_true, if_false]

/-- A line that got into the file replays as the change it stands for. -/
theorem Holds.commit (h : r.Holds m) {m' : ReleaseManager F}
    (hevent : m.replayEvent event = some m') :
    (r.commit now entityID event fate f).1.Holds (if r.lands event fate then m' else m) := by
  have hlines : (r.commit now entityID event fate f).1.ledger.lines =
      if r.lands event fate then r.ledger.lines ++ [⟨now, entityID, event⟩] else r.ledger.lines := by
    simp only [Releases.commit, append_eq]
    split
    · rfl
    · rfl
  rw [Holds, hlines]
  split
  · rw [replay, replayFrom_append, show replayFrom {} r.ledger.lines = some m from h]
    exact hevent
  · exact h

theorem Holds.commit_acknowledged (h : r.Holds m) {m' : ReleaseManager F}
    (hevent : m.replayEvent event = some m') (hok : (r.commit now entityID event fate f).2 = true) :
    (r.commit now entityID event fate f).1.Holds m' := by
  have hholds : (r.commit now entityID event fate f).1.Holds _ := Holds.commit h hevent
  rw [commit_ok, Bool.and_eq_true] at hok
  rwa [if_pos hok.1] at hholds

theorem Replays.commit (h : r.Replays) (hevent : r.manager.replayEvent event = some (f r.manager))
    (hok : (r.commit now entityID event fate f).2 = true) :
    (r.commit now entityID event fate f).1.Replays := by
  rw [Replays, commit_manager, if_pos hok]
  exact Holds.commit_acknowledged h hevent hok

/-! ## The operations as commits -/

theorem saveDraft_eq (r : Releases F) (u : Unicode) (now : Int) (candidate : Config F)
    (expectedRevision : String) (fate : Fate) :
    (r.saveDraft u now candidate expectedRevision fate).1 = r ∨
      validateCandidate u candidate = true ∧ (r.saveDraft u now candidate expectedRevision fate).1 =
        (r.commit now (draftOf candidate).revision (.draftSaved (draftOf candidate)) fate
          fun m => { m with draft := some (draftOf candidate) }).1 := by
  simp only [saveDraft]
  split
  · exact .inl rfl
  · next hvalid =>
    split
    · exact .inl rfl
    · refine .inr ⟨by simpa using hvalid, ?_⟩
      simp only [commit]
      split
      · rfl
      · rfl

/-- A draft is saved with its line, or the manager stays as it is while the
journal may grow. -/
theorem saveDraft_cases (r : Releases F) (u : Unicode) (now : Int) (candidate : Config F)
    (expectedRevision : String) (fate : Fate) :
    let saved := (r.saveDraft u now candidate expectedRevision fate).1
    (saved.manager = r.manager ∧ ∃ l, saved.ledger.lines = r.ledger.lines ++ l) ∨
      (saved.manager = { r.manager with draft := some (draftOf candidate) } ∧
        saved.ledger.lines = r.ledger.lines ++
          [⟨now, (draftOf candidate).revision, .draftSaved (draftOf candidate)⟩]) := by
  rcases r.saveDraft_eq u now candidate expectedRevision fate with heq | ⟨-, heq⟩
  · rw [heq]
    exact .inl ⟨rfl, [], (List.append_nil _).symm⟩
  rw [heq]
  simp only [commit, append_eq]
  split
  next hok =>
    rw [Bool.and_eq_true] at hok
    rw [if_pos hok.1]
    exact .inr ⟨rfl, rfl⟩
  next =>
    split
    · exact .inl ⟨rfl, _, rfl⟩
    · exact .inl ⟨rfl, [], (List.append_nil _).symm⟩

theorem prepareCommit_eq {record : ReleaseRecord F} (rollback : Bool)
    (hnew : r.manager.pending.get? record.identified.operationID = none) :
    let intent : Intent F := ⟨record.identified.operationID, rollback, record.identified, ""⟩
    r.prepareCommit now record rollback fate =
      r.commit now intent.operationID (.releasePrepared intent) fate
        (fun m => { m with pending := m.pending.set intent }) := by
  rw [prepareCommit, if_neg (by simp [hnew])]
  rfl

theorem finalizeCommit_eq (r : Releases F) (record : ReleaseRecord F) (rollback : Bool) :
    r.finalizeCommit now record rollback fate =
      r.commit now record.identified.revision (appliedEvent rollback record.identified) fate
        (fun m => m.releasedAs record.identified record.identified.operationID) := rfl

theorem abortCommit_eq (r : Releases F) (record : ReleaseRecord F) (rollback : Bool)
    (reason : String) :
    let intent : Intent F := ⟨record.identified.operationID, rollback, record.identified, reason⟩
    r.abortCommit now record rollback reason fate =
      r.commit now intent.operationID (.releaseAborted intent) fate
        (fun m => { m with pending := m.pending.erase intent.operationID }) := rfl

/-- The event that settles an intent, as `Reconcile` writes it. -/
def settlingEvent (current : Config F) (intent : Intent F) : Event F :=
  if policyRevision current = intent.record.revision then appliedEvent intent.rollback intent.record
  else .releaseAborted { intent with reason := "active_revision_mismatch" }

theorem reconcileIntent_eq (r : Releases F) (current : Config F) (intent : Intent F) :
    r.reconcileIntent now current intent fate =
      r.commit now intent.operationID (settlingEvent current intent) fate
        (fun m => m.settledBy current intent) := by
  rw [reconcileIntent, settlingEvent]
  simp only [settledBy]
  split
  · rfl
  · rfl

/-! ## One operation -/

/-- The record names no operation, or the one a replay computes. -/
def namesItself (record : ReleaseRecord F) : Bool :=
  record.operationID = "" || record.operationID = releaseOperationID record

/-- A pending intent that a `Reconcile` against this policy settles as its
replay does. -/
def settlesAlike (current : Config F) (intent : Intent F) : Bool :=
  intent.operationID ≠ "" &&
    if policyRevision current = intent.record.revision then
      intent.record.policy.sizeKept && intent.operationID = releaseOperationID intent.record
    else 0 ≤ intent.record.policy.shadow.maxRequestBody

/-- A settlement replays as it is made. -/
theorem replayEvent_settlingEvent (m : ReleaseManager F) {current : Config F} {intent : Intent F}
    (hsettles : settlesAlike current intent = true) :
    m.replayEvent (settlingEvent current intent) = some (m.settledBy current intent) := by
  simp only [settlesAlike, Bool.and_eq_true, decide_eq_true_eq] at hsettles
  obtain ⟨hnamed, hsettles⟩ := hsettles
  rw [settlingEvent, settledBy]
  split
  · next hmatches =>
      rw [if_pos hmatches, Bool.and_eq_true, decide_eq_true_eq] at hsettles
      rw [replayEvent_applied _ _ hsettles.1, ← hsettles.2]
  · next hdiffers =>
      rw [if_neg hdiffers, decide_eq_true_eq] at hsettles
      exact replayEvent_releaseAborted _ hsettles hnamed

/-- `SaveDraft` does not refuse the candidate. -/
def takesDraft (r : Releases F) (u : Unicode) (candidate : Config F) (expectedRevision : String) :
    Bool :=
  validateCandidate u candidate &&
    (expectedRevision = "" ||
      r.manager.draft.all fun draft => expectedRevision = policyRevision draft)

theorem saveDraft_of_refused {candidate : Config F} {expectedRevision : String}
    (h : r.takesDraft u candidate expectedRevision = false) :
    (r.saveDraft u now candidate expectedRevision fate).1 = r := by
  rw [takesDraft, Bool.and_eq_false_iff, Bool.or_eq_false_iff] at h
  rw [Releases.saveDraft]
  split
  · rfl
  next hvalid =>
    obtain ⟨hnamed, hother⟩ := h.resolve_left (by simpa using hvalid)
    have hconflict : r.manager.draft.any (fun draft => expectedRevision ≠ policyRevision draft) := by
      cases hdraft : r.manager.draft with
      | none => simp [hdraft] at hother
      | some draft => simpa [hdraft] using hother
    rw [if_pos ⟨of_decide_eq_false hnamed, hconflict⟩]

theorem Replays.saveDraft (h : r.Replays) {candidate : Config F} {expectedRevision : String}
    (hkept : r.takesDraft u candidate expectedRevision = true → candidate.sizeKept = true)
    (hhealthy : (r.saveDraft u now candidate expectedRevision fate).1.ledger.degraded = false) :
    (r.saveDraft u now candidate expectedRevision fate).1.Replays := by
  cases htakes : r.takesDraft u candidate expectedRevision with
  | false => rwa [saveDraft_of_refused htakes]
  | true =>
      rcases r.saveDraft_eq u now candidate expectedRevision fate with heq | ⟨-, heq⟩
      · rwa [heq]
      · rw [heq, commit_degraded, Bool.not_eq_false'] at hhealthy
        rw [heq]
        exact h.commit (replayEvent_draftSaved _ (hkept htakes)) hhealthy

theorem Replays.prepareCommit (h : r.Replays) {record : ReleaseRecord F} {rollback : Bool}
    (hkept : r.manager.pending.get? record.identified.operationID = none →
      record.policy.sizeKept = true)
    (hhealthy : (r.prepareCommit now record rollback fate).1.ledger.degraded = false) :
    (r.prepareCommit now record rollback fate).1.Replays := by
  cases hpending : r.manager.pending.get? record.identified.operationID with
  | some _ =>
      rw [Releases.prepareCommit, if_pos (by simp [hpending])]
      exact h
  | none =>
      have hkept := hkept hpending
      rw [prepareCommit_eq rollback hpending] at hhealthy ⊢
      rw [commit_degraded, Bool.not_eq_false'] at hhealthy
      exact h.commit (replayEvent_releasePrepared _ (by simpa using hkept)
        (identified_ne_empty record)) hhealthy

/-- What a restart finds once a release has been finalized. -/
theorem Replays.replay_finalizeCommit (h : r.Replays) {record : ReleaseRecord F} {rollback : Bool}
    (hkept : record.policy.sizeKept = true)
    (happends : (r.finalizeCommit now record rollback fate).2 = true) :
    (r.finalizeCommit now record rollback fate).1.Holds
      (r.manager.releasedAs record.identified (releaseOperationID record)) := by
  have hkept : record.identified.policy.sizeKept = true := by simpa using hkept
  have hevent := replayEvent_applied r.manager rollback hkept
  rw [releaseOperationID_identified] at hevent
  rw [finalizeCommit_eq] at happends ⊢
  exact Holds.commit_acknowledged h hevent happends

theorem Replays.finalizeCommit (h : r.Replays) {record : ReleaseRecord F} {rollback : Bool}
    (hkept : record.policy.sizeKept = true) (hnames : namesItself record = true)
    (hhealthy : (r.finalizeCommit now record rollback fate).1.ledger.degraded = false) :
    (r.finalizeCommit now record rollback fate).1.Replays := by
  have hid : releaseOperationID record = record.identified.operationID := by
    rw [ReleaseRecord.identified]
    split
    · rfl
    · next hne => simpa [namesItself, hne, eq_comm] using hnames
  have hok : (r.finalizeCommit now record rollback fate).2 = true := by
    rwa [finalizeCommit_eq, commit_degraded, Bool.not_eq_false'] at hhealthy
  have hholds := h.replay_finalizeCommit hkept hok
  rw [hid, finalizeCommit_eq] at hholds
  rw [finalizeCommit_eq] at hok ⊢
  rwa [Replays, commit_manager, if_pos hok]

theorem Replays.abortCommit (h : r.Replays) {record : ReleaseRecord F} {rollback : Bool}
    {reason : String} (hsize : 0 ≤ record.policy.shadow.maxRequestBody)
    (hhealthy : (r.abortCommit now record rollback reason fate).1.ledger.degraded = false) :
    (r.abortCommit now record rollback reason fate).1.Replays := by
  rw [abortCommit_eq] at hhealthy ⊢
  rw [commit_degraded, Bool.not_eq_false'] at hhealthy
  exact h.commit (replayEvent_releaseAborted _ (by simpa using hsize) (identified_ne_empty record))
    hhealthy

theorem Replays.reconcileLoop {current : Config F} {rounds : List (Intent F × Int × Fate)}
    (h : r.Replays) (hsettles : ∀ round ∈ rounds, settlesAlike current round.1 = true)
    (hhealthy : (r.reconcileLoop current rounds).1.ledger.degraded = false) :
    (r.reconcileLoop current rounds).1.Replays := by
  induction rounds generalizing r with
  | nil => exact h
  | cons round rounds ih =>
      obtain ⟨intent, now, fate⟩ := round
      simp only [Releases.reconcileLoop, reconcileIntent_eq] at hhealthy ⊢
      split
      · next hok =>
          rw [if_pos hok] at hhealthy
          have hevent := replayEvent_settlingEvent r.manager
            (hsettles (intent, now, fate) List.mem_cons_self)
          exact ih (h.commit hevent hok)
            (fun round hin => hsettles round (List.mem_cons_of_mem _ hin)) hhealthy
      · next hfails =>
          rw [if_neg hfails, commit_degraded] at hhealthy
          simp [hfails] at hhealthy

/-! ## Runs -/

inductive Op (F : Type) where
  | saveDraft (now : Int) (candidate : Config F) (expectedRevision : String) (fate : Fate)
  | prepareCommit (now : Int) (record : ReleaseRecord F) (rollback : Bool) (fate : Fate)
  | finalizeCommit (now : Int) (record : ReleaseRecord F) (rollback : Bool) (fate : Fate)
  | abortCommit (now : Int) (record : ReleaseRecord F) (rollback : Bool) (reason : String)
      (fate : Fate)
  | reconcile (current : Config F) (rank : String → Nat) (answers : String → Int × Fate)

def step (u : Unicode) (r : Releases F) : Op F → Releases F
  | .saveDraft now candidate expectedRevision fate =>
      (r.saveDraft u now candidate expectedRevision fate).1
  | .prepareCommit now record rollback fate => (r.prepareCommit now record rollback fate).1
  | .finalizeCommit now record rollback fate => (r.finalizeCommit now record rollback fate).1
  | .abortCommit now record rollback reason fate =>
      (r.abortCommit now record rollback reason fate).1
  | .reconcile current rank answers => (r.reconcile current rank answers).1

def run (u : Unicode) (r : Releases F) (ops : List (Op F)) : Releases F := ops.foldl (step u) r

/-- What the operation writes reads back as it was, and a release it writes as
published closes the operation its record gives. -/
def readsBack (u : Unicode) (r : Releases F) : Op F → Bool
  | .saveDraft _ candidate expectedRevision _ =>
      !r.takesDraft u candidate expectedRevision || candidate.sizeKept
  | .prepareCommit _ record _ _ =>
      (r.manager.pending.get? record.identified.operationID).isSome || record.policy.sizeKept
  | .finalizeCommit _ record _ _ => record.policy.sizeKept && namesItself record
  | .abortCommit _ record _ _ _ => 0 ≤ record.policy.shadow.maxRequestBody
  | .reconcile current _ _ => r.manager.pending.items.all fun intent => settlesAlike current intent

/-- A journal that has failed once takes nothing any more. -/
theorem degraded_step (op : Op F) (h : r.ledger.degraded = true) :
    (step u r op).ledger.degraded = true := by
  cases op with
  | saveDraft now candidate expectedRevision fate =>
      rcases r.saveDraft_eq u now candidate expectedRevision fate with heq | ⟨-, heq⟩
      · rwa [step, heq]
      · rwa [step, heq, commit_of_degraded h]
  | prepareCommit now record rollback fate =>
      cases hpending : r.manager.pending.get? record.identified.operationID with
      | some _ => rwa [step, prepareCommit, if_pos (by simp [hpending])]
      | none => rwa [step, prepareCommit_eq rollback hpending, commit_of_degraded h]
  | finalizeCommit now record rollback fate =>
      rwa [step, finalizeCommit_eq, commit_of_degraded h]
  | abortCommit now record rollback reason fate =>
      rwa [step, abortCommit_eq, commit_of_degraded h]
  | reconcile current rank answers =>
      rw [step, reconcile]
      generalize (List.map _ _) = rounds
      cases rounds with
      | nil => exact h
      | cons round rounds =>
          obtain ⟨intent, now, fate⟩ := round
          rwa [reconcileLoop, reconcileIntent_eq, commit_of_degraded h, if_neg (by simp)]

theorem Replays.step (h : r.Replays) {op : Op F} (hreads : r.readsBack u op = true)
    (hhealthy : (Releases.step u r op).ledger.degraded = false) : (Releases.step u r op).Replays := by
  cases op with
  | saveDraft now candidate expectedRevision fate =>
      exact h.saveDraft (fun htakes => by simpa [readsBack, htakes] using hreads) hhealthy
  | prepareCommit now record rollback fate =>
      exact h.prepareCommit (fun hnone => by simpa [readsBack, hnone] using hreads) hhealthy
  | finalizeCommit now record rollback fate =>
      simp only [readsBack, Bool.and_eq_true] at hreads
      exact h.finalizeCommit hreads.1 hreads.2 hhealthy
  | abortCommit now record rollback reason fate =>
      exact h.abortCommit (by simpa [readsBack] using hreads) hhealthy
  | reconcile current rank answers =>
      refine h.reconcileLoop (fun round hround => ?_) hhealthy
      obtain ⟨intent, hintent, rfl⟩ := List.mem_map.1 hround
      exact List.all_eq_true.1 hreads intent (List.mem_mergeSort.1 hintent)

theorem Replays.run (h : r.Replays) {ops : List (Op F)}
    (hreads : Along (Releases.step u) (fun r op => r.readsBack u op = true) r ops)
    (hhealthy : (Releases.run u r ops).ledger.degraded = false) :
    (Releases.run u r ops).Replays := by
  induction ops generalizing r with
  | nil => exact h
  | cons op ops ih =>
      have hstep : (Releases.step u r op).ledger.degraded = false := by
        by_contra hdegraded
        have hend : (Releases.run u (Releases.step u r op) ops).ledger.degraded = true :=
          foldl_invariant (P := fun r : Releases F => r.ledger.degraded = true)
            (fun r op h => degraded_step op h) (by simpa using hdegraded) ops
        rw [show (Releases.run u (Releases.step u r op) ops).ledger.degraded = false from hhealthy]
          at hend
        cases hend
      exact ih (h.step hreads.1 hstep) hreads.2 hhealthy

end Releases

/-! ## The history -/

namespace ReleaseManager

variable {m : ReleaseManager F}

/-- At most `limit` records, and none under the operation of another. -/
structure HistoryOK (m : ReleaseManager F) : Prop where
  bounded : m.history.length ≤ limit
  distinct : ((m.history.map ReleaseRecord.operationID).filter (· ≠ "")).Nodup

theorem HistoryOK.appendHistory (h : m.HistoryOK) (record : ReleaseRecord F) :
    (m.appendHistory record).HistoryOK := by
  rw [ReleaseManager.appendHistory]
  split
  · exact h
  · next hnew =>
      constructor
      · show ((m.history ++ [record]).drop ((m.history ++ [record]).length - limit)).length ≤ limit
        rw [List.length_drop]
        omega
      · have hall : (((m.history ++ [record]).map ReleaseRecord.operationID).filter (· ≠ "")).Nodup := by
          rw [List.map_append, List.filter_append, List.nodup_append]
          refine ⟨h.distinct, ?_, ?_⟩
          · exact List.Nodup.filter _ (List.nodup_singleton _)
          · intro old hold new hin heq
            obtain ⟨rfl, hne⟩ : new = record.operationID ∧ new ≠ "" := by simpa using hin
            obtain ⟨⟨existing, hexisting, hid⟩, -⟩ : (∃ e ∈ m.history, e.operationID = old) ∧ _ := by
              simpa using hold
            exact hnew ⟨hne, List.any_eq_true.2 ⟨existing, hexisting, by simp [hid, heq]⟩⟩
        exact hall.sublist (((List.drop_sublist _ _).map _).filter _)

/-- What a replayed event leaves is what it found, or that with a record
appended. -/
theorem replayEvent_history {event : Event F} {m' : ReleaseManager F}
    (h : m.replayEvent event = some m') :
    m'.history = m.history ∨ ∃ record, m'.history = (m.appendHistory record).history := by
  cases event with
  | draftSaved policy =>
      obtain ⟨policy, -, rfl⟩ := by simpa [replayEvent, Option.bind_eq_some_iff] using h
      exact .inl rfl
  | releasePrepared intent =>
      obtain ⟨intent, -, rfl⟩ := by simpa [replayEvent, Option.bind_eq_some_iff] using h
      exact .inl rfl
  | releasePublished record =>
      obtain ⟨record, -, rfl⟩ := by simpa [replayEvent, Option.bind_eq_some_iff] using h
      exact .inr ⟨record, rfl⟩
  | releaseRolledBack record =>
      obtain ⟨record, -, rfl⟩ := by simpa [replayEvent, Option.bind_eq_some_iff] using h
      exact .inr ⟨record, rfl⟩
  | releaseAborted intent =>
      obtain ⟨intent, -, rfl⟩ := by simpa [replayEvent, Option.bind_eq_some_iff] using h
      exact .inl rfl

theorem HistoryOK.replayFrom {lines : List (Line (Event F))} {m' : ReleaseManager F}
    (h : m.HistoryOK) (hreplay : m.replayFrom lines = some m') : m'.HistoryOK := by
  induction lines generalizing m with
  | nil =>
      obtain rfl : m = m' := Option.some.inj hreplay
      exact h
  | cons line lines ih =>
      obtain ⟨next, hnext, hrest⟩ := Option.bind_eq_some_iff.1 hreplay
      refine ih ?_ hrest
      rcases replayEvent_history hnext with heq | ⟨record, heq⟩
      · exact ⟨heq ▸ h.bounded, heq ▸ h.distinct⟩
      · have := h.appendHistory record
        exact ⟨heq ▸ this.bounded, heq ▸ this.distinct⟩

theorem HistoryOK.replay {lines : List (Line (Event F))} (h : replay lines = some m) :
    m.HistoryOK :=
  HistoryOK.replayFrom (m := {}) ⟨Nat.zero_le _, List.nodup_nil⟩ h

end ReleaseManager

/-! ## The restart -/

namespace Releases

open ReleaseManager

variable [Float64 F]

/-- `NewPersistentReleaseManager` on the journal of these lines. -/
def opened (lines : List (Line (Event F))) : Option (Releases F) := do
  let manager ← replay lines
  some { manager := manager, ledger.lines := lines }

/-- Opened on any journal, and as long as the appends succeed and what is
written reads back as it was: a restart finds the manager as it is, and its
history holds `limit` records at most and no operation twice. -/
theorem restart_eq_live (u : Unicode) {lines : List (Line (Event F))} {r : Releases F}
    {ops : List (Op F)} (hopened : opened lines = some r)
    (hreads : Along (step u) (fun r op => r.readsBack u op = true) r ops)
    (happends : (r.run u ops).ledger.degraded = false) :
    replay (r.run u ops).ledger.lines = some (r.run u ops).manager ∧
      (r.run u ops).manager.HistoryOK := by
  obtain ⟨manager, hreplay, hsome⟩ := Option.bind_eq_some_iff.1 hopened
  obtain rfl := Option.some.inj hsome
  have hstart : Replays { manager := manager, ledger.lines := lines } := hreplay
  have hrun := hstart.run hreads happends
  exact ⟨hrun, HistoryOK.replay hrun⟩

/-- A release of the default policy, with no operation of its own. -/
def toPublish : ReleaseRecord ℚ where
  revision := "0a341848d4de233d"
  stage := "full"
  canaryPercent := 100
  createdAt := 0
  policy := adaptivePolicy

/-- The draft of a policy, and a release prepared and published. -/
def publishes (record : ReleaseRecord ℚ) : List (Op ℚ) :=
  [.saveDraft 0 adaptivePolicy "" .written, .prepareCommit 1 record false .written,
    .finalizeCommit 2 record false .written]

theorem restart_eq_live_published :
    replay (run ascii {} (publishes toPublish)).ledger.lines =
        some (run ascii {} (publishes toPublish)).manager ∧
      (run ascii {} (publishes toPublish)).manager.HistoryOK := by
  have hopened : opened ([] : List (Line (Event ℚ))) = some {} := rfl
  exact restart_eq_live ascii hopened (by decide +kernel) (by decide +kernel)

/-- The default policy with a byte size that no `float64` is. -/
def oddSized : Config ℚ :=
  { adaptivePolicy with
    shadow := { adaptivePolicy.shadow with maxRequestBody := 9007199254740993 } }

/-- A draft of it has another size after a restart. -/
theorem draft_size_lost :
    ¬∀ ops : List (Op ℚ), (run ascii {} ops).ledger.degraded = false →
      replay (run ascii {} ops).ledger.lines = some (run ascii {} ops).manager := by
  intro h
  have hlive := h [.saveDraft 0 oddSized "" .written] (by decide +kernel)
  have hsize := congrArg (Option.map fun m => m.draft.map fun p => p.shadow.maxRequestBody) hlive
  exact absurd hsize (by decide +kernel)

end Releases

end RelayLifeline.Policy
