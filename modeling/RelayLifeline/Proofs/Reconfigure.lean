import RelayLifeline.Settings.Restart

/-!
# Active and desired configuration

In every state the store reaches, the active configuration is the desired one
with the restart-scoped fields of the first. An accepted update that is made
again puts the same two configurations in force; what goes from the plan are the
sections that are in force by then, so the plan keeps its restarts only.

The copy through JSON is assumed to be the value copied, for byte sizes that a
`float64` carries exactly.
-/

namespace RelayLifeline.Settings

/-- A byte size that its JSON form gives back. -/
def Carried (size : Int) : Prop := 0 ≤ size ∧ size ≤ 2 ^ 53

/-- Every byte size of the configuration is carried. -/
def Config.Sized (cfg : Config) : Prop :=
  Carried cfg.server.maxRequestBody ∧ Carried cfg.stream.memoryLimit ∧
    Carried cfg.stream.maxResponseBody ∧ Carried cfg.stream.maxTotalCache ∧
    Carried cfg.observability.maxErrorDetail ∧ Carried cfg.capture.maxBodySize ∧
    Carried cfg.capture.maxTotalSize ∧ Carried cfg.capture.minimumFreeDisk ∧
    Carried cfg.risk.minimumFreeDisk ∧ Carried cfg.trafficPolicy.shadow.maxRequestBody

instance (size : Int) : Decidable (Carried size) :=
  inferInstanceAs (Decidable (_ ∧ _))

instance (cfg : Config) : Decidable cfg.Sized :=
  inferInstanceAs (Decidable (_ ∧ _))

def Codec.Faithful (codec : Codec) : Prop := ∀ cfg : Config, cfg.Sized → codec.clone cfg = cfg

/-- No restart-scoped field is a byte size. -/
theorem Config.Sized.withRestart {cfg : Config} (h : cfg.Sized) (fields : RestartFields) :
    (cfg.withRestart fields).Sized := h

theorem sized_migrateFrom {version : Int} {change : Config → Config}
    (hchange : ∀ cfg : Config, cfg.Sized → (change cfg).Sized) {cfg : Config} (hcfg : cfg.Sized) :
    (migrateFrom version change cfg).Sized := by
  rw [migrateFrom]
  split
  · exact hchange cfg hcfg
  · exact hcfg

/-- A migration sets no byte size but the two limits of the response cache, to their defaults. -/
theorem sized_migrateVersions {cfg : Config} (hcfg : cfg.Sized) : (migrateVersions cfg).Sized := by
  refine sized_migrateFrom ?_ (sized_migrateFrom ?_ (sized_migrateFrom ?_
    (sized_migrateFrom ?_ (sized_migrateFrom ?_ hcfg))))
  · exact fun _ h => h
  · exact fun _ h => h
  · rintro cfg ⟨hbody, hmemory, -, -, hrest⟩
    have hresponse : Carried defaultConfig.stream.maxResponseBody := by decide
    have hcache : Carried defaultConfig.stream.maxTotalCache := by decide
    exact ⟨hbody, hmemory, hresponse, hcache, hrest⟩
  · exact fun _ h => h
  · exact fun _ h => h

theorem sized_migrate {cfg migrated : Config} (hcfg : cfg.Sized) (h : migrate cfg = .ok migrated) :
    migrated.Sized := by
  rw [migrate] at h
  split at h
  · cases h
  · cases h
    exact sized_migrateVersions hcfg

variable {codec : Codec}

theorem sized_accept {cfg accepted : Config} (hcfg : cfg.Sized)
    (h : codec.accept cfg = .ok accepted) : accepted.Sized := by
  rw [Codec.accept] at h
  split at h
  · cases h
  · next hmigrate =>
    split at h
    · cases h
    · cases h
      exact sized_migrate hcfg hmigrate

/-- What an accepted update leaves. -/
theorem commit_eq (hcodec : codec.Faithful) {store : Store} (hstore : store.cfg.Sized) {cfg : Config}
    (hcfg : cfg.Sized) (backupPath : String) :
    codec.commit cfg store backupPath =
      { cfg := cfg.withRestart (keptFields store.cfg cfg)
        desired := cfg
        activeRevision := codec.revision (cfg.withRestart (keptFields store.cfg cfg))
        desiredRevision := codec.revision cfg
        pendingRestart := planChanges store.cfg cfg
        lastBackup := backupPath } := by
  have happly : codec.applyHotReload store.cfg cfg (planChanges store.cfg cfg) =
      cfg.withRestart (keptFields store.cfg cfg) := by
    show restoreFields store.cfg (codec.clone cfg) (fieldChanges store.cfg cfg) = _
    rw [hcodec cfg hcfg, restoreFields_eq]
  rw [Codec.commit]
  simp only [hcodec _ hstore, happly, hcodec cfg hcfg, hcodec _ (hcfg.withRestart _)]

/-! ## Steps -/

namespace Codec.Input

/-- The configuration that the call installs if nothing else refuses it. -/
def target (codec : Codec) : Input → Except String Config
  | .update cfg _ _ _ => codec.accept cfg
  | .reload decoded =>
    match codec.load decoded with
    | .error err => .error err
    | .ok cfg => codec.accept cfg

/-- The byte sizes that the call brings are carried. -/
def Sized : Input → Prop
  | .update cfg _ _ _ => cfg.Sized
  | .reload decoded => ∀ cfg, decoded = .ok cfg → cfg.Sized

/-- The same call, whatever the disk answers to a backup or a save. -/
def Repeats : Input → Input → Prop
  | .update cfg persist expectedRevision _, .update again persist' expectedRevision' _ =>
    again = cfg ∧ persist' = persist ∧ expectedRevision' = expectedRevision
  | .reload decoded, .reload again => again = decoded
  | _, _ => False

theorem sized_target {input : Input} (hinput : input.Sized) {cfg : Config}
    (h : input.target codec = .ok cfg) : cfg.Sized := by
  cases input with
  | update _ _ _ _ => exact sized_accept hinput h
  | reload decoded =>
    rw [target] at h
    split at h
    · cases h
    · next loaded hload =>
      cases decoded with
      | error _ => cases hload
      | ok cfg => exact sized_accept (sized_accept (hinput cfg rfl) hload) h

theorem Repeats.target_eq {input again : Input} (h : input.Repeats again) :
    again.target codec = input.target codec := by
  cases input <;> cases again
  · rw [h.1]
    rfl
  · exact h.elim
  · exact h.elim
  · rw [h]

end Codec.Input

open Codec (Input)

theorem updateWithResult_cases (store : Store) (cfg : Config) (persist : Bool)
    (expectedRevision : String) (disk : Disk) :
    (∃ err, codec.updateWithResult store cfg persist expectedRevision disk =
        (store, .error err)) ∨
      ∃ accepted backupPath result, codec.accept cfg = .ok accepted ∧
        codec.updateWithResult store cfg persist expectedRevision disk =
          (codec.commit accepted store backupPath, .ok result) := by
  rw [Codec.updateWithResult]
  split
  · exact .inl ⟨_, rfl⟩
  split
  · exact .inl ⟨_, rfl⟩
  · next accepted haccept =>
    split
    · exact .inl ⟨_, rfl⟩
    · next backupPath _ => exact .inr ⟨accepted, backupPath, _, haccept, rfl⟩

/-- A call changes nothing, or installs its configuration. -/
theorem step_cases (store : Store) (input : Input) :
    (∃ err, codec.step store input = (store, .error err)) ∨
      ∃ cfg backupPath result, input.target codec = .ok cfg ∧
        codec.step store input = (codec.commit cfg store backupPath, .ok result) := by
  cases input with
  | update cfg persist expectedRevision disk =>
    exact updateWithResult_cases store cfg persist expectedRevision disk
  | reload decoded =>
    rw [Codec.step, Codec.reload, Codec.Input.target]
    cases hload : codec.load decoded with
    | error err => exact .inl ⟨_, rfl⟩
    | ok loaded => exact updateWithResult_cases store loaded _ _ _

/-! ## Runs -/

/-- The store as it stands to the configuration it was made with. -/
structure Store.Consistent (codec : Codec) (start : Config) (store : Store) : Prop where
  sized : store.cfg.Sized ∧ store.desired.Sized
  restart : store.cfg.restartFields.canonical = start.restartFields.canonical
  hot : store.cfg.withRestart store.desired.restartFields = store.desired
  required : store.pendingRestart.restartRequired = true ↔
    store.cfg.restartFields.canonical ≠ store.desired.restartFields.canonical
  revisions : store.activeRevision = codec.revision store.cfg ∧
    store.desiredRevision = codec.revision store.desired

theorem consistent_newStore (hcodec : codec.Faithful) {start : Config} (hstart : start.Sized) :
    (codec.newStore start).Consistent codec start := by
  have hclone : codec.clone start = start := hcodec start hstart
  have hnew : codec.newStore start =
      ⟨start, start, codec.revision start, codec.revision start, noPlan, ""⟩ := by
    simp only [Codec.newStore, hclone]
  rw [hnew]
  exact
    { sized := ⟨hstart, hstart⟩
      restart := rfl
      hot := rfl
      required := ⟨fun h => Bool.noConfusion h, fun h => (h rfl).elim⟩
      revisions := ⟨rfl, rfl⟩ }

theorem consistent_commit (hcodec : codec.Faithful) {start : Config} {store : Store}
    (hstore : store.Consistent codec start) {cfg : Config} (hcfg : cfg.Sized)
    (backupPath : String) : (codec.commit cfg store backupPath).Consistent codec start := by
  rw [commit_eq hcodec hstore.sized.1 hcfg]
  have hkept : (cfg.withRestart (keptFields store.cfg cfg)).restartFields.canonical =
      store.cfg.restartFields.canonical := keptFields_canonical store.cfg cfg
  exact
    { sized := ⟨hcfg.withRestart _, hcfg⟩
      restart := hkept.trans hstore.restart
      hot := rfl
      required := by
        rw [restartRequired_planChanges, hkept]
      revisions := ⟨rfl, rfl⟩ }

theorem consistent_step (hcodec : codec.Faithful) {start : Config} {store : Store}
    (hstore : store.Consistent codec start) {input : Input} (hinput : input.Sized) :
    (codec.step store input).1.Consistent codec start := by
  obtain ⟨err, h⟩ | ⟨cfg, backupPath, result, htarget, h⟩ :=
    @step_cases codec store input
  · rw [h]
    exact hstore
  · rw [h]
    exact consistent_commit hcodec hstore (Codec.Input.sized_target hinput htarget) backupPath

theorem consistent_run (hcodec : codec.Faithful) {start : Config} {store : Store}
    (hstore : store.Consistent codec start) {inputs : List Input}
    (hinputs : ∀ input ∈ inputs, input.Sized) :
    (codec.run store inputs).Consistent codec start := by
  induction inputs generalizing store with
  | nil => exact hstore
  | cons input rest ih =>
    refine ih (consistent_step hcodec hstore (hinputs input List.mem_cons_self)) ?_
    intro later hlater
    exact hinputs later (List.mem_cons_of_mem _ hlater)

/-! ## Repetition -/

/-- An accepted call made again: what is in force stays, and so do the plan's restarts. -/
theorem commit_commit (hcodec : codec.Faithful) {store : Store} (hstore : store.cfg.Sized)
    {cfg : Config} (hcfg : cfg.Sized) (backupPath again : String) :
    codec.commit cfg (codec.commit cfg store backupPath) again =
      { codec.commit cfg store backupPath with
        pendingRestart := (codec.commit cfg store backupPath).pendingRestart.restartOnly
        lastBackup := again } := by
  rw [commit_eq hcodec hstore hcfg, commit_eq hcodec (hcfg.withRestart _) hcfg]
  simp only [keptFields_keptFields, planChanges_keptFields]

/-- A store, and what becomes of it when the call it accepted last is made again: that
is refused, or keeps everything but the reloaded sections of the plan and the backup. -/
def Store.Repeated (once : Store) : Store × Except String UpdateResult → Prop
  | (twice, .error _) => twice = once
  | (twice, .ok _) => twice = { once with
      pendingRestart := once.pendingRestart.restartOnly
      lastBackup := twice.lastBackup }

theorem repeated_step (hcodec : codec.Faithful) {store : Store} (hstore : store.cfg.Sized)
    {input again : Input} (hinput : input.Sized) (hagain : input.Repeats again)
    (haccepted : ∃ result, (codec.step store input).2 = .ok result) :
    (codec.step store input).1.Repeated (codec.step (codec.step store input).1 again) := by
  obtain ⟨err, h⟩ | ⟨cfg, backupPath, result, htarget, h⟩ :=
    @step_cases codec store input
  · obtain ⟨result, hresult⟩ := haccepted
    rw [h] at hresult
    cases hresult
  have hcfg : cfg.Sized := Codec.Input.sized_target hinput htarget
  rw [h]
  obtain ⟨err, htwice⟩ | ⟨cfg', backupPath', result', htarget', htwice⟩ :=
    @step_cases codec (codec.commit cfg store backupPath) again
  · rw [htwice]
    rfl
  · rw [hagain.target_eq, htarget] at htarget'
    cases htarget'
    rw [htwice, commit_commit hcodec hstore hcfg]
    rfl

/-- **Active and desired configuration.** Whatever calls are made, each restart-scoped
field of the active configuration is the one the store was made with, every other
field is the desired one, a restart is required when the two differ in a
restart-scoped field, and an accepted call made again keeps both configurations,
both revisions and the restarts of the plan. -/
theorem run_consistent (codec : Codec) (hcodec : codec.Faithful) (start : Config)
    (hstart : start.Sized) (inputs : List Input) (hinputs : ∀ input ∈ inputs, input.Sized) :
    let store := codec.run (codec.newStore start) inputs
    store.cfg.restartFields.canonical = start.restartFields.canonical ∧
      store.cfg.withRestart store.desired.restartFields = store.desired ∧
      (store.pendingRestart.restartRequired = true ↔
        store.cfg.restartFields.canonical ≠ store.desired.restartFields.canonical) ∧
      ∀ input again : Input, input.Sized → input.Repeats again →
        (∃ result, (codec.step store input).2 = .ok result) →
        (codec.step store input).1.Repeated (codec.step (codec.step store input).1 again) := by
  intro store
  have hstore : store.Consistent codec start :=
    consistent_run hcodec (consistent_newStore hcodec hstart) hinputs
  refine ⟨hstore.restart, hstore.hot, hstore.required, ?_⟩
  intro input again hinput hagain haccepted
  exact repeated_step hcodec hstore.sized.1 hinput hagain haccepted

/-- A codec that accepts every configuration and gives each back. -/
def plainCodec : Codec where
  validate _ := .ok ()
  revision cfg := cfg.server.listen
  clone cfg := cfg

/-- The default configuration with a limit on the attempts, a field that is reloaded. -/
def limitedConfig : Config :=
  { defaultConfig with retry := { defaultConfig.retry with maxAttempts := 3 } }

/-- The same at another address, which waits for a restart. -/
def movedConfig : Config :=
  { limitedConfig with server := { defaultConfig.server with listen := "127.0.0.1:9000" } }

theorem run_consistent_moved :
    let store := plainCodec.run (plainCodec.newStore defaultConfig)
      [.update movedConfig false "" ⟨.ok "", .ok ()⟩]
    store.cfg.withRestart movedConfig.restartFields = movedConfig ∧
      store.pendingRestart.restartRequired = true ∧
      (plainCodec.step store (.reload (.ok limitedConfig))).1.Repeated
        (plainCodec.step (plainCodec.step store (.reload (.ok limitedConfig))).1
          (.reload (.ok limitedConfig))) := by
  have hrun := run_consistent plainCodec (fun _ _ => rfl) defaultConfig (by decide)
    [.update movedConfig false "" ⟨.ok "", .ok ()⟩]
    (fun input hinput => by
      rw [List.mem_singleton.mp hinput]
      show movedConfig.Sized
      decide)
  refine ⟨hrun.2.1, hrun.2.2.1.mpr (by decide +kernel),
    hrun.2.2.2 _ _ (fun cfg hcfg => ?_) rfl ⟨_, rfl⟩⟩
  cases hcfg
  show limitedConfig.Sized
  decide

/-- The default configuration with an empty list of scopes in place of none. -/
def unscopedConfig : Config :=
  { defaultConfig with
    managementSecurity :=
      { defaultConfig.managementSecurity with
        oidc := { defaultOIDCConfig with scopes := some [] } } }

/-- An update that only sets a reloaded field is in force at once, but its plan
still lists the section; made again, it plans nothing. And a list that was nil
is replaced in force by an empty one, which `oidcEqual` does not tell apart. -/
theorem repeat_changes :
    let start := plainCodec.newStore defaultConfig
    let update := fun (cfg : Config) (store : Store) =>
      (plainCodec.step store (.update cfg false "" ⟨.ok "", .ok ()⟩)).1
    update limitedConfig (update limitedConfig start) ≠ update limitedConfig start ∧
      (update limitedConfig start).pendingRestart.changedSections = ["retry"] ∧
      (update limitedConfig (update limitedConfig start)).pendingRestart.changedSections = [] ∧
      (update unscopedConfig start).cfg.restartFields ≠ start.cfg.restartFields := by
  decide +kernel

end RelayLifeline.Settings
