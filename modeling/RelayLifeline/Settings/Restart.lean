import Mathlib.Data.List.Nodup
import Mathlib.Tactic.Common
import RelayLifeline.Settings.Store

/-!
# Restart-scoped fields

Which fields of a configuration only a restart may change, as one value that can
be read off a configuration and put into another. `PlanChanges` and
`applyHotReload` name these fields in three lists of their own: `sectionChecks`,
`fieldChecks` and `restoreField`. The lemmas here say that the three agree.
-/

namespace RelayLifeline.Settings

/-! ## The fields as a value -/

/-- An OIDC configuration up to what `oidcEqual` sees: no list is nil. -/
def OIDCConfig.canonical (oidc : OIDCConfig) : OIDCConfig :=
  { oidc with
    scopes := some (oidc.scopes.getD [])
    signingAlgorithms := some (oidc.signingAlgorithms.getD [])
    viewerValues := some (oidc.viewerValues.getD [])
    operatorValues := some (oidc.operatorValues.getD [])
    sensitiveValues := some (oidc.sensitiveValues.getD []) }

structure RestartFields where
  listen : String
  adminEnabled : Bool
  readHeaderTimeout : Int
  shutdownTimeout : Int
  storageDir : String
  level : String
  persistence : PersistenceConfig
  metricsExport : MetricsExportConfig
  telemetry : TelemetryConfig
  localAccessEnabled : Bool
  oidc : OIDCConfig
  deriving DecidableEq

def RestartFields.canonical (fields : RestartFields) : RestartFields :=
  { fields with oidc := fields.oidc.canonical }

def Config.restartFields (cfg : Config) : RestartFields where
  listen := cfg.server.listen
  adminEnabled := cfg.server.adminEnabled
  readHeaderTimeout := cfg.server.readHeaderTimeout
  shutdownTimeout := cfg.server.shutdownTimeout
  storageDir := cfg.capture.storageDir
  level := cfg.logging.level
  persistence := cfg.persistence
  metricsExport := cfg.metricsExport
  telemetry := cfg.observability.telemetry
  localAccessEnabled := cfg.managementSecurity.localAccessEnabled
  oidc := cfg.managementSecurity.oidc

/-- A configuration with its restart-scoped fields replaced and every other field kept. -/
def Config.withRestart (cfg : Config) (fields : RestartFields) : Config :=
  { cfg with
    server :=
      { cfg.server with
        listen := fields.listen
        adminEnabled := fields.adminEnabled
        readHeaderTimeout := fields.readHeaderTimeout
        shutdownTimeout := fields.shutdownTimeout }
    capture := { cfg.capture with storageDir := fields.storageDir }
    logging := { cfg.logging with level := fields.level }
    persistence := fields.persistence
    metricsExport := fields.metricsExport
    observability := { cfg.observability with telemetry := fields.telemetry }
    managementSecurity :=
      { cfg.managementSecurity with
        localAccessEnabled := fields.localAccessEnabled
        oidc := fields.oidc } }

@[simp] theorem restartFields_withRestart (cfg : Config) (fields : RestartFields) :
    (cfg.withRestart fields).restartFields = fields := rfl

/-! ## What the comparisons see -/

theorem Slice.equal_iff {α : Type} [DecidableEq α] {left right : Slice α} :
    left.equal right = true ↔ left.getD [] = right.getD [] := by
  rw [Slice.equal, decide_eq_true_eq]

theorem oidcEqual_iff {left right : OIDCConfig} :
    oidcEqual left right = true ↔ left.canonical = right.canonical := by
  simp only [oidcEqual, Bool.and_eq_true, decide_eq_true_eq, Slice.equal_iff,
    OIDCConfig.canonical, OIDCConfig.mk.injEq, Option.some.injEq]
  constructor
  · rintro ⟨⟨⟨⟨⟨⟨⟨⟨⟨h1, h2⟩, h3⟩, h4⟩, h5⟩, h6⟩, h7⟩, h8⟩, h9⟩, h10⟩
    exact ⟨h1, h2, h3, h4, h6, h7, h5, h8, h9, h10⟩
  · rintro ⟨h1, h2, h3, h4, h6, h7, h5, h8, h9, h10⟩
    exact ⟨⟨⟨⟨⟨⟨⟨⟨⟨h1, h2⟩, h3⟩, h4⟩, h5⟩, h6⟩, h7⟩, h8⟩, h9⟩, h10⟩

theorem authenticationChanged_eq_false {before after : Config} :
    authenticationChanged before after = false ↔
      before.managementSecurity.localAccessEnabled = after.managementSecurity.localAccessEnabled ∧
        before.managementSecurity.oidc.canonical = after.managementSecurity.oidc.canonical := by
  rw [authenticationChanged, Bool.or_eq_false_iff, decide_eq_false_iff_not, not_not,
    Bool.not_eq_false', oidcEqual_iff]

theorem authenticationChanged_of_equal {before after : Config}
    (h : managementSecurityEqual before.managementSecurity after.managementSecurity = true) :
    authenticationChanged before after = false := by
  simp only [managementSecurityEqual, Bool.and_eq_true, decide_eq_true_eq] at h
  exact authenticationChanged_eq_false.mpr ⟨h.1.1.1.1.1, oidcEqual_iff.mp h.2⟩

theorem serverRestart_eq_false {before after : Config} :
    serverRestart before after = false ↔
      before.server.listen = after.server.listen ∧
        before.server.adminEnabled = after.server.adminEnabled ∧
        before.server.readHeaderTimeout = after.server.readHeaderTimeout ∧
        before.server.shutdownTimeout = after.server.shutdownTimeout := by
  simp only [serverRestart, Bool.or_eq_false_iff, decide_eq_false_iff_not, not_not, and_assoc]

theorem serverRestart_of_eq {before after : Config} (h : before.server = after.server) :
    serverRestart before after = false := by
  rw [serverRestart_eq_false, h]
  exact ⟨rfl, rfl, rfl, rfl⟩

/-- Two configurations whose restart-scoped fields no comparison tells apart. -/
theorem canonical_eq_iff {before after : Config} :
    before.restartFields.canonical = after.restartFields.canonical ↔
      serverRestart before after = false ∧
        before.capture.storageDir = after.capture.storageDir ∧
        before.logging.level = after.logging.level ∧
        before.persistence = after.persistence ∧
        before.metricsExport = after.metricsExport ∧
        before.observability.telemetry = after.observability.telemetry ∧
        authenticationChanged before after = false := by
  simp only [serverRestart_eq_false, authenticationChanged_eq_false, RestartFields.canonical,
    Config.restartFields, RestartFields.mk.injEq, and_assoc]

/-! ## What is put back -/

/-- The restart-scoped fields after `applyHotReload`. They are the active ones,
but for an OIDC configuration that only `oidcEqual` takes for the active one. -/
def keptFields (active desired : Config) : RestartFields :=
  { active.restartFields with
    oidc :=
      if authenticationChanged active desired then active.managementSecurity.oidc
      else desired.managementSecurity.oidc }

theorem keptFields_canonical (active desired : Config) :
    (keptFields active desired).canonical = active.restartFields.canonical := by
  rw [keptFields, RestartFields.canonical, RestartFields.canonical]
  split
  · rfl
  · next h =>
    have hoidc := (authenticationChanged_eq_false.mp (Bool.eq_false_iff.mpr h)).2
    rw [← hoidc]
    rfl

/-- Only restart-scoped fields are put back. -/
theorem restoreField_withRestart (active result : Config) (path : String)
    (fields : RestartFields) :
    (restoreField active result path).withRestart fields = result.withRestart fields := by
  fun_cases restoreField active result path <;> rfl

/-- The path puts back what `get` reads, and no other path touches it. -/
structure Restores {α : Type} (active : Config) (path : String) (get : Config → α) : Prop where
  set : ∀ result, get (restoreField active result path) = get active
  keep : ∀ result other, other ≠ path → get (restoreField active result other) = get result

/-- `applyHotReload`'s loop. -/
def restoreFields (active result : Config) (fields : List FieldChange) : Config :=
  fields.foldl
    (fun result field =>
      if field.applyMode = .restart then restoreField active result field.path else result)
    result

theorem restoreFields_withRestart (active result : Config) (fields : List FieldChange)
    (kept : RestartFields) :
    (restoreFields active result fields).withRestart kept = result.withRestart kept := by
  induction fields generalizing result with
  | nil => rfl
  | cons field rest ih =>
    rw [restoreFields, List.foldl_cons]
    show (restoreFields active _ rest).withRestart kept = _
    rw [ih]
    split
    · exact restoreField_withRestart _ _ _ _
    · rfl

/-- A field that one path puts back is the active one when the plan names the
path, and the desired one when it does not. -/
theorem get_restoreFields {α : Type} {active : Config} {path : String} {get : Config → α}
    (hget : Restores active path get) (fields : List FieldChange) (result : Config) :
    get (restoreFields active result fields) =
      if ⟨path, .restart⟩ ∈ fields then get active else get result := by
  induction fields generalizing result with
  | nil => rfl
  | cons field rest ih =>
    rw [restoreFields, List.foldl_cons]
    show get (restoreFields active _ rest) = _
    rw [ih]
    by_cases hrest : ⟨path, .restart⟩ ∈ rest
    · rw [if_pos hrest, if_pos (List.mem_cons_of_mem _ hrest)]
    rw [if_neg hrest]
    by_cases hfield : field = ⟨path, .restart⟩
    · rw [hfield, if_pos List.mem_cons_self, if_pos rfl, hget.set]
    have hmem : ⟨path, .restart⟩ ∉ field :: rest :=
      fun h => (List.mem_cons.mp h).elim (fun h => hfield h.symm) hrest
    rw [if_neg hmem]
    split
    · next hmode =>
      refine hget.keep _ _ fun hpath => hfield ?_
      rw [← hpath, ← hmode]
    · rfl

/-- No path is checked twice, so a field is listed when its own check says so. -/
theorem mem_fieldChanges {before after : Config} {check : FieldCheck}
    (hcheck : check ∈ fieldChecks before after) :
    ⟨check.path, check.mode⟩ ∈ fieldChanges before after ↔ check.differs = true := by
  have hnodup : ((fieldChecks before after).map (·.path)).Nodup := by
    show ((fieldChecks defaultConfig defaultConfig).map (·.path)).Nodup
    decide
  rw [fieldChanges, List.mem_map]
  constructor
  · rintro ⟨other, hother, heq⟩
    obtain ⟨hother, hdiffers⟩ := List.mem_filter.mp hother
    have hpath : other.path = check.path := (FieldChange.mk.inj heq).1
    rwa [← List.inj_on_of_nodup_map hnodup hother hcheck hpath]
  · intro hdiffers
    exact ⟨check, List.mem_filter.mpr ⟨hcheck, hdiffers⟩, rfl⟩

section

variable {active desired : Config}

/-- The field that the check at `index` compares is the active one in the end. -/
theorem get_restored {α : Type} [DecidableEq α] (get : Config → α) (index : Nat) {path : String}
    (hcheck : (fieldChecks active desired)[index]? =
      some ⟨path, .restart, decide (get active ≠ get desired)⟩)
    (hget : Restores active path get) :
    get (restoreFields active desired (fieldChanges active desired)) = get active := by
  rw [get_restoreFields hget]
  simp only [mem_fieldChanges (List.mem_of_getElem? hcheck), decide_eq_true_eq]
  split
  · rfl
  · next h => exact (not_not.mp h).symm

/-- Authentication is put back whole, or was not told apart. -/
theorem authentication_restored :
    (restoreFields active desired (fieldChanges active desired)).managementSecurity.oidc =
      if authenticationChanged active desired then active.managementSecurity.oidc
      else desired.managementSecurity.oidc := by
  have hget : Restores active "management-security.authentication" (·.managementSecurity.oidc) :=
    ⟨fun _ => rfl, fun result other h => by
      fun_cases restoreField active result other <;> first | rfl | contradiction⟩
  have hcheck : (fieldChecks active desired)[17]? =
      some ⟨"management-security.authentication", .restart, authenticationChanged active desired⟩ :=
    rfl
  rw [get_restoreFields hget]
  simp only [mem_fieldChanges (List.mem_of_getElem? hcheck)]

theorem localAccess_restored :
    (restoreFields active desired
        (fieldChanges active desired)).managementSecurity.localAccessEnabled =
      active.managementSecurity.localAccessEnabled := by
  have hget : Restores active "management-security.authentication"
      (·.managementSecurity.localAccessEnabled) :=
    ⟨fun _ => rfl, fun result other h => by
      fun_cases restoreField active result other <;> first | rfl | contradiction⟩
  have hcheck : (fieldChecks active desired)[17]? =
      some ⟨"management-security.authentication", .restart, authenticationChanged active desired⟩ :=
    rfl
  rw [get_restoreFields hget]
  simp only [mem_fieldChanges (List.mem_of_getElem? hcheck)]
  split
  · rfl
  · next h => exact (authenticationChanged_eq_false.mp (Bool.eq_false_iff.mpr h)).1.symm

theorem restartFields_restoreFields :
    (restoreFields active desired (fieldChanges active desired)).restartFields =
      keptFields active desired := by
  rw [keptFields, Config.restartFields, RestartFields.mk.injEq]
  refine ⟨get_restored (·.server.listen) 0 rfl ⟨fun _ => rfl, ?_⟩,
    get_restored (·.server.adminEnabled) 1 rfl ⟨fun _ => rfl, ?_⟩,
    get_restored (·.server.readHeaderTimeout) 2 rfl ⟨fun _ => rfl, ?_⟩,
    get_restored (·.server.shutdownTimeout) 3 rfl ⟨fun _ => rfl, ?_⟩,
    get_restored (·.capture.storageDir) 12 rfl ⟨fun _ => rfl, ?_⟩,
    get_restored (·.logging.level) 13 rfl ⟨fun _ => rfl, ?_⟩,
    get_restored (·.persistence) 14 rfl ⟨fun _ => rfl, ?_⟩,
    get_restored (·.metricsExport) 15 rfl ⟨fun _ => rfl, ?_⟩,
    get_restored (·.observability.telemetry) 16 rfl ⟨fun _ => rfl, ?_⟩,
    localAccess_restored, authentication_restored⟩
  all_goals
    intro result other h
    fun_cases restoreField active result other <;> first | rfl | contradiction

/-- The whole of `applyHotReload`: the desired configuration with the fields kept. -/
theorem restoreFields_eq :
    restoreFields active desired (fieldChanges active desired) =
      desired.withRestart (keptFields active desired) := by
  rw [← restartFields_restoreFields,
    ← restoreFields_withRestart active desired (fieldChanges active desired)]
  rfl

end

/-! ## Planning again -/

/-- What a plan says of restarts, without the sections and fields already in force. -/
def ChangePlan.restartOnly (plan : ChangePlan) : ChangePlan :=
  { plan with
    changedSections := plan.restartSections
    hotReloadSections := []
    fields := plan.fields.filter (·.applyMode = .restart) }

section

variable (active desired : Config)

theorem authenticationChanged_keptFields :
    authenticationChanged (desired.withRestart (keptFields active desired)) desired =
      authenticationChanged active desired := by
  have hkept := RestartFields.mk.inj (keptFields_canonical active desired)
  have hoidc : (keptFields active desired).oidc.canonical =
      active.managementSecurity.oidc.canonical := hkept.2.2.2.2.2.2.2.2.2.2
  rw [Bool.eq_iff_iff, ← not_iff_not, Bool.not_eq_true, Bool.not_eq_true,
    authenticationChanged_eq_false, authenticationChanged_eq_false, ← hoidc]
  rfl

theorem keptFields_keptFields :
    keptFields (desired.withRestart (keptFields active desired)) desired =
      keptFields active desired := by
  rw [keptFields, authenticationChanged_keptFields, restartFields_withRestart]
  by_cases h : authenticationChanged active desired = true
  · simp only [h, if_true, Config.withRestart]
  · simp only [h, keptFields]
    rfl

/-- A section put in force differs from the desired one when the active section
does and the difference needs a restart. -/
theorem differs_iff {σ : Type} [DecidableEq σ] {before next after : σ} {needsRestart : Bool}
    (hnext : next = after ↔ needsRestart = false) (hbefore : before = after → needsRestart = false) :
    decide (next ≠ after) = (decide (before ≠ after) && needsRestart) := by
  cases needsRestart with
  | false =>
    have hsame : next = after := hnext.mpr rfl
    simp [hsame]
  | true =>
    have hdiffers : next ≠ after := fun h => Bool.noConfusion (hnext.mp h)
    have hbefore : before ≠ after := fun h => Bool.noConfusion (hbefore h)
    simp [hdiffers, hbefore]

theorem server_differs :
    decide ((desired.withRestart (keptFields active desired)).server ≠ desired.server) =
      (decide (active.server ≠ desired.server) && serverRestart active desired) := by
  refine differs_iff ?_ ?_
  · rw [serverRestart_eq_false]
    constructor
    · intro h
      exact ⟨congrArg (·.listen) h, congrArg (·.adminEnabled) h,
        congrArg (·.readHeaderTimeout) h, congrArg (·.shutdownTimeout) h⟩
    · rintro ⟨hlisten, hadmin, hheader, hshutdown⟩
      show ServerConfig.mk active.server.listen active.server.adminEnabled _
        active.server.readHeaderTimeout _ _ _ active.server.shutdownTimeout _ _ = _
      rw [hlisten, hadmin, hheader, hshutdown]
  · exact serverRestart_of_eq

theorem observability_differs :
    decide ((desired.withRestart (keptFields active desired)).observability ≠
        desired.observability) =
      (decide (active.observability ≠ desired.observability) &&
        decide (active.observability.telemetry ≠ desired.observability.telemetry)) := by
  refine differs_iff ?_ ?_ <;> rw [decide_eq_false_iff_not, not_not]
  · refine ⟨fun h => congrArg (·.telemetry) h, fun h => ?_⟩
    show ObservabilityConfig.mk _ _ active.observability.telemetry = _
    rw [h]
  · exact fun h => congrArg (·.telemetry) h

theorem capture_differs :
    decide ((desired.withRestart (keptFields active desired)).capture ≠ desired.capture) =
      (decide (active.capture ≠ desired.capture) &&
        decide (active.capture.storageDir ≠ desired.capture.storageDir)) := by
  refine differs_iff ?_ ?_ <;> rw [decide_eq_false_iff_not, not_not]
  · refine ⟨fun h => congrArg (·.storageDir) h, fun h => ?_⟩
    show CaptureConfig.mk _ active.capture.storageDir _ _ _ _ _ _ _ _ _ = _
    rw [h]
  · exact fun h => congrArg (·.storageDir) h

theorem logging_differs :
    decide ((desired.withRestart (keptFields active desired)).logging ≠ desired.logging) =
      (decide (active.logging ≠ desired.logging) &&
        decide (active.logging.level ≠ desired.logging.level)) := by
  refine differs_iff ?_ ?_ <;> rw [decide_eq_false_iff_not, not_not]
  · refine ⟨fun h => congrArg (·.level) h, fun h => ?_⟩
    show LoggingConfig.mk active.logging.level _ _ _ _ = _
    rw [h]
  · exact fun h => congrArg (·.level) h

theorem managementSecurity_differs :
    managementSecurityEqual (desired.withRestart (keptFields active desired)).managementSecurity
        desired.managementSecurity =
      (managementSecurityEqual active.managementSecurity desired.managementSecurity ||
        !authenticationChanged active desired) := by
  have hnext : managementSecurityEqual
      (desired.withRestart (keptFields active desired)).managementSecurity
      desired.managementSecurity = !authenticationChanged active desired := by
    rw [← authenticationChanged_keptFields active desired]
    simp only [managementSecurityEqual, authenticationChanged, ne_eq, decide_not, Bool.not_or,
      Bool.not_not]
    simp [Config.withRestart]
  rw [hnext]
  by_cases h : managementSecurityEqual active.managementSecurity desired.managementSecurity = true
  · rw [h, authenticationChanged_of_equal h]
    rfl
  · rw [Bool.not_eq_true _ |>.mp h, Bool.false_or]

/-- Against what an update puts in force, a section differs when it needs the restart. -/
theorem sectionChecks_keptFields :
    sectionChecks (desired.withRestart (keptFields active desired)) desired =
      (sectionChecks active desired).map fun check =>
        { check with differs := check.differs && check.needsRestart } := by
  have hserver : serverRestart (desired.withRestart (keptFields active desired)) desired =
      serverRestart active desired := rfl
  simp only [sectionChecks, List.map_cons, List.map_nil, authenticationChanged_keptFields, hserver,
    server_differs, observability_differs, capture_differs, logging_differs,
    managementSecurity_differs, Bool.not_or, Bool.not_not]
  simp only [ne_eq, decide_not]
  simp [Config.withRestart, keptFields, Config.restartFields]
  exact ⟨rfl, rfl, rfl, rfl, rfl⟩

theorem fieldChecks_keptFields :
    fieldChecks (desired.withRestart (keptFields active desired)) desired =
      (fieldChecks active desired).map fun check =>
        { check with differs := check.differs && decide (check.mode = .restart) } := by
  simp only [fieldChecks, List.map_cons, List.map_nil, authenticationChanged_keptFields, ne_eq,
    decide_not]
  simp [Config.withRestart, keptFields, Config.restartFields]
  exact ⟨rfl, rfl, rfl, rfl, rfl, rfl, rfl, rfl, rfl⟩

/-- Planning the same update against what it put in force leaves the restarts only. -/
theorem planChanges_keptFields :
    planChanges (desired.withRestart (keptFields active desired)) desired =
      (planChanges active desired).restartOnly := by
  have hfields : fieldChanges (desired.withRestart (keptFields active desired)) desired =
      (fieldChanges active desired).filter (·.applyMode = .restart) := by
    rw [fieldChanges, fieldChecks_keptFields, fieldChanges, List.filter_map, List.filter_map,
      List.map_map, List.filter_filter]
    congr 1
    refine List.filter_congr fun check _ => ?_
    exact Bool.and_comm _ _
  have hchanged : (sectionChecks (desired.withRestart (keptFields active desired)) desired).filter
        (·.differs) =
      (((sectionChecks active desired).filter (·.differs)).filter (·.needsRestart)).map
        fun check => { check with differs := check.differs && check.needsRestart } := by
    rw [sectionChecks_keptFields, List.filter_map, List.filter_filter]
    congr 1
    refine List.filter_congr fun check _ => ?_
    exact Bool.and_comm _ _
  rw [planChanges, planChanges, hfields, hchanged, List.filter_map, List.filter_map, List.map_map, List.map_map,
    List.map_map]
  show ChangePlan.mk currentSchemaVersion _ _ _ _ _ = ChangePlan.mk currentSchemaVersion _ _ _ _ _
  generalize (sectionChecks active desired).filter (·.differs) = changed
  have hrestart : (changed.filter (·.needsRestart)).filter (·.needsRestart) =
      changed.filter (·.needsRestart) := by
    rw [List.filter_filter]
    simp only [Bool.and_self]
  have hhot : ((changed.filter (·.needsRestart)).filter fun check => !check.needsRestart) = [] := by
    rw [List.filter_filter, List.filter_eq_nil_iff]
    intro check _
    simp
  rw [ChangePlan.mk.injEq]
  refine ⟨rfl, rfl, congrArg (List.map _) hhot, congrArg (List.map _) hrestart, ?_, rfl⟩
  exact congrArg (fun restart : List SectionCheck => decide (0 < (restart.map (·.name)).length))
    hrestart

end

/-- A restart is required when a restart-scoped field differs. -/
theorem restartRequired_planChanges (before after : Config) :
    (planChanges before after).restartRequired = true ↔
      before.restartFields.canonical ≠ after.restartFields.canonical := by
  simp only [planChanges, decide_eq_true_eq, List.length_map, List.length_pos_iff, ne_eq,
    List.filter_filter, List.filter_eq_nil_iff]
  refine not_congr ?_
  rw [canonical_eq_iff]
  have hserver := @serverRestart_of_eq before after
  have hsecurity := @authenticationChanged_of_equal before after
  simp [sectionChecks]
  constructor
  · rintro ⟨h1, h2, h3, h4, h5, h6, h7⟩
    refine ⟨?_, ?_, ?_, h5, h7, ?_, ?_⟩
    · grind
    · grind
    · grind
    · grind
    · grind
  · grind

end RelayLifeline.Settings
