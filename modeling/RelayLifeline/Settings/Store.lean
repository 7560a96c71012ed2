import Mathlib.Data.List.Basic
import RelayLifeline.Settings.Config

/-!
# The configuration store

`config.Store` keeps two configurations, the one in force and the one last
accepted. An update is planned against the one in force: `PlanChanges` lists
what differs, section by section and field by field, and `applyHotReload` puts
back the fields that only a restart may change.

Validation, the digest of a configuration and the copy through JSON are
parameters. What the disk says to a backup, a save or a load is an input.
-/

namespace RelayLifeline.Settings

/-! ## Plans -/

inductive ApplyMode where
  | hot
  | restart
  deriving DecidableEq, Repr

structure FieldChange where
  path : String
  applyMode : ApplyMode
  deriving DecidableEq, Repr

structure ChangePlan where
  schemaVersion : Int
  changedSections : List String
  hotReloadSections : List String
  restartSections : List String
  restartRequired : Bool
  fields : List FieldChange
  deriving DecidableEq, Repr

def oidcEqual (left right : OIDCConfig) : Bool :=
  left.enabled = right.enabled && left.issuerURL = right.issuerURL
    && left.clientID = right.clientID && left.redirectURL = right.redirectURL
    && left.roleClaim = right.roleClaim && left.scopes.equal right.scopes
    && left.signingAlgorithms.equal right.signingAlgorithms
    && left.viewerValues.equal right.viewerValues
    && left.operatorValues.equal right.operatorValues
    && left.sensitiveValues.equal right.sensitiveValues

def managementSecurityEqual (left right : ManagementSecurityConfig) : Bool :=
  left.localAccessEnabled = right.localAccessEnabled
    && left.loginFailuresPerMinute = right.loginFailuresPerMinute
    && left.loginCooldown = right.loginCooldown
    && left.sessionIdleTimeout = right.sessionIdleTimeout
    && left.sessionMaxLifetime = right.sessionMaxLifetime
    && oidcEqual left.oidc right.oidc

/-- `serverRestart`. -/
def serverRestart (before after : Config) : Bool :=
  before.server.listen ≠ after.server.listen
    || before.server.adminEnabled ≠ after.server.adminEnabled
    || before.server.readHeaderTimeout ≠ after.server.readHeaderTimeout
    || before.server.shutdownTimeout ≠ after.server.shutdownTimeout

/-- `authenticationChanged`. -/
def authenticationChanged (before after : Config) : Bool :=
  before.managementSecurity.localAccessEnabled ≠ after.managementSecurity.localAccessEnabled
    || !oidcEqual before.managementSecurity.oidc after.managementSecurity.oidc

/-- One call of `appendSection`. -/
structure SectionCheck where
  name : String
  differs : Bool
  needsRestart : Bool

/-- The sections of `PlanChanges`, in its order. -/
def sectionChecks (before after : Config) : List SectionCheck :=
  [⟨"server", before.server ≠ after.server, serverRestart before after⟩,
    ⟨"upstream", before.upstream ≠ after.upstream, false⟩,
    ⟨"upstreams", before.upstreams ≠ after.upstreams, false⟩,
    ⟨"egress", before.egress ≠ after.egress, false⟩,
    ⟨"retry", before.retry ≠ after.retry, false⟩,
    ⟨"stream", before.stream ≠ after.stream, false⟩,
    ⟨"queue", before.queue ≠ after.queue, false⟩,
    ⟨"history", before.history ≠ after.history, false⟩,
    ⟨"observability", before.observability ≠ after.observability,
      before.observability.telemetry ≠ after.observability.telemetry⟩,
    ⟨"capture", before.capture ≠ after.capture,
      before.capture.storageDir ≠ after.capture.storageDir⟩,
    ⟨"risk", before.risk ≠ after.risk, false⟩,
    ⟨"localization", before.localization ≠ after.localization, false⟩,
    ⟨"notifications", before.notifications ≠ after.notifications, false⟩,
    ⟨"logging", before.logging ≠ after.logging, before.logging.level ≠ after.logging.level⟩,
    ⟨"persistence", before.persistence ≠ after.persistence, true⟩,
    ⟨"incidents", before.incidents ≠ after.incidents, false⟩,
    ⟨"lifecycle", before.lifecycle ≠ after.lifecycle, false⟩,
    ⟨"management-security",
      !managementSecurityEqual before.managementSecurity after.managementSecurity,
      authenticationChanged before after⟩,
    ⟨"metrics-export", before.metricsExport ≠ after.metricsExport, true⟩,
    ⟨"governance", before.governance ≠ after.governance, false⟩,
    ⟨"traffic-policy", before.trafficPolicy ≠ after.trafficPolicy, false⟩,
    ⟨"slo", before.slo ≠ after.slo, false⟩]

/-- One call of `add`. -/
structure FieldCheck where
  path : String
  mode : ApplyMode
  differs : Bool

/-- The fields of `fieldChanges`, in its order. -/
def fieldChecks (before after : Config) : List FieldCheck :=
  [⟨"server.listen", .restart, before.server.listen ≠ after.server.listen⟩,
    ⟨"server.admin-enabled", .restart, before.server.adminEnabled ≠ after.server.adminEnabled⟩,
    ⟨"server.read-header-timeout", .restart,
      before.server.readHeaderTimeout ≠ after.server.readHeaderTimeout⟩,
    ⟨"server.shutdown-timeout", .restart,
      before.server.shutdownTimeout ≠ after.server.shutdownTimeout⟩,
    ⟨"server.read-body-timeout", .hot,
      before.server.readBodyTimeout ≠ after.server.readBodyTimeout⟩,
    ⟨"server.idle-timeout", .hot, before.server.idleTimeout ≠ after.server.idleTimeout⟩,
    ⟨"server.downstream-write-idle-timeout", .hot,
      before.server.downstreamWriteIdleTimeout ≠ after.server.downstreamWriteIdleTimeout⟩,
    ⟨"server.max-header-bytes", .hot,
      before.server.maxHeaderBytes ≠ after.server.maxHeaderBytes⟩,
    ⟨"server.max-request-body", .hot,
      before.server.maxRequestBody ≠ after.server.maxRequestBody⟩,
    ⟨"upstream", .hot, before.upstream ≠ after.upstream⟩,
    ⟨"upstreams", .hot, before.upstreams ≠ after.upstreams⟩,
    ⟨"egress", .hot, before.egress ≠ after.egress⟩,
    ⟨"capture.storage-dir", .restart, before.capture.storageDir ≠ after.capture.storageDir⟩,
    ⟨"logging.level", .restart, before.logging.level ≠ after.logging.level⟩,
    ⟨"persistence", .restart, before.persistence ≠ after.persistence⟩,
    ⟨"metrics-export", .restart, before.metricsExport ≠ after.metricsExport⟩,
    ⟨"observability.telemetry", .restart,
      before.observability.telemetry ≠ after.observability.telemetry⟩,
    ⟨"management-security.authentication", .restart, authenticationChanged before after⟩,
    ⟨"traffic-policy", .hot, before.trafficPolicy ≠ after.trafficPolicy⟩,
    ⟨"slo", .hot, before.slo ≠ after.slo⟩]

def fieldChanges (before after : Config) : List FieldChange :=
  ((fieldChecks before after).filter (·.differs)).map fun check => ⟨check.path, check.mode⟩

def planChanges (before after : Config) : ChangePlan :=
  let changed := (sectionChecks before after).filter (·.differs)
  let restart := (changed.filter (·.needsRestart)).map (·.name)
  { schemaVersion := currentSchemaVersion
    changedSections := changed.map (·.name)
    hotReloadSections := (changed.filter fun check => !check.needsRestart).map (·.name)
    restartSections := restart
    restartRequired := decide (0 < restart.length)
    fields := fieldChanges before after }

/-- The `switch` of `applyHotReload`: one restart field put back. -/
def restoreField (active result : Config) (path : String) : Config :=
  if path = "server.listen" then
    { result with server := { result.server with listen := active.server.listen } }
  else if path = "server.admin-enabled" then
    { result with server := { result.server with adminEnabled := active.server.adminEnabled } }
  else if path = "server.read-header-timeout" then
    { result with
      server := { result.server with readHeaderTimeout := active.server.readHeaderTimeout } }
  else if path = "server.shutdown-timeout" then
    { result with
      server := { result.server with shutdownTimeout := active.server.shutdownTimeout } }
  else if path = "capture.storage-dir" then
    { result with capture := { result.capture with storageDir := active.capture.storageDir } }
  else if path = "logging.level" then
    { result with logging := { result.logging with level := active.logging.level } }
  else if path = "persistence" then
    { result with persistence := active.persistence }
  else if path = "metrics-export" then
    { result with metricsExport := active.metricsExport }
  else if path = "observability.telemetry" then
    { result with
      observability := { result.observability with telemetry := active.observability.telemetry } }
  else if path = "management-security.authentication" then
    { result with
      managementSecurity :=
        { result.managementSecurity with
          localAccessEnabled := active.managementSecurity.localAccessEnabled
          oidc := active.managementSecurity.oidc } }
  else result

/-! ## The store -/

/-- What the store calls: `Validate`, `revision` and `cloneConfig`. -/
structure Codec where
  validate : Config → Except String Unit
  revision : Config → String
  clone : Config → Config

/-- What the disk says to `backupCurrentConfig` and to `Save`. -/
structure Disk where
  backup : Except String String
  save : Except String Unit

structure Store where
  cfg : Config
  desired : Config
  activeRevision : String
  desiredRevision : String
  pendingRestart : ChangePlan
  lastBackup : String
  deriving DecidableEq

structure UpdateResult where
  backupPath : String
  activeRevision : String
  desiredRevision : String
  pendingRestart : ChangePlan

/-- The zero `ChangePlan`. -/
def noPlan : ChangePlan where
  schemaVersion := 0
  changedSections := []
  hotReloadSections := []
  restartSections := []
  restartRequired := false
  fields := []

namespace Codec

variable (codec : Codec)

def applyHotReload (active desired : Config) (plan : ChangePlan) : Config :=
  plan.fields.foldl
    (fun result field =>
      if field.applyMode = .restart then restoreField active result field.path else result)
    (codec.clone desired)

def newStore (cfg : Config) : Store :=
  let active := codec.clone cfg
  let activeRevision := codec.revision active
  { cfg := active
    desired := codec.clone active
    activeRevision := activeRevision
    desiredRevision := activeRevision
    pendingRestart := noPlan
    lastBackup := "" }

/-- The checks of `updateWithResult` on a configuration: its migration, then `Validate`. -/
def accept (cfg : Config) : Except String Config :=
  match migrate cfg with
  | .error err => .error err
  | .ok cfg =>
    match codec.validate cfg with
    | .error err => .error err
    | .ok () => .ok cfg

/-- The backup and the save, when the update is to be persisted: the backup's path. -/
def persistConfig (persist : Bool) (disk : Disk) : Except String String :=
  if persist then
    match disk.backup with
    | .error err => .error err
    | .ok backupPath =>
      match disk.save with
      | .error err => .error err
      | .ok () => .ok backupPath
  else .ok ""

/-- The last part of `updateWithResult`, under the store's lock. -/
def commit (cfg : Config) (store : Store) (backupPath : String) : Store :=
  let active := codec.clone store.cfg
  let plan := planChanges active cfg
  let active := codec.applyHotReload active cfg plan
  { cfg := codec.clone active
    desired := codec.clone cfg
    activeRevision := codec.revision active
    desiredRevision := codec.revision cfg
    pendingRestart := plan
    lastBackup := backupPath }

def updateWithResult (store : Store) (cfg : Config) (persist : Bool) (expectedRevision : String)
    (disk : Disk) : Store × Except String UpdateResult :=
  if expectedRevision ≠ "" ∧ store.desiredRevision ≠ expectedRevision then
    (store, .error "configuration desired revision conflict")
  else
    match codec.accept cfg with
    | .error err => (store, .error err)
    | .ok cfg =>
      match persistConfig persist disk with
      | .error err => (store, .error err)
      | .ok backupPath =>
        let store := codec.commit cfg store backupPath
        (store, .ok ⟨backupPath, store.activeRevision, store.desiredRevision,
          store.pendingRestart⟩)

/-- `Load`, from what decoding the file over the defaults gives. -/
def load (decoded : Except String Config) : Except String Config :=
  match decoded with
  | .error err => .error err
  | .ok cfg => codec.accept cfg

def reload (store : Store) (decoded : Except String Config) : Store × Except String UpdateResult :=
  match codec.load decoded with
  | .error err => (store, .error err)
  | .ok cfg => codec.updateWithResult store cfg false "" ⟨.ok "", .ok ()⟩

/-- A call on the store, with what the disk answers. An update without an
expected revision has the empty one. -/
inductive Input where
  | update (cfg : Config) (persist : Bool) (expectedRevision : String) (disk : Disk)
  | reload (decoded : Except String Config)

def step (store : Store) : Input → Store × Except String UpdateResult
  | .update cfg persist expectedRevision disk =>
    codec.updateWithResult store cfg persist expectedRevision disk
  | .reload decoded => codec.reload store decoded

def run (store : Store) (inputs : List Input) : Store :=
  inputs.foldl (fun store input => (codec.step store input).1) store

end Codec

end RelayLifeline.Settings
