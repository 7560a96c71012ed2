import Mathlib.Algebra.Group.Int.Defs
import Mathlib.Data.Rat.Defs

/-!
# The configuration

All sections of `config.Config`, field by field. A duration is a number of
nanoseconds and a byte size a number of bytes; a `float64` is the rational
number it stands for, since a configuration that JSON can carry holds no other.
A slice may be nil or empty: the comparisons that go through JSON tell the two
apart, and those that go through `slices.Equal` do not.
-/

namespace RelayLifeline.Settings

/-- A slice, nil or with its elements. -/
abbrev Slice (α : Type) := Option (List α)

/-- `slices.Equal`. -/
def Slice.equal {α : Type} [DecidableEq α] (left right : Slice α) : Bool :=
  left.getD [] = right.getD []

structure ServerConfig where
  listen : String
  adminEnabled : Bool
  configBackupDir : String
  readHeaderTimeout : Int
  readBodyTimeout : Int
  idleTimeout : Int
  downstreamWriteIdleTimeout : Int
  shutdownTimeout : Int
  maxHeaderBytes : Int
  maxRequestBody : Int
  deriving DecidableEq

structure UpstreamConfig where
  baseURL : String
  connectTimeout : Int
  responseHeaderTimeout : Int
  responseBodyIdleTimeout : Int
  deriving DecidableEq

structure UpstreamTargetConfig where
  id : String
  baseURL : String
  priority : Int
  weight : Int
  maxActive : Int
  idempotencyDomain : String
  costMicrosPer1K : Int
  capabilityScore : Rat
  deriving DecidableEq

structure UpstreamHealthConfig where
  mode : String
  deriving DecidableEq

structure UpstreamCircuitConfig where
  enabled : Bool
  minimumRequests : Int
  failurePercent : Int
  openDuration : Int
  halfOpenMax : Int
  deriving DecidableEq

structure UpstreamPoolConfig where
  strategy : String
  targets : Slice UpstreamTargetConfig
  health : UpstreamHealthConfig
  circuit : UpstreamCircuitConfig
  deriving DecidableEq

structure EgressConfig where
  denyPrivateNetworks : Bool
  allowedHosts : Slice String
  deriving DecidableEq

structure RetryConfig where
  enabled : Bool
  mode : String
  minInterval : Int
  maxInterval : Int
  maxAttempts : Int
  maxElapsed : Int
  retryAfterCap : Int
  honorRetryAfter : Bool
  deriving DecidableEq

structure StreamConfig where
  heartbeatInterval : Int
  memoryLimit : Int
  maxResponseBody : Int
  maxTotalCache : Int
  tempDir : String
  deriving DecidableEq

structure QueueConfig where
  maxActive : Int
  maxWaiting : Int
  recoverySpacing : Int
  deriving DecidableEq

structure HistoryConfig where
  maxItems : Int
  retention : Int
  deriving DecidableEq

structure TelemetryConfig where
  enabled : Bool
  protocol : String
  endpoint : String
  insecure : Bool
  sampleRatio : Rat
  serviceName : String
  environment : String
  exportTimeout : Int
  metricInterval : Int
  deriving DecidableEq

structure ObservabilityConfig where
  errorDetails : String
  maxErrorDetail : Int
  telemetry : TelemetryConfig
  deriving DecidableEq

structure CaptureConfig where
  enabled : Bool
  storageDir : String
  retention : Int
  defaultRequestLimit : Int
  activationTimeout : Int
  maxBodySize : Int
  maxTotalSize : Int
  maxAttemptsPerRequest : Int
  minimumFreeDisk : Int
  logMaxItems : Int
  logRetention : Int
  deriving DecidableEq

structure RiskConfig where
  warningAfter : Int
  warningAttempts : Int
  authErrorAttempts : Int
  queueWarningPercent : Int
  minimumFreeDisk : Int
  deriving DecidableEq

structure LocalizationConfig where
  defaultLocale : String
  fallbackLocale : String
  deriving DecidableEq

structure NotificationConfig where
  stalledAfter : Int
  notifyOnRecovery : Bool
  webhookURL : String
  deliveryAttempts : Int
  deliveryBackoff : Int
  eventTypes : Slice String
  locale : String
  deriving DecidableEq

structure LoggingConfig where
  level : String
  locale : String
  logRequestBody : Bool
  logResponseBody : Bool
  logAuthorization : Bool
  deriving DecidableEq

structure PersistenceConfig where
  enabled : Bool
  directory : String
  retention : Int
  syncWrites : Bool
  deriving DecidableEq

structure IncidentConfig where
  enabled : Bool
  correlationWindow : Int
  recoveryStableWindow : Int
  retention : Int
  maxItems : Int
  deriving DecidableEq

structure LifecycleConfig where
  trackUncertainDelivery : Bool
  preserveIdempotencyKey : Bool
  generateIdempotencyKey : Bool
  allowUncertainRetry : Bool
  allowCrossDomainFailover : Bool
  uncertainResolutionTarget : Int
  maxRequestDuration : Int
  clientDisconnectPolicy : String
  deriving DecidableEq

structure OIDCConfig where
  enabled : Bool
  issuerURL : String
  clientID : String
  redirectURL : String
  scopes : Slice String
  signingAlgorithms : Slice String
  roleClaim : String
  viewerValues : Slice String
  operatorValues : Slice String
  sensitiveValues : Slice String
  deriving DecidableEq

structure ManagementSecurityConfig where
  localAccessEnabled : Bool
  loginFailuresPerMinute : Int
  loginCooldown : Int
  sessionIdleTimeout : Int
  sessionMaxLifetime : Int
  oidc : OIDCConfig
  deriving DecidableEq

structure MetricsExportConfig where
  enabled : Bool
  path : String
  deriving DecidableEq

structure ModelPriceConfig where
  model : String
  inputMicrosPerToken : Int
  outputMicrosPerToken : Int
  deriving DecidableEq

structure GovernanceBudgetConfig where
  scope : String
  key : String
  maxConcurrent : Int
  requestsPerMinute : Int
  tokenLimit : Int
  costLimitMicros : Int
  deriving DecidableEq

structure GovernanceConfig where
  mode : String
  unknownUsagePolicy : String
  maxConcurrent : Int
  requestsPerMinute : Int
  tokenLimit : Int
  costLimitMicros : Int
  tokenReservation : Int
  costReservationMicros : Int
  reservationMinTokens : Int
  reservationMaxTokens : Int
  reservationMinCostMicros : Int
  reservationMaxCostMicros : Int
  softThresholdPercent : Int
  forecastWindow : Int
  prices : Slice ModelPriceConfig
  budgets : Slice GovernanceBudgetConfig
  deriving DecidableEq

structure SLOConfig where
  enabled : Bool
  availabilityTarget : Rat
  recoveryLatencyTarget : Int
  window : Int
  deriving DecidableEq

structure TrafficPolicyRule where
  id : String
  enabled : Bool
  priority : Int
  method : String
  pathPrefix : String
  model : String
  principalPrefix : String
  action : String
  targetID : String
  deriving DecidableEq

structure ShadowTrafficConfig where
  enabled : Bool
  targetID : String
  samplePercent : Int
  maxConcurrent : Int
  maxRequestBody : Int
  requestBudgetPerHour : Int
  costBudgetMicrosPerHour : Int
  costReservationMicros : Int
  requireIdempotency : Bool
  deriving DecidableEq

structure AdaptiveRoutingConfig where
  enabled : Bool
  errorBudgetFloor : Rat
  minimumObservations : Int
  maximumLatencyMillis : Int
  latencyWeight : Rat
  errorRateWeight : Rat
  costWeight : Rat
  capabilityWeight : Rat
  switchCooldown : Int
  fallbackTargetID : String
  autoStopBurnRate : Rat
  autoStopFailureRate : Rat
  deriving DecidableEq

structure TrafficPolicyConfig where
  enabled : Bool
  mode : String
  releaseStage : String
  canaryPercent : Int
  revision : String
  rules : Slice TrafficPolicyRule
  shadow : ShadowTrafficConfig
  adaptive : AdaptiveRoutingConfig
  deriving DecidableEq

structure Config where
  schemaVersion : Int
  server : ServerConfig
  upstream : UpstreamConfig
  upstreams : UpstreamPoolConfig
  egress : EgressConfig
  retry : RetryConfig
  stream : StreamConfig
  queue : QueueConfig
  history : HistoryConfig
  observability : ObservabilityConfig
  capture : CaptureConfig
  risk : RiskConfig
  localization : LocalizationConfig
  notifications : NotificationConfig
  logging : LoggingConfig
  persistence : PersistenceConfig
  incidents : IncidentConfig
  lifecycle : LifecycleConfig
  managementSecurity : ManagementSecurityConfig
  metricsExport : MetricsExportConfig
  governance : GovernanceConfig
  slo : SLOConfig
  trafficPolicy : TrafficPolicyConfig
  deriving DecidableEq

/-! ## Defaults -/

def second : Int := 1000000000

def minutes (n : Int) : Int := n * 60 * second

def hours (n : Int) : Int := n * 60 * 60 * second

def currentSchemaVersion : Int := 5

def defaultOIDCConfig : OIDCConfig where
  enabled := false
  issuerURL := ""
  clientID := ""
  redirectURL := ""
  scopes := none
  signingAlgorithms := some ["RS256"]
  roleClaim := "groups"
  viewerValues := none
  operatorValues := none
  sensitiveValues := none

/-- `Default`. -/
def defaultConfig : Config where
  schemaVersion := currentSchemaVersion
  server :=
    { listen := "127.0.0.1:8318"
      adminEnabled := true
      configBackupDir := ""
      readHeaderTimeout := 10 * second
      readBodyTimeout := 60 * second
      idleTimeout := 90 * second
      downstreamWriteIdleTimeout := 30 * second
      shutdownTimeout := minutes 3
      maxHeaderBytes := 2 ^ 20
      maxRequestBody := 32 * 2 ^ 20 }
  upstream :=
    { baseURL := "http://cli-proxy-api:8317"
      connectTimeout := 10 * second
      responseHeaderTimeout := 30 * second
      responseBodyIdleTimeout := 90 * second }
  upstreams :=
    { strategy := "primary-only"
      targets := none
      health := { mode := "passive" }
      circuit :=
        { enabled := false
          minimumRequests := 0
          failurePercent := 0
          openDuration := 30 * second
          halfOpenMax := 1 } }
  egress := { denyPrivateNetworks := true, allowedHosts := some ["cli-proxy-api"] }
  retry :=
    { enabled := true
      mode := "all-errors"
      minInterval := 60 * second
      maxInterval := 120 * second
      maxAttempts := 0
      maxElapsed := 0
      retryAfterCap := minutes 10
      honorRetryAfter := true }
  stream :=
    { heartbeatInterval := 15 * second
      memoryLimit := 64 * 2 ^ 20
      maxResponseBody := 512 * 2 ^ 20
      maxTotalCache := 2 * 2 ^ 30
      tempDir := "" }
  queue := { maxActive := 8, maxWaiting := 100, recoverySpacing := 2 * second }
  history := { maxItems := 500, retention := hours 24 }
  observability :=
    { errorDetails := "safe"
      maxErrorDetail := 2 * 2 ^ 10
      telemetry :=
        { enabled := false
          protocol := "grpc"
          endpoint := ""
          insecure := false
          sampleRatio := 1
          serviceName := "relay-lifeline"
          environment := ""
          exportTimeout := 10 * second
          metricInterval := minutes 1 } }
  capture :=
    { enabled := false
      storageDir := "/var/lib/relay-lifeline/captures"
      retention := hours 72
      defaultRequestLimit := 3
      activationTimeout := minutes 10
      maxBodySize := 64 * 2 ^ 20
      maxTotalSize := 2 ^ 30
      maxAttemptsPerRequest := 20
      minimumFreeDisk := 2 ^ 30
      logMaxItems := 2000
      logRetention := hours 1 }
  risk :=
    { warningAfter := minutes 15
      warningAttempts := 10
      authErrorAttempts := 3
      queueWarningPercent := 80
      minimumFreeDisk := 512 * 2 ^ 20 }
  localization := { defaultLocale := "zh-CN", fallbackLocale := "en-US" }
  notifications :=
    { stalledAfter := minutes 10
      notifyOnRecovery := true
      webhookURL := ""
      deliveryAttempts := 3
      deliveryBackoff := 5 * second
      eventTypes := some
        ["stalled", "recovered", "long_running", "many_attempts", "auth_errors", "queue_pressure",
          "disk_pressure", "governance_ledger_failed", "uncertain_delivery",
          "uncertain_slo_breach", "uncertain_resolved"]
      locale := "zh-CN" }
  logging :=
    { level := "info"
      locale := "zh-CN"
      logRequestBody := false
      logResponseBody := false
      logAuthorization := false }
  persistence :=
    { enabled := true
      directory := "/var/lib/relay-lifeline/events"
      retention := hours (14 * 24)
      syncWrites := true }
  incidents :=
    { enabled := true
      correlationWindow := 30 * second
      recoveryStableWindow := minutes 2
      retention := hours (30 * 24)
      maxItems := 1000 }
  lifecycle :=
    { trackUncertainDelivery := true
      preserveIdempotencyKey := true
      generateIdempotencyKey := false
      allowUncertainRetry := false
      allowCrossDomainFailover := false
      uncertainResolutionTarget := minutes 15
      maxRequestDuration := 0
      clientDisconnectPolicy := "cancel" }
  managementSecurity :=
    { localAccessEnabled := true
      loginFailuresPerMinute := 5
      loginCooldown := 30 * second
      sessionIdleTimeout := minutes 30
      sessionMaxLifetime := hours 8
      oidc := defaultOIDCConfig }
  metricsExport := { enabled := false, path := "/metrics" }
  governance :=
    { mode := "observe"
      unknownUsagePolicy := "observe"
      maxConcurrent := 0
      requestsPerMinute := 0
      tokenLimit := 0
      costLimitMicros := 0
      tokenReservation := 0
      costReservationMicros := 0
      reservationMinTokens := 256
      reservationMaxTokens := 4096
      reservationMinCostMicros := 0
      reservationMaxCostMicros := 0
      softThresholdPercent := 80
      forecastWindow := hours 1
      prices := none
      budgets := none }
  slo :=
    { enabled := true
      availabilityTarget := 99 / 100
      recoveryLatencyTarget := 30 * second
      window := hours 24 }
  trafficPolicy :=
    { enabled := false
      mode := "observe"
      releaseStage := "full"
      canaryPercent := 0
      revision := ""
      rules := none
      shadow :=
        { enabled := false
          targetID := ""
          samplePercent := 0
          maxConcurrent := 1
          maxRequestBody := 2 ^ 20
          requestBudgetPerHour := 0
          costBudgetMicrosPerHour := 0
          costReservationMicros := 1000
          requireIdempotency := true }
      adaptive :=
        { enabled := false
          errorBudgetFloor := 1 / 2
          minimumObservations := 10
          maximumLatencyMillis := 30000
          latencyWeight := 1 / 2
          errorRateWeight := 3 / 10
          costWeight := 15 / 100
          capabilityWeight := 5 / 100
          switchCooldown := minutes 2
          fallbackTargetID := ""
          autoStopBurnRate := 2
          autoStopFailureRate := 1 / 4 } }

/-! ## Migration -/

/-- One `if cfg.SchemaVersion == version` of `Migrate`. -/
def migrateFrom (version : Int) (change : Config → Config) (cfg : Config) : Config :=
  if cfg.schemaVersion = version then change cfg else cfg

/-- Schema 2 brings five sections. -/
def migrateSections (cfg : Config) : Config :=
  { cfg with
    schemaVersion := 2
    persistence := defaultConfig.persistence
    incidents := defaultConfig.incidents
    lifecycle := defaultConfig.lifecycle
    managementSecurity := defaultConfig.managementSecurity
    metricsExport := defaultConfig.metricsExport }

/-- Schema 3 brings the limits of the response cache. -/
def migrateStream (cfg : Config) : Config :=
  { cfg with
    schemaVersion := 3
    stream :=
      { cfg.stream with
        maxResponseBody := defaultConfig.stream.maxResponseBody
        maxTotalCache := defaultConfig.stream.maxTotalCache } }

/-- Schema 5 brings the authentication of the management interface. -/
def migrateAuthentication (cfg : Config) : Config :=
  { cfg with
    schemaVersion := 5
    managementSecurity :=
      { cfg.managementSecurity with
        localAccessEnabled := true
        sessionMaxLifetime := hours 8
        oidc := defaultOIDCConfig } }

/-- The schema versions in turn. Schema 4 keeps the single upstream as the
compatibility default, so it changes the version only. -/
def migrateVersions (cfg : Config) : Config :=
  migrateFrom 4 migrateAuthentication
    (migrateFrom 3 (fun cfg => { cfg with schemaVersion := 4 })
      (migrateFrom 2 migrateStream
        (migrateFrom 1 migrateSections
          (migrateFrom 0 (fun cfg => { cfg with schemaVersion := 1 }) cfg))))

/-- `Migrate`. -/
def migrate (cfg : Config) : Except String Config :=
  if (migrateVersions cfg).schemaVersion ≠ currentSchemaVersion then
    .error "config.schema.unsupported"
  else .ok (migrateVersions cfg)

end RelayLifeline.Settings
