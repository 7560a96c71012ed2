import RelayLifeline.Admin.Login
import RelayLifeline.Admin.Query
import RelayLifeline.Admin.Realtime
import RelayLifeline.Admin.Sessions
import RelayLifeline.Admin.Uncertain
import RelayLifeline.Bytes
import RelayLifeline.Capture.Crypto
import RelayLifeline.Capture.Effects
import RelayLifeline.Capture.Filter
import RelayLifeline.Capture.Manager
import RelayLifeline.Capture.Objects
import RelayLifeline.Clock
import RelayLifeline.Governance.Actions
import RelayLifeline.Governance.Arith
import RelayLifeline.Governance.Budget
import RelayLifeline.Governance.Compaction
import RelayLifeline.Governance.Effects
import RelayLifeline.Governance.Keys
import RelayLifeline.Governance.Manager
import RelayLifeline.Governance.Observe
import RelayLifeline.Governance.Replay
import RelayLifeline.Governance.State
import RelayLifeline.Incidents.Store
import RelayLifeline.Journal.Calendar
import RelayLifeline.Journal.Digest
import RelayLifeline.Journal.DigestNat
import RelayLifeline.Journal.File
import RelayLifeline.Journal.Log
import RelayLifeline.Journal.Snapshots
import RelayLifeline.Journal.Tape
import RelayLifeline.Journal.Texts
import RelayLifeline.Journal.Wire
import RelayLifeline.Lib.Aead
import RelayLifeline.Lib.Base64
import RelayLifeline.Lib.Binary64
import RelayLifeline.Lib.Board
import RelayLifeline.Lib.Capped
import RelayLifeline.Lib.Ceiling
import RelayLifeline.Lib.Glob
import RelayLifeline.Lib.Json.Compact
import RelayLifeline.Lib.Json.Document
import RelayLifeline.Lib.Json.Fields
import RelayLifeline.Lib.Json.Read
import RelayLifeline.Lib.Json.Sound
import RelayLifeline.Lib.Json.Strings
import RelayLifeline.Lib.Json.Struct
import RelayLifeline.Lib.Json.Token
import RelayLifeline.Lib.Json.Twin
import RelayLifeline.Lib.Json.Write
import RelayLifeline.Lib.Keyset
import RelayLifeline.Lib.Paging
import RelayLifeline.Lib.Regex
import RelayLifeline.Lib.Ring
import RelayLifeline.Lib.Rotation
import RelayLifeline.Lib.Strconv
import RelayLifeline.Lib.Table
import RelayLifeline.Lib.Trace
import RelayLifeline.Lib.Trim
import RelayLifeline.Lib.Word
import RelayLifeline.Maintenance.Journals
import RelayLifeline.Monitoring.Events
import RelayLifeline.Monitoring.Store
import RelayLifeline.Notify.Notifier
import RelayLifeline.Policy.Config
import RelayLifeline.Policy.Effects
import RelayLifeline.Policy.Manager
import RelayLifeline.Policy.Release
import RelayLifeline.Policy.Shadow
import RelayLifeline.Policy.Site
import RelayLifeline.Proofs.Accounting
import RelayLifeline.Proofs.Adaptive
import RelayLifeline.Proofs.Admission
import RelayLifeline.Proofs.Agreement
import RelayLifeline.Proofs.Alerts
import RelayLifeline.Proofs.Atomicity
import RelayLifeline.Proofs.Attempts
import RelayLifeline.Proofs.Authentic
import RelayLifeline.Proofs.Binding
import RelayLifeline.Proofs.Breaker
import RelayLifeline.Proofs.Buckets
import RelayLifeline.Proofs.ByteSize
import RelayLifeline.Proofs.Cache
import RelayLifeline.Proofs.Circuit
import RelayLifeline.Proofs.CompactedRuns
import RelayLifeline.Proofs.Compaction
import RelayLifeline.Proofs.Compensation
import RelayLifeline.Proofs.Concurrency
import RelayLifeline.Proofs.Confirmations
import RelayLifeline.Proofs.Conservation
import RelayLifeline.Proofs.Control
import RelayLifeline.Proofs.Cooldown
import RelayLifeline.Proofs.Crash
import RelayLifeline.Proofs.Cursor
import RelayLifeline.Proofs.Durability
import RelayLifeline.Proofs.EventStream
import RelayLifeline.Proofs.Events
import RelayLifeline.Proofs.Evidence
import RelayLifeline.Proofs.Failover
import RelayLifeline.Proofs.Fidelity
import RelayLifeline.Proofs.Fifo
import RelayLifeline.Proofs.Filtered
import RelayLifeline.Proofs.Finish
import RelayLifeline.Proofs.HalfOpen
import RelayLifeline.Proofs.Incidents
import RelayLifeline.Proofs.Limiter
import RelayLifeline.Proofs.Limits
import RelayLifeline.Proofs.Lines
import RelayLifeline.Proofs.LoadSeries
import RelayLifeline.Proofs.Metrics
import RelayLifeline.Proofs.Mirror
import RelayLifeline.Proofs.Observe
import RelayLifeline.Proofs.OneSlot
import RelayLifeline.Proofs.Outstanding
import RelayLifeline.Proofs.Pagination
import RelayLifeline.Proofs.Patterns
import RelayLifeline.Proofs.Pricing
import RelayLifeline.Proofs.Quoted
import RelayLifeline.Proofs.Realtime
import RelayLifeline.Proofs.Reconfigure
import RelayLifeline.Proofs.Recovery
import RelayLifeline.Proofs.Refinement
import RelayLifeline.Proofs.ReleaseCrash
import RelayLifeline.Proofs.ReleaseReplay
import RelayLifeline.Proofs.Relink
import RelayLifeline.Proofs.Reload
import RelayLifeline.Proofs.Replay
import RelayLifeline.Proofs.ReplayFrame
import RelayLifeline.Proofs.Respacing
import RelayLifeline.Proofs.Response
import RelayLifeline.Proofs.Retention
import RelayLifeline.Proofs.Retire
import RelayLifeline.Proofs.RetryDelay
import RelayLifeline.Proofs.Rewriting
import RelayLifeline.Proofs.Rotation
import RelayLifeline.Proofs.RoundTrip
import RelayLifeline.Proofs.Runlog
import RelayLifeline.Proofs.Schedule
import RelayLifeline.Proofs.Sessions
import RelayLifeline.Proofs.Settlement
import RelayLifeline.Proofs.Shadow
import RelayLifeline.Proofs.Simulation
import RelayLifeline.Proofs.Skipped
import RelayLifeline.Proofs.Slots
import RelayLifeline.Proofs.States
import RelayLifeline.Proofs.Survival
import RelayLifeline.Proofs.Survivors
import RelayLifeline.Proofs.Tampering
import RelayLifeline.Proofs.Tasks
import RelayLifeline.Proofs.Throttle
import RelayLifeline.Proofs.Timeline
import RelayLifeline.Proofs.TimelineReplay
import RelayLifeline.Proofs.Times
import RelayLifeline.Proofs.Tokens
import RelayLifeline.Proofs.Uncertain
import RelayLifeline.Proofs.Usage
import RelayLifeline.Proofs.Views
import RelayLifeline.Proofs.Window
import RelayLifeline.Proofs.Wire
import RelayLifeline.Proofs.Wrapped
import RelayLifeline.Proofs.WriteOnly
import RelayLifeline.Proxy.Attempt
import RelayLifeline.Proxy.Buffer
import RelayLifeline.Proxy.Effects
import RelayLifeline.Proxy.EventStream
import RelayLifeline.Proxy.Gateway
import RelayLifeline.Proxy.Limiter
import RelayLifeline.Proxy.Points
import RelayLifeline.Proxy.Protocol
import RelayLifeline.Proxy.Repeat
import RelayLifeline.Proxy.RetryDelay
import RelayLifeline.Proxy.RetrySchedule
import RelayLifeline.Proxy.World
import RelayLifeline.Proxy.Writer
import RelayLifeline.Registry.Calls
import RelayLifeline.Registry.Control
import RelayLifeline.Registry.Effects
import RelayLifeline.Registry.Entry
import RelayLifeline.Registry.Lifecycle
import RelayLifeline.Registry.RetryPolicy
import RelayLifeline.Registry.Timeline
import RelayLifeline.Registry.Visits
import RelayLifeline.Repeat.Effects
import RelayLifeline.Repeat.Manager
import RelayLifeline.Repeat.Turns
import RelayLifeline.Risk.Manager
import RelayLifeline.Runes
import RelayLifeline.Runlog.Store
import RelayLifeline.Settings.ByteSize
import RelayLifeline.Settings.Config
import RelayLifeline.Settings.Restart
import RelayLifeline.Settings.Store
import RelayLifeline.Text
import RelayLifeline.Time
import RelayLifeline.Timeline.Record
import RelayLifeline.Timeline.Store
import RelayLifeline.Upstream.Effects
import RelayLifeline.Upstream.Leases
import RelayLifeline.Upstream.Manager
