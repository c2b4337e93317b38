import HubDevice.Agent.Command
import HubDevice.Agent.Interval
import HubDevice.Agent.Joined
import HubDevice.Agent.Publishing
import HubDevice.Agent.Random
import HubDevice.Agent.Readiness
import HubDevice.Agent.Reading
import HubDevice.Agent.Service
import HubDevice.Bench.Attempts
import HubDevice.Bench.Clock
import HubDevice.Bench.Files
import HubDevice.Bench.Form
import HubDevice.Bench.Offline
import HubDevice.Bench.Record
import HubDevice.Bench.Rehearsal
import HubDevice.Bench.Sample
import HubDevice.Bench.Script
import HubDevice.Bench.Stage
import HubDevice.Bench.Storing
import HubDevice.Bench.Telemetry
import HubDevice.Bench.Waits
import HubDevice.Codec
import HubDevice.Compress.Checksum
import HubDevice.Compress.Deflate
import HubDevice.Compress.Entropy
import HubDevice.Compress.Gzip
import HubDevice.Compress.PrefixCode
import HubDevice.Compress.Sequences
import HubDevice.Compress.Stored
import HubDevice.Compress.Zstd
import HubDevice.Concurrent.FairLock
import HubDevice.Concurrent.Inbox
import HubDevice.Concurrent.Progress
import HubDevice.Concurrent.Turns
import HubDevice.Concurrent.Watched
import HubDevice.Config.Agent
import HubDevice.Config.Auth
import HubDevice.Config.Client
import HubDevice.Config.Failure
import HubDevice.Config.Files
import HubDevice.Config.Logging
import HubDevice.Config.Payload
import HubDevice.Config.Retrying
import HubDevice.Config.Telemetry
import HubDevice.Config.Tls
import HubDevice.Credential.Sha256
import HubDevice.Credential.Token
import HubDevice.Data.Cbor
import HubDevice.Data.Datum
import HubDevice.Data.MessagePack
import HubDevice.Data.TwinDocument
import HubDevice.Device.Drain
import HubDevice.Device.Instance
import HubDevice.Error
import HubDevice.Feature
import HubDevice.Handler
import HubDevice.Json.Numeral
import HubDevice.Json.Parser
import HubDevice.Json.Printer
import HubDevice.Json.Token
import HubDevice.Json.Value
import HubDevice.Kernel.Close
import HubDevice.Kernel.Open
import HubDevice.Kernel.Operation
import HubDevice.Kernel.Recovery
import HubDevice.Kernel.State
import HubDevice.Kernel.Threads
import HubDevice.Kernel.Watcher
import HubDevice.Message
import HubDevice.Mqtt.Driver
import HubDevice.Mqtt.Failure
import HubDevice.Mqtt.Options
import HubDevice.Mqtt.Packet
import HubDevice.Mqtt.Router
import HubDevice.Mqtt.Session
import HubDevice.Number.Binary64
import HubDevice.Number.Power
import HubDevice.Number.Shortest
import HubDevice.Octets
import HubDevice.Proofs.Agent.Commands
import HubDevice.Proofs.Agent.Publishing
import HubDevice.Proofs.Agent.Random
import HubDevice.Proofs.Agent.Readiness
import HubDevice.Proofs.Agent.Reading
import HubDevice.Proofs.Codec
import HubDevice.Proofs.Compress.RoundTrip
import HubDevice.Proofs.Concurrent.FairLock
import HubDevice.Proofs.Concurrent.History
import HubDevice.Proofs.Concurrent.Inbox
import HubDevice.Proofs.Concurrent.Progress
import HubDevice.Proofs.Concurrent.Watched
import HubDevice.Proofs.Config.Failure
import HubDevice.Proofs.Credential.Token
import HubDevice.Proofs.Device.Count
import HubDevice.Proofs.Device.Drain
import HubDevice.Proofs.Device.Happening
import HubDevice.Proofs.Device.WakeUp
import HubDevice.Proofs.Handler
import HubDevice.Proofs.Json.Whole
import HubDevice.Proofs.Kernel.Announcement
import HubDevice.Proofs.Kernel.Aside
import HubDevice.Proofs.Kernel.Attempts
import HubDevice.Proofs.Kernel.Batch
import HubDevice.Proofs.Kernel.Causes
import HubDevice.Proofs.Kernel.Closing
import HubDevice.Proofs.Kernel.Closure
import HubDevice.Proofs.Kernel.Custody
import HubDevice.Proofs.Kernel.Deeds
import HubDevice.Proofs.Kernel.Dormant
import HubDevice.Proofs.Kernel.Gate
import HubDevice.Proofs.Kernel.LastReport
import HubDevice.Proofs.Kernel.Leftover
import HubDevice.Proofs.Kernel.Lifecycle
import HubDevice.Proofs.Kernel.Link
import HubDevice.Proofs.Kernel.OpenLaw
import HubDevice.Proofs.Kernel.Operations
import HubDevice.Proofs.Kernel.Order
import HubDevice.Proofs.Kernel.Path
import HubDevice.Proofs.Kernel.Recovery
import HubDevice.Proofs.Kernel.RecoveryLaw
import HubDevice.Proofs.Kernel.Replay
import HubDevice.Proofs.Kernel.Reports
import HubDevice.Proofs.Kernel.Script
import HubDevice.Proofs.Kernel.SingleFlight
import HubDevice.Proofs.Kernel.Snapshot
import HubDevice.Proofs.Kernel.Step
import HubDevice.Proofs.Kernel.Subscriptions
import HubDevice.Proofs.Kernel.Toggles
import HubDevice.Proofs.Kernel.Twins
import HubDevice.Proofs.Kernel.Vacancy
import HubDevice.Proofs.Kernel.Watching
import HubDevice.Proofs.Mqtt.Call
import HubDevice.Proofs.Mqtt.Driver
import HubDevice.Proofs.Mqtt.Options
import HubDevice.Proofs.Mqtt.Reception
import HubDevice.Proofs.Mqtt.Router
import HubDevice.Proofs.Mqtt.Routing
import HubDevice.Proofs.Mqtt.Size
import HubDevice.Proofs.Number.Rounding
import HubDevice.Proofs.Number.Unpacked
import HubDevice.Proofs.Retry.Backoff
import HubDevice.Proofs.Retry.Run
import HubDevice.Proofs.Retry.Series
import HubDevice.Proofs.Retry.Trace
import HubDevice.Proofs.Session.Answers
import HubDevice.Proofs.Session.Channels
import HubDevice.Proofs.Session.Closed
import HubDevice.Proofs.Session.Ledger
import HubDevice.Proofs.Session.Lifecycle
import HubDevice.Proofs.Session.Twins
import HubDevice.Proofs.Session.Wire
import HubDevice.Proofs.Text.Base64
import HubDevice.Proofs.Text.Percent
import HubDevice.Proofs.Text.Split
import HubDevice.Proofs.Text.Whole
import HubDevice.Proofs.Topic.Arrival
import HubDevice.Proofs.Topic.Bag
import HubDevice.Proofs.Topic.Query
import HubDevice.Proofs.Topic.Restored
import HubDevice.Proofs.Topic.Structure
import HubDevice.Proofs.Topic.Weight
import HubDevice.Retry.Backoff
import HubDevice.Retry.Run
import HubDevice.Session.Cause
import HubDevice.Session.Closed
import HubDevice.Session.Wire
import HubDevice.Span
import HubDevice.Status
import HubDevice.Text.Base64
import HubDevice.Text.Blank
import HubDevice.Text.Escaped
import HubDevice.Text.Percent
import HubDevice.Text.Split
import HubDevice.Text.Unseen
import HubDevice.Text.Whole
import HubDevice.Toml.Document
import HubDevice.Toml.Scalar
import HubDevice.Toml.Text
import HubDevice.Topic.Bag
import HubDevice.Topic.Name
