import HealthConsensus.Certificate.Basic
import HealthConsensus.Cipher.Frame
import HealthConsensus.Gossip.Codec
import HealthConsensus.Report
import HealthConsensus.Pin.Basic
import HealthConsensus.Settings.Load
import HealthConsensus.Settings.Record
import HealthConsensus.Text.Bytes
import HealthConsensus.Store.Contents
import HealthConsensus.Table
import HealthConsensus.Admin.Body
import HealthConsensus.Admin.Request
import HealthConsensus.Admin.Routes
import HealthConsensus.Admission.Basic
import HealthConsensus.Check.Network
import HealthConsensus.Gossip.Handler
import HealthConsensus.Node.Basic
import HealthConsensus.Registry.Update
import HealthConsensus.Store.Memory
import HealthConsensus.Validator.Schedule
import HealthConsensus.Store.Glob
import HealthConsensus.Store.Redis
import HealthConsensus.Store.RedisServer
import HealthConsensus.Node.Facilities
import HealthConsensus.Proofs.Operation
import HealthConsensus.Proofs.Agreement
import HealthConsensus.Proofs.Registry.Calls
import HealthConsensus.Proofs.Registry.EventLog
import HealthConsensus.Proofs.Registry.Locality
import HealthConsensus.Proofs.Registry.News
import HealthConsensus.Proofs.Registry.Staleness
import HealthConsensus.Proofs.Registry.Sweeping
import HealthConsensus.Proofs.Admission.Trust
import HealthConsensus.Proofs.Admission.Description
import HealthConsensus.Proofs.Admission.Order
import HealthConsensus.Proofs.Admission.Gates
import HealthConsensus.Proofs.Admission.FirstContact
import HealthConsensus.Proofs.Node.Calls
import HealthConsensus.Proofs.Node.Runs
import HealthConsensus.Proofs.Node.Admission
import HealthConsensus.Proofs.Json.Quoted
import HealthConsensus.Proofs.Number.Digits
import HealthConsensus.Proofs.Json.Numeral
import HealthConsensus.Proofs.Json.Lexing
import HealthConsensus.Proofs.Json.Grammar
import HealthConsensus.Proofs.Json.Text
import HealthConsensus.Proofs.Json.Fields
import HealthConsensus.Proofs.Time.Calendar
import HealthConsensus.Proofs.Time.Rfc3339
import HealthConsensus.Proofs.Time.Order
import HealthConsensus.Proofs.Backend.Record
import HealthConsensus.Proofs.Store.Contents
import HealthConsensus.Proofs.Store.Mirror
import HealthConsensus.Proofs.Store.Queues
import HealthConsensus.Proofs.Node.Persistence
import HealthConsensus.Proofs.Node.Restart
import HealthConsensus.Proofs.Node.RecordKeys
import HealthConsensus.Proofs.Node.Failures
import HealthConsensus.Proofs.Node.Order
import HealthConsensus.Proofs.Node.Independence
import HealthConsensus.Proofs.Registry.Chronicle
import HealthConsensus.Proofs.Registry.Creation
import HealthConsensus.Proofs.Store.WriteBehind
import HealthConsensus.Proofs.Number.Bits
import HealthConsensus.Proofs.Number.Rounding
import HealthConsensus.Proofs.Number.Shortest
import HealthConsensus.Proofs.Number.Layout
import HealthConsensus.Proofs.Gossip.Lenient
import HealthConsensus.Proofs.Gossip.RoundTrip
import HealthConsensus.Proofs.Gossip.Intake
import HealthConsensus.Proofs.Json.Records
import HealthConsensus.Proofs.Backend.Normalization
import HealthConsensus.Proofs.Text.Bytes
import HealthConsensus.Proofs.Store.Glob
import HealthConsensus.Proofs.Store.Listing
import HealthConsensus.Proofs.Store.Watching
import HealthConsensus.Proofs.Validator.Probes
import HealthConsensus.Proofs.Validator.Sweep
import HealthConsensus.Proofs.Registry.Draining
import HealthConsensus.Proofs.Gossip.Heartbeats
import HealthConsensus.Proofs.Gossip.Envelopes
import HealthConsensus.Proofs.Gossip.Rejection
import HealthConsensus.Proofs.Gossip.Payloads
import HealthConsensus.Proofs.Cipher.Frame
import HealthConsensus.Proofs.Registry.Latency
import HealthConsensus.Proofs.Gossip.Tallies
import HealthConsensus.Proofs.Registry.Readers
import HealthConsensus.Proofs.Text.Base64
import HealthConsensus.Proofs.Settings.ClusterKey
import HealthConsensus.Proofs.Validator.Deadlines
import HealthConsensus.Proofs.Logs
import HealthConsensus.Proofs.Registry.Lines
import HealthConsensus.Proofs.Admission.Secrets
import HealthConsensus.Proofs.Node.Lines
import HealthConsensus.Proofs.Node.Discretion
import HealthConsensus.Proofs.Number.Literal
import HealthConsensus.Proofs.Toml.Quoted
import HealthConsensus.Proofs.Settings.Trees
import HealthConsensus.Proofs.Settings.Fields
import HealthConsensus.Proofs.Settings.Readings
import HealthConsensus.Proofs.Settings.Environment
import HealthConsensus.Proofs.Store.Scan
import HealthConsensus.Proofs.Admission.Expiry
import HealthConsensus.Proofs.Node.Reloading
import HealthConsensus.Proofs.Settings.Acceptance
import HealthConsensus.Proofs.Store.Patterns
