import V91Core.Ledger.Concurrent
import V91Core.Ledger.Runs
import V91Core.Control.Actuation
import V91Core.Control.Streak
import V91Core.LeaseLock.Fencing
import V91Core.Measurement.Serialised
import V91Core.PeerSync.Staleness
import V91Core.PeerSync.Untrusted
import V91Core.Worker.Agreement
import V91Core.Worker.Interference
import V91Core.Python.Data
import V91Core.Guard.Policy
import V91Core.Guard.Monotone
import V91Core.Python.Crypto
import V91Core.Store.CryptoReceipts
import V91Core.Store.Encrypted
import V91Core.Store.Redeem
import V91Core.Content.Framing
import V91Core.Content.Map
import V91Core.Store.Peer
import V91Core.Store.Contents
import V91Core.Store.Relabel
import V91Core.ModelRun.Manifest
import V91Core.ModelRun.Runner
import V91Core.ModelRun.Independent
import V91Core.Effect.Mealy
import V91Core.Ledger.Data
import V91Core.Stewardship.Gate
import V91Core.Stewardship.InStep
import V91Core.Stewardship.Restart
import V91Core.Python.DateTime
import V91Core.Manifest.Signed
import V91Core.Manifest.Structure
import V91Core.Manifest.RoundTrip
import V91Core.Effect.Atomic
import V91Core.Store.AllOrNothing
import V91Core.Store.FailClosed
import V91Core.Effect.Answers
import V91Core.Security.KeyRotation
import V91Core.Agent.Cycle
import V91Core.Agent.Inspection
import V91Core.Agent.Proposals
import V91Core.Agent.Healthy
import V91Core.Agent.Repairs
import V91Core.Agent.Isolation
import V91Core.PeerSync.Create
import V91Core.Guardrail.Core
import V91Core.Guardrail.Runner
import V91Core.Python.Files
import V91Core.Recovery.Backup
import V91Core.Ledger.Readers
import V91Core.Effect.Raises
import V91Core.Ledger.Reports
import V91Core.ModelRun.Session
import V91Core.Measurement.FailClosed
import V91Core.Security.FileStore
import V91Core.Feedback.Record
import V91Core.Json.Cut
import V91Core.Manifest.Total
import V91Core.Admission.Model
import V91Core.Feedback.Log
import V91Core.Python.Order
import V91Core.Admission.Evidence
import V91Core.Numeric.HalfEven
import V91Core.Numeric.Moments
import V91Core.Python.FloatText
import V91Core.Python.Statistics
import V91Core.Impact.Model
import V91Core.Impact.Accepted
import V91Core.Impact.Total
import V91Core.Impact.Valid
import V91Core.Json.Surrogates
import V91Core.Python.JsonForm
import V91Core.ModelRun.Transport
import V91Core.LegacyGate.Record
import V91Core.Python.Lower
import V91Core.SourceQuality.Registry
import V91Core.SourceQuality.Stream
import V91Core.Guardrail.Padding
import V91Core.Anomaly.Detector
import V91Core.Control.CorruptState
import V91Core.Anomaly.Runs
import V91Core.Json.Reread
import V91Core.Observer.Snapshot
import V91Core.Observer.Log
import V91Core.Json.Extend
import V91Core.Json.Objects
import V91Core.Control.JsonLines
import V91Core.Python.FileTree
import V91Core.Worker.Workspace
import V91Core.Worker.Correspondence
import V91Core.LeaseLock.Expiry
import V91Core.Listener.Runs
import V91Core.Agent.Main
import V91Core.Observer.Dashboard
