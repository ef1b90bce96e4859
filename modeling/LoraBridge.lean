import LoraBridge.Address.Broker
import LoraBridge.Address.Ipv6
import LoraBridge.Address.Url
import LoraBridge.Backend.Basic
import LoraBridge.Backend.Bench
import LoraBridge.Backend.Connect
import LoraBridge.Backend.Error
import LoraBridge.Bridge.Program
import LoraBridge.Bridge.Session
import LoraBridge.Broker.Memory
import LoraBridge.CommandLine.Basic
import LoraBridge.CommandLine.Options
import LoraBridge.Config.Basic
import LoraBridge.Config.Print
import LoraBridge.Config.Read
import LoraBridge.Config.Validate
import LoraBridge.Double.Basic
import LoraBridge.Double.Shortest
import LoraBridge.Downlink.Bench
import LoraBridge.Downlink.Channel
import LoraBridge.Duration
import LoraBridge.Envelope.Basic
import LoraBridge.Envelope.Decode
import LoraBridge.Envelope.Encode
import LoraBridge.Eui
import LoraBridge.Files
import LoraBridge.Json.Error
import LoraBridge.Json.Number
import LoraBridge.Json.Read
import LoraBridge.Json.Token
import LoraBridge.Json.Tree
import LoraBridge.Json.Value
import LoraBridge.Lifecycle
import LoraBridge.Log.Event
import LoraBridge.Log.Filter
import LoraBridge.Log.Record
import LoraBridge.Log.Setup
import LoraBridge.Main
import LoraBridge.Mqtt.Packet
import LoraBridge.Mqtt.Route
import LoraBridge.Proofs.Address.Spelling
import LoraBridge.Proofs.Backend.Actors
import LoraBridge.Proofs.Backend.Agreement
import LoraBridge.Proofs.Backend.Calls
import LoraBridge.Proofs.Backend.Connectivity
import LoraBridge.Proofs.Backend.Forwarding
import LoraBridge.Proofs.Backend.Handover
import LoraBridge.Proofs.Backend.History
import LoraBridge.Proofs.Backend.Ledger
import LoraBridge.Proofs.Backend.Refinement
import LoraBridge.Proofs.Backend.Replay
import LoraBridge.Proofs.Backend.Shutdown
import LoraBridge.Proofs.Backend.System
import LoraBridge.Proofs.Backend.Waiting
import LoraBridge.Proofs.Backend.World
import LoraBridge.Proofs.Broker.Script
import LoraBridge.Proofs.Config.Readiness
import LoraBridge.Proofs.Config.RoundTrip
import LoraBridge.Proofs.Config.Sections
import LoraBridge.Proofs.Envelope.Reading
import LoraBridge.Proofs.Envelope.RoundTrip
import LoraBridge.Proofs.Envelope.Variants
import LoraBridge.Proofs.Eui.Order
import LoraBridge.Proofs.Eui.Spelling
import LoraBridge.Proofs.Json.Building
import LoraBridge.Proofs.Json.Grammar
import LoraBridge.Proofs.Json.Lexing
import LoraBridge.Proofs.Json.Numeral
import LoraBridge.Proofs.Json.Parsing
import LoraBridge.Proofs.Json.Reading
import LoraBridge.Proofs.Json.Records
import LoraBridge.Proofs.Json.Scanning
import LoraBridge.Proofs.Json.Variants
import LoraBridge.Proofs.Registry.Sharing
import LoraBridge.Proofs.Results
import LoraBridge.Proofs.Runs
import LoraBridge.Proofs.Sanitize.Hiding
import LoraBridge.Proofs.Sanitize.Repetition
import LoraBridge.Proofs.Sanitize.Scan
import LoraBridge.Proofs.Sanitize.Secrets
import LoraBridge.Proofs.Sanitize.Settled
import LoraBridge.Proofs.Sanitize.Urls
import LoraBridge.Proofs.Text.Base64
import LoraBridge.Proofs.Text.Utf8
import LoraBridge.Proofs.Toml.Lines
import LoraBridge.Proofs.Toml.Quoting
import LoraBridge.Proofs.Toml.Words
import LoraBridge.Proofs.Topic.Compiled
import LoraBridge.Proofs.Topic.Grammar
import LoraBridge.Proofs.Topic.Injective
import LoraBridge.Proofs.Transport.Acceptance
import LoraBridge.Proofs.Transport.Answering
import LoraBridge.Proofs.Transport.Bookkeeping
import LoraBridge.Proofs.Transport.Cancellation
import LoraBridge.Proofs.Transport.Correlation
import LoraBridge.Proofs.Transport.Dropping
import LoraBridge.Proofs.Transport.Following
import LoraBridge.Proofs.Transport.Line
import LoraBridge.Proofs.Transport.Network
import LoraBridge.Proofs.Transport.Opening
import LoraBridge.Proofs.Transport.Outlook
import LoraBridge.Proofs.Transport.Peer
import LoraBridge.Proofs.Transport.Pending
import LoraBridge.Proofs.Transport.Service
import LoraBridge.Proofs.Transport.Shift
import LoraBridge.Proofs.Transport.Shutdown
import LoraBridge.Proofs.Transport.Standing
import LoraBridge.Registry
import LoraBridge.Sanitize
import LoraBridge.Text.Base64
import LoraBridge.Text.Blank
import LoraBridge.Text.Quoted
import LoraBridge.Text.Shown
import LoraBridge.Timestamp
import LoraBridge.Tls.Error
import LoraBridge.Tls.Library
import LoraBridge.Tls.Material
import LoraBridge.Tls.Plain
import LoraBridge.Tls.Plain.Certificate
import LoraBridge.Tls.Plain.Der
import LoraBridge.Tls.Plain.Pem
import LoraBridge.Tls.Plain.PrivateKey
import LoraBridge.Toml.Quoted
import LoraBridge.Toml.Read
import LoraBridge.Toml.Scalar
import LoraBridge.Toml.Text
import LoraBridge.Toml.Value
import LoraBridge.Topic.Template
import LoraBridge.Topic.Topics
import LoraBridge.Transport.Acks
import LoraBridge.Transport.Backoff
import LoraBridge.Transport.Bench
import LoraBridge.Transport.Client
import LoraBridge.Transport.Error
import LoraBridge.Transport.EventLoop
import LoraBridge.Transport.Options
import LoraBridge.Transport.Request
