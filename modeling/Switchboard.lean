import Switchboard.Address
import Switchboard.Cli.Arguments
import Switchboard.Cli.Command
import Switchboard.Cli.Run
import Switchboard.Cli.Usage
import Switchboard.Config
import Switchboard.Connection
import Switchboard.Discovery
import Switchboard.Duration
import Switchboard.Fault
import Switchboard.Inflight
import Switchboard.Inflight.Script
import Switchboard.IpAddress
import Switchboard.Json.Convert
import Switchboard.Json.Number
import Switchboard.Json.Printer
import Switchboard.Json.Reader
import Switchboard.Json.Value
import Switchboard.Lock
import Switchboard.Main
import Switchboard.Manager
import Switchboard.MessagePack.Decoder
import Switchboard.MessagePack.Display
import Switchboard.MessagePack.Encoder
import Switchboard.MessagePack.Value
import Switchboard.Number.Binary
import Switchboard.Number.Shortest
import Switchboard.Octets
import Switchboard.Pool
import Switchboard.Proofs.Inflight.Table
import Switchboard.Proofs.Streaming
import Switchboard.Proofs.SyncIds
import Switchboard.Request
import Switchboard.Retry.Attempts
import Switchboard.Retry.Delay
import Switchboard.Retry.Policy
import Switchboard.Retry.Script
import Switchboard.Selection
import Switchboard.Simulation.Attempt
import Switchboard.Simulation.ClusterWork
import Switchboard.Simulation.DiscoveryScenario
import Switchboard.Simulation.Engine
import Switchboard.Simulation.Operation
import Switchboard.Simulation.Pipe
import Switchboard.Simulation.PoolWork
import Switchboard.Simulation.Pump
import Switchboard.Simulation.Scenario
import Switchboard.Simulation.Sending
import Switchboard.Simulation.Server
import Switchboard.Simulation.World
import Switchboard.SyncIds
import Switchboard.Text.Base64
import Switchboard.Text.Blank
import Switchboard.Text.Cut
import Switchboard.Text.Numeral
import Switchboard.Text.Quoted
import Switchboard.Text.Similarity
import Switchboard.Text.Unprintable
import Switchboard.Text.Utf8
import Switchboard.Topology
import Switchboard.Watch
import Switchboard.Wire.Body
import Switchboard.Wire.Code
import Switchboard.Wire.Frame
import Switchboard.Wire.Greeting
import Switchboard.Wire.Header
import Switchboard.Wire.Key
import Switchboard.Proofs.FrameSequences
import Switchboard.Proofs.Inflight.Runs
import Switchboard.Proofs.Interleaving.Steps
import Switchboard.Proofs.Interleaving.Effects
import Switchboard.Proofs.Interleaving.Invariant
import Switchboard.Proofs.Interleaving.Fate
import Switchboard.Proofs.Interleaving.Outcome
import Switchboard.Proofs.Interleaving.Sweep
import Switchboard.Proofs.Interleaving.Channels
import Switchboard.Proofs.Interleaving.Outgoing
import Switchboard.Proofs.Interleaving.Classes
import Switchboard.Proofs.Interleaving.Callers
import Switchboard.Proofs.Interleaving.Alone
import Switchboard.Proofs.Interleaving.Worlds
import Switchboard.Proofs.Interleaving.Activities
import Switchboard.Proofs.Interleaving.Dispatches
import Switchboard.Proofs.MessagePack.Grammar
import Switchboard.Proofs.MessagePack.Writing
import Switchboard.Proofs.MessagePack.Depth
import Switchboard.Proofs.RoundTrip
import Switchboard.Proofs.Forwarding
import Switchboard.Proofs.Utf8
import Switchboard.Proofs.Bodies
import Switchboard.Proofs.Floats
import Switchboard.Proofs.Json.Numbers
import Switchboard.Proofs.Json.Reading
import Switchboard.Proofs.Json.Conversion
import Switchboard.Proofs.Replies
import Switchboard.Proofs.Addresses
import Switchboard.Proofs.Cluster.Managers
import Switchboard.Proofs.Cluster.Steps
import Switchboard.Proofs.Cluster.Invariant
import Switchboard.Proofs.Cluster.Ownership
import Switchboard.Proofs.Cluster.Reconciliation
import Switchboard.Proofs.Cluster.Updates
import Switchboard.Proofs.Cluster.Worlds
import Switchboard.Proofs.Cluster.Children
import Switchboard.Proofs.Cluster.Activities
import Switchboard.Proofs.Cluster.History
import Switchboard.Proofs.Pools.Steps
import Switchboard.Proofs.Pools.Invariant
import Switchboard.Proofs.Pools.Stock
import Switchboard.Proofs.Worlds
import Switchboard.Proofs.Pools.Worlds
import Switchboard.Proofs.Pools.Activities
import Switchboard.Proofs.Pools.Closure
import Switchboard.Proofs.Establishing.Steps
import Switchboard.Proofs.Establishing.Handover
import Switchboard.Proofs.Establishing.Lifecycle
import Switchboard.Proofs.Establishing.Activities
import Switchboard.Proofs.Pools.Pending
import Switchboard.Proofs.Pools.Draining
import Switchboard.Proofs.Pools.Meanwhile
import Switchboard.Proofs.Pools.Patience
import Switchboard.Proofs.Retries
import Switchboard.Proofs.AddressText
import Switchboard.Proofs.Cluster.Dispatching
import Switchboard.Proofs.Base64
import Switchboard.Proofs.Greetings
import Switchboard.Proofs.AddressForms
import Switchboard.Proofs.WholeNumbers
import Switchboard.Proofs.Backoff
import Switchboard.Proofs.Cluster.Opening
import Switchboard.Proofs.Inflight.Registering
import Switchboard.Proofs.Headers
import Switchboard.Proofs.Turns
