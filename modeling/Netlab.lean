import Netlab.Algorithm.ActionMask
import Netlab.Algorithm.Barrier
import Netlab.Algorithm.Bridge
import Netlab.Algorithm.Degraded
import Netlab.Algorithm.Marl
import Netlab.Algorithm.Observations
import Netlab.Algorithm.ShieldFixed
import Netlab.Algorithm.ShieldFrames
import Netlab.Algorithm.ShieldPayload
import Netlab.Algorithm.ShieldSoundness
import Netlab.Bootstrap
import Netlab.Clock
import Netlab.Config.GridSweep
import Netlab.Config.Sufficiency
import Netlab.ConfigurationHash
import Netlab.Energy
import Netlab.Isaac
import Netlab.Link.Closer
import Netlab.Link.GateSpec
import Netlab.Link.NoiseFloor
import Netlab.MissionControl.Requests
import Netlab.Orchestrator.Runs
import Netlab.Packet.Accounting
import Netlab.Packet.Announcements
import Netlab.Packet.GateSoundness
import Netlab.Packet.Independence
import Netlab.Plugins
import Netlab.Prelude.Order
import Netlab.Preview.Agreement
import Netlab.Relay.Atomicity
import Netlab.Relay.BranchFailure
import Netlab.Relay.ColdStart
import Netlab.Relay.Cursors
import Netlab.Relay.Deactivated
import Netlab.Relay.ExecutedEdges
import Netlab.Relay.Failures
import Netlab.Relay.Gate
import Netlab.Relay.Hold
import Netlab.Relay.InventoryUpdate
import Netlab.Relay.Mirror
import Netlab.Relay.Runs
import Netlab.Relay.Sanitizers
import Netlab.Relay.Travel
import Netlab.Revisions.Drafts
import Netlab.Revisions.InSync
import Netlab.Revisions.Snapshot
import Netlab.Routing.LatencyAware
import Netlab.Routing.MaximumBottleneck
import Netlab.Security
import Netlab.State.AtomicReplace
import Netlab.State.Store
import Netlab.Support
import Netlab.Synchronization.CommitGates
import Netlab.Synchronization.Committable
import Netlab.Synchronization.Endpoint
import Netlab.Synchronization.Finality
import Netlab.Synchronization.ForeignAcks
import Netlab.Synchronization.RosRevision
import Netlab.Telemetry.Newest
import Netlab.Telemetry.Percentile
import Netlab.Topology.Betweenness
import Netlab.Topology.CutNodes
import Netlab.Topology.Diameter
import Netlab.Topology.Generated
import Netlab.Traffic
