import VirtualTopology.Daemon.Memory
import VirtualTopology.Document.Matching
import VirtualTopology.Main
import VirtualTopology.Proofs.Completeness
import VirtualTopology.Proofs.Convergence
import VirtualTopology.Proofs.Footprint
import VirtualTopology.Proofs.Host.Disrupted
import VirtualTopology.Proofs.InUse
import VirtualTopology.Proofs.Pass.Alike
import VirtualTopology.Proofs.Pass.Blocking
import VirtualTopology.Proofs.Pass.DryRun
import VirtualTopology.Proofs.Idempotence
import VirtualTopology.Proofs.Power
import VirtualTopology.Proofs.Prediction
import VirtualTopology.Proofs.Preview
import VirtualTopology.Proofs.Success
import VirtualTopology.Proofs.VolumeSafety
import VirtualTopology.Proofs.Host.History
import VirtualTopology.Proofs.Restart
import VirtualTopology.Proofs.Isolation
import VirtualTopology.Proofs.Pass.Apart
import VirtualTopology.Proofs.Pass.Steps
import VirtualTopology.Proofs.Pass.Turns
import VirtualTopology.Proofs.Cancellation
import VirtualTopology.Proofs.Sequence
import VirtualTopology.Proofs.Legality
import VirtualTopology.Proofs.Reporting
import VirtualTopology.Proofs.Order
import VirtualTopology.Proofs.Data.Settling
import VirtualTopology.Proofs.Topology.Coherence
import VirtualTopology.Proofs.Document.Decoration
import VirtualTopology.Proofs.Document.Difference
import VirtualTopology.Proofs.Topology.Reload
import VirtualTopology.Proofs.Healing
import VirtualTopology.Proofs.Daemon.Client
import VirtualTopology.Proofs.Daemon.Discipline
import VirtualTopology.Proofs.Daemon.ReadOnly
import VirtualTopology.Proofs.Document.Exactness
import VirtualTopology.Proofs.Document.Faithful
import VirtualTopology.Proofs.Document.Siblings
import VirtualTopology.Proofs.Pass.Appended
import VirtualTopology.Proofs.Topology.Netmask
import VirtualTopology.Proofs.Topology.StaticAddresses
import VirtualTopology.Proofs.Document.DiskTargets
import VirtualTopology.Proofs.Topology.DomainItems
import VirtualTopology.Proofs.Topology.Refusals
import VirtualTopology.Proofs.Command.Shell
import VirtualTopology.Proofs.Command.RefusedTopology
import VirtualTopology.Proofs.Settings.Overriding
import VirtualTopology.Proofs.Settings.Precedence
import VirtualTopology.Proofs.Document.Sizes
import VirtualTopology.Proofs.Command.CleanExit
import VirtualTopology.Proofs.Command.Rendering
import VirtualTopology.Proofs.Settings.Sources
import VirtualTopology.Proofs.Topology.HardwareAddresses
import VirtualTopology.Proofs.Topology.Shorthand
import VirtualTopology.Proofs.Topology.VariableStores
