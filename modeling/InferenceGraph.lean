import InferenceGraph.Layout.Element
import InferenceGraph.Proofs.Host.Calls
import InferenceGraph.Proofs.Host.Obstacle
import InferenceGraph.Proofs.Host.Reordering
import InferenceGraph.Proofs.Program.Structure
import InferenceGraph.Proofs.Registry.Dispatch
import InferenceGraph.Proofs.Registry.Exchange
import InferenceGraph.Proofs.Session.Recompilation
import InferenceGraph.Session
import InferenceGraph.Proofs.Kind.Derivation
import InferenceGraph.Proofs.Program.Derivation
import InferenceGraph.Proofs.Descriptor.Checks
import InferenceGraph.Proofs.Registry.Acceptance
import InferenceGraph.Proofs.Buffer.Writes
import InferenceGraph.Proofs.Layout.Numbering
import InferenceGraph.Proofs.Detection.Selection
import InferenceGraph.Proofs.Detection.Sharing
import InferenceGraph.Proofs.Detection.Renumbering
import InferenceGraph.Proofs.Host.Detections
import InferenceGraph.Proofs.Program.Retention
import InferenceGraph.Proofs.Host.Storage
import InferenceGraph.Proofs.Detection.Ranges
import InferenceGraph.Proofs.Network.Executed
import InferenceGraph.Proofs.Topology.Operations
import InferenceGraph.Proofs.Program.Drawing
import InferenceGraph.Proofs.Order.Recursion
import InferenceGraph.Proofs.Detection.Overlap
import InferenceGraph.Proofs.Network.Mismatch
import InferenceGraph.Proofs.Host.Evaluation
import InferenceGraph.Proofs.Host.Clamp
