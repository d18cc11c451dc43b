import GateGraph.Binary.Exact
import GateGraph.Cell.Attributes
import GateGraph.Cell.Inputs
import GateGraph.Descriptor.Json
import GateGraph.Proofs.Attribute.Decoding
import GateGraph.Proofs.Attribute.RoundTrip
import GateGraph.Proofs.Cell.Clipping
import GateGraph.Proofs.Cell.Creation
import GateGraph.Proofs.Cell.Gates
import GateGraph.Proofs.Cell.Inputs
import GateGraph.Proofs.Cell.Resolution
import GateGraph.Proofs.Cell.Revision
import GateGraph.Proofs.Descriptor.Export
import GateGraph.Proofs.Graph.Failure
import GateGraph.Proofs.Graph.Growth
import GateGraph.Proofs.Graph.Inference
import GateGraph.Proofs.Graph.NameChoice
import GateGraph.Proofs.Graph.NodeText
import GateGraph.Proofs.Graph.Sums
import GateGraph.Proofs.Shape.Compatibility
import GateGraph.Proofs.Shape.Queries
import GateGraph.Proofs.Shape.Text
