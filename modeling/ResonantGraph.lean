import ResonantGraph.Kernel.Program
import ResonantGraph.Main
import ResonantGraph.Processor.Plain
import ResonantGraph.Store.Faulty
import ResonantGraph.Substrate.Operation
import ResonantGraph.Proofs.Snapshot.Accepted
import ResonantGraph.Proofs.Substrate.Repair
import ResonantGraph.Proofs.Codec.Format
import ResonantGraph.Proofs.Snapshot.RoundTrip
import ResonantGraph.Proofs.Store.Logged
import ResonantGraph.Proofs.Substrate.Isolation
import ResonantGraph.Proofs.Substrate.Interchange
import ResonantGraph.Proofs.Command.Copy
import ResonantGraph.Proofs.Command.Batch
import ResonantGraph.Proofs.Text.Lowering
import ResonantGraph.Proofs.Mapper.Names
import ResonantGraph.Proofs.Mapper.Elements
import ResonantGraph.Proofs.Mapper.Records
import ResonantGraph.Proofs.Mapper.Addition
import ResonantGraph.Proofs.Mapper.Joining
import ResonantGraph.Proofs.Mapper.Origin
import ResonantGraph.Proofs.Mapper.Structure
import ResonantGraph.Proofs.Mapper.Order
import ResonantGraph.Proofs.Kernel.Events
import ResonantGraph.Proofs.Kernel.Journey
import ResonantGraph.Proofs.Kernel.Memory
import ResonantGraph.Proofs.Kernel.Signals
import ResonantGraph.Proofs.Substrate.Sequence
import ResonantGraph.Proofs.Hypergraph.Search
import ResonantGraph.Proofs.Substrate.Propagation
import ResonantGraph.Proofs.Substrate.Refusal
import ResonantGraph.Proofs.Mapper.FirstRecord
import ResonantGraph.Proofs.Binary64.Nearest
import ResonantGraph.Proofs.Hypergraph.Clustering
import ResonantGraph.Proofs.Resonance.Matching
import ResonantGraph.Proofs.Substrate.Cascade
import ResonantGraph.Proofs.Binary64.Storage
import ResonantGraph.Proofs.Binary64.Rounding
import ResonantGraph.Proofs.Resonance.Bounds
import ResonantGraph.Proofs.Resonance.Routing
import ResonantGraph.Proofs.Resonance.Bookkeeping
import ResonantGraph.Proofs.Text.Fingerprint
import ResonantGraph.Proofs.Text.Words
