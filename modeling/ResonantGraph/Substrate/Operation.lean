import ResonantGraph.Substrate

/-!
# Operations as data

An `Operation` is one thing that a client may ask of a substrate, and `Substrate.perform` does it.
A list of operations is a history; `Substrate.performAll` runs one and collects the answers. What is
claimed of every run of a substrate is claimed of every history.
-/

namespace ResonantGraph

/-- A change, a question, or an exchange with the store. -/
inductive Operation
  /-- Add a node. -/
  | addNode (node : Node)
  /-- Replace a node. -/
  | updateNode (node : Node)
  /-- Remove a node and the edges that join it. -/
  | removeNode (id : NodeId)
  /-- Look a node up. -/
  | getNode (id : NodeId)
  /-- Ask whether a node is there. -/
  | nodeExists (id : NodeId)
  /-- Add an edge. -/
  | addEdge (edge : Edge)
  /-- Replace an edge. -/
  | updateEdge (edge : Edge)
  /-- Remove an edge. -/
  | removeEdge (id : EdgeId)
  /-- Look an edge up. -/
  | getEdge (id : EdgeId)
  /-- Ask whether an edge is there. -/
  | edgeExists (id : EdgeId)
  /-- List the nodes that share an edge with a node. -/
  | connected (id : NodeId)
  /-- List the edges that join a node. -/
  | incident (id : NodeId)
  /-- List the members of an edge. -/
  | membersOf (id : EdgeId)
  /-- Find nodes by an attribute. -/
  | nodesWithAttribute (key value : String)
  /-- Find edges by an attribute. -/
  | edgesWithAttribute (key value : String)
  /-- Find nodes by a pattern. -/
  | nodesWithPattern (pattern : String)
  /-- List all nodes. -/
  | nodeIds
  /-- List all edges. -/
  | edgeIds
  /-- Draw a number from the sequence. -/
  | nextSequence
  /-- Spread activation. -/
  | propagate (source : NodeId) (initial : Binary64)
  /-- Set an activation. -/
  | updateActivation (id : NodeId) (level : Binary64)
  /-- Ask for an activation. -/
  | activation (id : NodeId)
  /-- Ask for a clustering coefficient. -/
  | clustering (id : NodeId)
  /-- Ask for the density. -/
  | density
  /-- Ask for all figures. -/
  | metrics (focus : Option NodeId)
  /-- Save everything. -/
  | save
  /-- Rebuild the graph from the store. -/
  | load
  /-- Empty the graph. -/
  | clear
  /-- Take a copy of the graph. -/
  | snapshot
  /-- Put a graph in place. -/
  | restore (graph : Hypergraph)

/-- What an operation answers. -/
inductive Answer
  /-- Nothing but that it is done. -/
  | done
  /-- Yes or no. -/
  | flag (verdict : Bool)
  /-- Yes, no, or a failure. -/
  | verdict (result : Except Failure Bool)
  /-- A node, if it was found. -/
  | node (found : Option Node)
  /-- An edge, if it was found. -/
  | edge (found : Option Edge)
  /-- Identifiers. -/
  | ids (found : List String)
  /-- A real. -/
  | real (value : Binary64)
  /-- A number of the sequence. -/
  | number (value : UInt64)
  /-- Figures. -/
  | metrics (figures : Metrics)
  /-- What a propagation did, if there was one. -/
  | spread (propagation : Option Propagation)
  /-- A graph. -/
  | graph (copy : Hypergraph)

namespace Substrate

variable {σ : Type} [Store σ]

/-- Does what an operation asks. -/
def perform (s : Substrate σ) : Operation → Answer × Substrate σ
  | .addNode node => (s.addNode node).map .flag id
  | .updateNode node => (s.updateNode node).map .flag id
  | .removeNode id => let (done, s) := s.removeNode id; (.flag done, s)
  | .getNode id => (.node (s.graph.nodes.find? id), s)
  | .nodeExists id => (.flag (s.graph.hasNode id), s)
  | .addEdge edge => (s.addEdge edge).map .verdict id
  | .updateEdge edge => (s.updateEdge edge).map .verdict id
  | .removeEdge id => let (done, s) := s.removeEdge id; (.flag done, s)
  | .getEdge id => (.edge (s.graph.edges.find? id), s)
  | .edgeExists id => (.flag (s.graph.hasEdge id), s)
  | .connected id => (.ids (s.graph.connected id).names, s)
  | .incident id => (.ids (s.graph.incident id).names, s)
  | .membersOf id => (.ids (s.graph.membersOf id).names, s)
  | .nodesWithAttribute key value => (.ids (s.graph.nodesWithAttribute key value), s)
  | .edgesWithAttribute key value => (.ids (s.graph.edgesWithAttribute key value), s)
  | .nodesWithPattern pattern => (.ids (s.graph.nodesWithPattern pattern), s)
  | .nodeIds => (.ids (s.graph.nodes.values.map (·.id)), s)
  | .edgeIds => (.ids (s.graph.edges.values.map (·.id)), s)
  | .nextSequence => s.nextSequence.map .number id
  | .propagate source initial => (s.propagate source initial).map .spread id
  | .updateActivation id level => (.done, s.updateActivation id level)
  | .activation id => (.real (s.graph.activation id), s)
  | .clustering id => (.real (s.graph.clusteringCoefficient id), s)
  | .density => (.real s.graph.density, s)
  | .metrics focus => (.metrics (s.graph.metrics focus), s)
  | .save => s.save.map .flag id
  | .load => s.load.map .flag id
  | .clear => (.done, s.clear)
  | .snapshot => (.graph s.graph, s)
  | .restore graph => (s.restore graph).map .flag id

/-- Runs a history and collects the answers. -/
def performAll (s : Substrate σ) : List Operation → List Answer × Substrate σ
  | [] => ([], s)
  | op :: rest =>
    let (answer, s) := s.perform op
    let (answers, s) := s.performAll rest
    (answer :: answers, s)

end Substrate

end ResonantGraph
