import ResonantGraph.Hypergraph.Metrics
import ResonantGraph.Store

/-!
# Mirrored graphs

A substrate is a graph together with a store that mirrors it. Every change of the graph is also made
in the store, as far as the store lets it: a refused call changes nothing but a counter
(`Substrate.mirrorFailures`), and never the graph or the verdict of the operation.

The store speaks up only when it is asked to. `Substrate.save` writes everything again,
`Substrate.load` rebuilds the graph from what the store holds, as far as it holds a graph, and
`Substrate.restore` puts a graph in place and makes the store agree with it. These report failed
calls in their result and leave the counter alone.
-/

namespace ResonantGraph

/-- A graph with the store that mirrors it. -/
structure Substrate (σ : Type) where
  /-- The live graph. -/
  graph : Hypergraph := ∅
  /-- The store. -/
  store : σ
  /-- How many calls the store has refused while mirroring. -/
  mirrorFailures : UInt64 := 0

/-- What a propagation did: where it began, what it reached and how strong it was. -/
structure Propagation where
  /-- The node it began at. -/
  source : NodeId
  /-- The nodes in reach. -/
  reached : NameSet
  /-- The activation it began with, as it was given. -/
  initial : Binary64

namespace Substrate

variable {σ : Type}

/-- The empty graph over a store. -/
def ofStore (store : σ) : Substrate σ := { store }

/-! ### Mirroring -/

/-- Makes a call on the store, counting a failure. -/
def mirror {α : Type} (s : Substrate σ) (call : Store.Call σ α) : Substrate σ :=
  let (answer, store) := call s.store
  { s with
    store
    mirrorFailures :=
      if Store.succeeded answer then s.mirrorFailures else s.mirrorFailures + 1 }

/-- Makes calls on the store in order, counting failures. -/
def mirrorAll {α : Type} (s : Substrate σ) (calls : List (Store.Call σ α)) : Substrate σ :=
  calls.foldl mirror s

@[simp] theorem graph_mirror {α : Type} (s : Substrate σ) (call : Store.Call σ α) :
    (s.mirror call).graph = s.graph := rfl

@[simp] theorem graph_mirrorAll {α : Type} (s : Substrate σ) (calls : List (Store.Call σ α)) :
    (s.mirrorAll calls).graph = s.graph := by
  induction calls generalizing s with
  | nil => rfl
  | cons call calls ih => exact ih (s.mirror call)

/-- Puts a graph in the place of the live one. -/
def withGraph (s : Substrate σ) (graph : Hypergraph) : Substrate σ := { s with graph }

@[simp] theorem graph_withGraph (s : Substrate σ) (graph : Hypergraph) :
    (s.withGraph graph).graph = graph := rfl

variable [Store σ]

/-- Saves a node of the live graph. -/
def mirrorNode (s : Substrate σ) (id : NodeId) : Substrate σ :=
  match s.graph.nodes.find? id with
  | some node => s.mirror (Store.saveNode node)
  | none => s

/-- Saves an edge of the live graph. -/
def mirrorEdge (s : Substrate σ) (id : EdgeId) : Substrate σ :=
  match s.graph.edges.find? id with
  | some edge => s.mirror (Store.saveEdge edge)
  | none => s

@[simp] theorem graph_mirrorNode (s : Substrate σ) (id : NodeId) :
    (s.mirrorNode id).graph = s.graph := by
  unfold mirrorNode
  split <;> rfl

@[simp] theorem graph_mirrorEdge (s : Substrate σ) (id : EdgeId) :
    (s.mirrorEdge id).graph = s.graph := by
  unfold mirrorEdge
  split <;> rfl

/-! ### Changes -/

/-- Adds a node unless its identifier is taken. -/
def addNode (s : Substrate σ) (node : Node) : Bool × Substrate σ :=
  match s.graph.addNode node with
  | (true, g) => (true, (s.withGraph g).mirrorNode node.id)
  | (false, _) => (false, s)

/-- Replaces the node of the same identifier, if there is one. -/
def updateNode (s : Substrate σ) (node : Node) : Bool × Substrate σ :=
  match s.graph.updateNode node with
  | (true, g) => (true, (s.withGraph g).mirrorNode node.id)
  | (false, _) => (false, s)

/-- Removes a node and the edges that join it. -/
def removeNode (s : Substrate σ) (id : NodeId) : Bool × Substrate σ :=
  match s.graph.removeNode id with
  | (some cascaded, g) =>
    (true, ((s.withGraph g).mirrorAll (cascaded.map Store.removeEdge)).mirror
      (Store.removeNode id))
  | (none, _) => (false, s)

/-- Adds an edge unless its identifier is taken. -/
def addEdge (s : Substrate σ) (edge : Edge) : Except Failure Bool × Substrate σ :=
  match s.graph.addEdge edge with
  | (.ok true, g) => (.ok true, (s.withGraph g).mirrorEdge edge.id)
  | (verdict, _) => (verdict, s)

/-- Replaces the edge of the same identifier, if there is one. -/
def updateEdge (s : Substrate σ) (edge : Edge) : Except Failure Bool × Substrate σ :=
  match s.graph.updateEdge edge with
  | (.ok true, g) => (.ok true, (s.withGraph g).mirrorEdge edge.id)
  | (verdict, _) => (verdict, s)

/-- Removes an edge. -/
def removeEdge (s : Substrate σ) (id : EdgeId) : Bool × Substrate σ :=
  match s.graph.removeEdge id with
  | (true, g) => (true, (s.withGraph g).mirror (Store.removeEdge id))
  | (false, _) => (false, s)

/-- Draws a number from the sequence. -/
def nextSequence (s : Substrate σ) : UInt64 × Substrate σ :=
  let (n, g) := s.graph.nextSequence
  (n, s.withGraph g)

/-- Spreads activation from a node and says what it did, unless there is no such node. -/
def propagate (s : Substrate σ) (source : NodeId) (initial : Binary64) :
    Option Propagation × Substrate σ :=
  match s.graph.propagate source initial with
  | (some reached, g) =>
    (some { source, reached, initial },
      (source :: reached.names).foldl mirrorNode (s.withGraph g))
  | (none, _) => (none, s)

/-- Sets the activation of a node, if there is one. -/
def updateActivation (s : Substrate σ) (id : NodeId) (level : Binary64) : Substrate σ :=
  match s.graph.setActivation id level with
  | (true, g) => (s.withGraph g).mirrorNode id
  | (false, _) => s

/-- Empties the graph, and the store if it does not outlive it. -/
def clear (s : Substrate σ) : Substrate σ :=
  { s with graph := s.graph.clear, store := Store.clearVolatile s.store }

/-! ### The store as a whole -/

/-- The calls that save every element of a graph, nodes first. -/
def saveCalls (g : Hypergraph) : List (Store.Call σ Unit) :=
  g.nodes.values.map Store.saveNode ++ g.edges.values.map Store.saveEdge

/-- Saves the whole graph and says whether every call succeeded. -/
def save (s : Substrate σ) : Bool × Substrate σ :=
  let (saved, store) := Store.attemptAll (saveCalls s.graph) s.store
  (saved, { s with store })

/-- Loads a node into a graph, unless it is absent, fails to load, or has a taken identifier. -/
def loadNode (state : Hypergraph × σ) (id : NodeId) : Hypergraph × σ :=
  match Store.loadNode id state.2 with
  | (.ok (some node), store) => ((state.1.addNode node).2, store)
  | (_, store) => (state.1, store)

/-- Loads an edge into a graph, unless it is absent, fails to load, has a taken identifier, or joins
a node that is not there. -/
def loadEdge (state : Hypergraph × σ) (id : EdgeId) : Hypergraph × σ :=
  match Store.loadEdge id state.2 with
  | (.ok (some edge), store) => ((state.1.addEdge edge).2, store)
  | (_, store) => (state.1, store)

/-- Rebuilds the graph from the store. Only where the store cannot be listed is the graph kept and
`false` returned; elements that do not load, or do not fit, are passed over. -/
def load (s : Substrate σ) : Bool × Substrate σ :=
  let (nodeIds, store) := Store.listNodes s.store
  let (edgeIds, store) := Store.listEdges store
  match nodeIds, edgeIds with
  | .ok nodeIds, .ok edgeIds =>
    let (graph, store) := nodeIds.foldl loadNode (s.graph.clear, store)
    let (graph, store) := edgeIds.foldl loadEdge (graph, store)
    (true, { s with graph, store })
  | _, _ => (false, { s with store })

/-- Removes from a store what a listing names and a graph does not have. -/
def prune (listing : Store.Call σ (List String)) (keep : String → Bool)
    (remove : String → Store.Call σ Bool) (store : σ) : Bool × σ :=
  match listing store with
  | (.ok ids, store) => Store.attemptAll ((ids.filter fun id => !keep id).map remove) store
  | (.error _, store) => (false, store)

/-- Puts a graph in place and makes the store agree with it: first the edges and nodes that the
graph does not have are removed, then all it has are saved. Says whether every call succeeded. -/
def restore (s : Substrate σ) (graph : Hypergraph) : Bool × Substrate σ :=
  let (edgesPruned, store) := prune Store.listEdges graph.hasEdge Store.removeEdge s.store
  let (nodesPruned, store) := prune Store.listNodes graph.hasNode Store.removeNode store
  let (saved, store) := Store.attemptAll (saveCalls graph) store
  (edgesPruned && nodesPruned && saved, { s with graph, store })

/-! ### Text -/

/-- A one-line summary. -/
def summary (s : Substrate σ) : String :=
  "Substrate \x7b node_count: " ++ toString s.graph.nodes.size ++
    ", edge_count: " ++ toString s.graph.edges.size ++
    ", mirror_failures: " ++ toString s.mirrorFailures.toNat ++ ", .. \x7d"

end Substrate

end ResonantGraph
