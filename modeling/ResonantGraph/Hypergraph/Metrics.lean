import ResonantGraph.Hypergraph.Reach

/-!
# Metrics

Figures about a graph as a whole and about one of its nodes.

The *density* is the number of edges over the number of pairs of nodes; an edge counts once whatever
its arity. The *clustering coefficient* of a node is the share of the pairs of its connected nodes
that are connected themselves. The numerator is a count of pairs (`Hypergraph.closedPairs`), in
which each pair is looked at once, from its lesser member; that this does not matter is the
symmetry of connection.
-/

namespace ResonantGraph

/-- The number of pairs among `n` things, with the product kept within a word. -/
def pairCount (n : Nat) : Nat := min (n * (n - 1)) (UInt64.size - 1) / 2

/-- Figures about one node. -/
structure NodeMetrics where
  /-- The node. -/
  id : NodeId
  /-- How many nodes it is connected to. -/
  connections : Nat
  /-- How many edges join it. -/
  incidentEdges : Nat
  /-- The share of its pairs of connected nodes that are connected. -/
  clusteringCoefficient : Binary64
  /-- Its activation. -/
  activation : Binary64
  /-- The first of its connected nodes. -/
  connected : List NodeId

/-- Figures about a graph. -/
structure Metrics where
  /-- How many nodes there are. -/
  nodeCount : Nat
  /-- How many edges there are. -/
  edgeCount : Nat
  /-- The number of edges over the number of pairs of nodes. -/
  density : Binary64
  /-- The sum of all activations. -/
  totalActivation : Binary64
  /-- The greatest number of members of an edge. -/
  maxArity : Nat
  /-- Figures about a node, if one was asked for and is there. -/
  focus : Option NodeMetrics

namespace Hypergraph

/-- How many pairs `u, v` of an ascending list, `u` before `v`, have `v` connected to `u`. -/
def closedPairs (g : Hypergraph) : List NodeId → Nat
  | [] => 0
  | u :: rest => (NameSet.common rest (g.connected u).names).length + g.closedPairs rest

/-- Each pair is looked at once, from its lesser member. -/
theorem closedPairs_cons (g : Hypergraph) {u : NodeId} {rest : List NodeId}
    (h : (u :: rest).Pairwise (· < ·)) :
    g.closedPairs (u :: rest) =
      (rest.filter fun v => v ∈ g.connected u).length + g.closedPairs rest := by
  rw [closedPairs,
    NameSet.common_eq_filter (List.pairwise_cons.1 h).2 (g.connected u).names_ascending]
  simp

/-- The share of the pairs of connected nodes that are connected themselves; zero where there is no
pair. -/
def clusteringCoefficient (g : Hypergraph) (id : NodeId) : Binary64 :=
  let around := (g.connected id).names
  if around.length < 2 then 0
  else .ofNat (g.closedPairs around) / .ofNat (pairCount around.length)

/-- The number of edges over the number of pairs of nodes; zero where there is no pair. -/
def density (g : Hypergraph) : Binary64 :=
  if g.nodes.size < 2 then 0 else .ofNat g.edges.size / .ofNat (pairCount g.nodes.size)

/-- How many connected nodes the figures about a node list. -/
def maxListed : Nat := 10

/-- Figures about one node. -/
def nodeMetrics (g : Hypergraph) (id : NodeId) : NodeMetrics :=
  let around := g.connected id
  { id
    connections := around.size
    incidentEdges := (g.incident id).size
    clusteringCoefficient := g.clusteringCoefficient id
    activation := g.activation id
    connected := around.names.take maxListed }

/-- Figures about a graph, and about a node of it if one is asked for. -/
def metrics (g : Hypergraph) (focus : Option NodeId) : Metrics :=
  { nodeCount := g.nodes.size
    edgeCount := g.edges.size
    density := g.density
    totalActivation := .sum (g.nodes.values.map (·.activation))
    maxArity := (g.edges.values.map (·.arity)).foldl max 0
    focus := (focus.filter g.hasNode).map g.nodeMetrics }

end Hypergraph

end ResonantGraph
