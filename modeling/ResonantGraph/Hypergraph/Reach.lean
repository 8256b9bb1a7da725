import ResonantGraph.Hypergraph.Basic

/-!
# Reach and activation

A node reaches another in one hop when they share an edge. `Hypergraph.reachable` collects what a
node reaches in a bounded number of hops, round by round: each round takes the connected nodes of
the last round's finds that are new, and the search ends with the bound or with a round that finds
nothing.

Propagation sets the activation of a source and raises that of every node in reach by a fixed share.
It changes each node at most once, however many ways lead to it (`nodes_propagate`).
-/

namespace ResonantGraph

namespace Hypergraph

/-! ### Reach -/

/-- The connected nodes of a set of nodes. -/
def connectedToAny (g : Hypergraph) (ids : NameSet) : NameSet :=
  NameSet.unions (ids.names.map g.connected)

/-- Goes on searching from the nodes found last, for at most the given number of rounds. -/
def searchFrom (g : Hypergraph) : Nat → NameSet → NameSet → NameSet
  | 0, seen, _ => seen
  | rounds + 1, seen, last =>
    let found := (g.connectedToAny last).filter fun id _ => id ∉ seen
    if found = ∅ then seen else g.searchFrom rounds (seen.union found) found

/-- The nodes that a stored node reaches in at most the given number of hops, itself left out. -/
def reachable (g : Hypergraph) (source : NodeId) (hops : Nat) : NameSet :=
  if g.hasNode source then
    let start := NameSet.ofNames [source]
    (g.searchFrom hops start start).erase source
  else ∅

/-! ### Activation -/

/-- How many hops propagation goes. -/
def propagationHops : Nat := 2

/-- The share of the initial activation that a reached node gains, 0.7. -/
def retention : Binary64 := ⟨0x3fe6666666666666⟩

/-- The activation of a node; zero if there is no such node. -/
def activation (g : Hypergraph) (id : NodeId) : Binary64 :=
  ((g.nodes.find? id).map (·.activation)).getD 0

/-- Sets the activation of a node, clamped, if there is such a node. -/
def setActivation (g : Hypergraph) (id : NodeId) (level : Binary64) : Bool × Hypergraph :=
  if g.hasNode id then
    (true, { g with nodes := g.nodes.modify id (·.setActivation level.clamp) })
  else (false, g)

/-- The node after propagation from a source, given the nodes in reach. -/
def spreadTo (source : NodeId) (reached : NameSet) (initial : Binary64) (id : NodeId)
    (node : Node) : Node :=
  if id = source then node.setActivation initial.clamp
  else if id ∈ reached then node.setActivation (node.activation + initial * retention).clamp
  else node

/-- Sets the activation of a source and raises that of the nodes in reach, which are returned. -/
def propagate (g : Hypergraph) (source : NodeId) (initial : Binary64) :
    Option NameSet × Hypergraph :=
  if g.hasNode source then
    let reached := g.reachable source propagationHops
    (some reached, { g with nodes := g.nodes.mapValues (spreadTo source reached initial) })
  else (none, g)

/-! ### Laws -/

@[simp] theorem id_spreadTo (source : NodeId) (reached : NameSet) (initial : Binary64)
    (id : NodeId) (node : Node) : (spreadTo source reached initial id node).id = node.id := by
  unfold spreadTo
  split <;> (try split) <;> rfl

theorem nodes_propagate {g : Hypergraph} {source : NodeId} (h : g.hasNode source = true)
    (initial : Binary64) (id : NodeId) :
    (g.propagate source initial).2.nodes.find? id =
      (g.nodes.find? id).map
        (spreadTo source (g.reachable source propagationHops) initial id) := by
  simp [propagate, h, Table.find?_mapValues]

@[simp] theorem edges_propagate (g : Hypergraph) (source : NodeId) (initial : Binary64) :
    (g.propagate source initial).2.edges = g.edges := by
  unfold propagate
  split <;> rfl

@[simp] theorem sequence_propagate (g : Hypergraph) (source : NodeId) (initial : Binary64) :
    (g.propagate source initial).2.sequence = g.sequence := by
  unfold propagate
  split <;> rfl

end Hypergraph

end ResonantGraph
