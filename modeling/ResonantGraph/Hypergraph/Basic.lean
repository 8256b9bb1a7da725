import ResonantGraph.Failure

/-!
# Hypergraphs

A hypergraph is a table of nodes, a table of edges and a sequence from which fresh numbers are
drawn. Both tables are ordered, so everything that is listed from a graph comes in the order of
identifiers.

Changes are guarded. A node or edge is added only under a new identifier and updated only under an
old one; an edge is stored only if each of its members is a stored node, and the failure otherwise
names the least member that is not (`Hypergraph.missingMember?`); removing a node removes the edges
that join it. Activations are clamped on their way in. A refused change leaves the graph as it was.

Every operation returns its verdict together with the graph after it.
-/

namespace ResonantGraph

/-- Nodes, edges and a sequence of numbers. -/
structure Hypergraph where
  /-- The stored nodes. -/
  nodes : Table Node := ∅
  /-- The stored edges. -/
  edges : Table Edge := ∅
  /-- The next number of the sequence. -/
  sequence : UInt64 := 0
deriving DecidableEq

namespace Hypergraph

instance : EmptyCollection Hypergraph := ⟨{}⟩

/-- Whether a node is stored under an identifier. -/
def hasNode (g : Hypergraph) (id : NodeId) : Bool := g.nodes.contains id

/-- Whether an edge is stored under an identifier. -/
def hasEdge (g : Hypergraph) (id : EdgeId) : Bool := g.edges.contains id

/-- The graph without nodes and edges. The sequence goes on. -/
def clear (g : Hypergraph) : Hypergraph := { g with nodes := ∅, edges := ∅ }

/-- Draws a number from the sequence, which stays at the greatest word once it is there. -/
def nextSequence (g : Hypergraph) : UInt64 × Hypergraph :=
  (g.sequence, { g with sequence := if g.sequence = -1 then g.sequence else g.sequence + 1 })

/-! ### Nodes -/

/-- Stores a node under its identifier, activation clamped. -/
def putNode (g : Hypergraph) (node : Node) : Hypergraph :=
  { g with nodes := g.nodes.insert node.id node.clamped }

/-- Adds a node unless its identifier is taken. -/
def addNode (g : Hypergraph) (node : Node) : Bool × Hypergraph :=
  if g.hasNode node.id then (false, g) else (true, g.putNode node)

/-- Replaces the node of the same identifier, if there is one. -/
def updateNode (g : Hypergraph) (node : Node) : Bool × Hypergraph :=
  if g.hasNode node.id then (true, g.putNode node) else (false, g)

/-! ### Edges -/

/-- The least member of an edge that is not a stored node. -/
def missingMember? (g : Hypergraph) (edge : Edge) : Option NodeId :=
  edge.members.names.find? fun id => !g.hasNode id

/-- Fails unless each member of an edge is a stored node. -/
def checkMembers (g : Hypergraph) (edge : Edge) : Except Failure Unit :=
  match g.missingMember? edge with
  | some id => .error (.missingMember edge.id id)
  | none => .ok ()

/-- Stores an edge under its identifier if its members are stored nodes. -/
def putEdge (g : Hypergraph) (edge : Edge) : Except Failure Bool × Hypergraph :=
  match g.missingMember? edge with
  | some id => (.error (.missingMember edge.id id), g)
  | none => (.ok true, { g with edges := g.edges.insert edge.id edge })

/-- Adds an edge unless its identifier is taken. -/
def addEdge (g : Hypergraph) (edge : Edge) : Except Failure Bool × Hypergraph :=
  if g.hasEdge edge.id then (.ok false, g) else g.putEdge edge

/-- Replaces the edge of the same identifier, if there is one. -/
def updateEdge (g : Hypergraph) (edge : Edge) : Except Failure Bool × Hypergraph :=
  if g.hasEdge edge.id then g.putEdge edge else (.ok false, g)

/-- Removes the edge of an identifier, if there is one. -/
def removeEdge (g : Hypergraph) (id : EdgeId) : Bool × Hypergraph :=
  if g.hasEdge id then (true, { g with edges := g.edges.erase id }) else (false, g)

/-! ### Who is joined to whom -/

/-- The edges that have a node among their members, in the order of their identifiers. -/
def edgesAt (g : Hypergraph) (id : NodeId) : List Edge :=
  g.edges.values.filter fun edge => id ∈ edge.members

/-- The nodes that share an edge with a node, itself left out. -/
def connected (g : Hypergraph) (id : NodeId) : NameSet :=
  (NameSet.unions ((g.edgesAt id).map (·.members))).erase id

/-- The identifiers of the edges that join a node. -/
def incident (g : Hypergraph) (id : NodeId) : NameSet :=
  NameSet.ofNames ((g.edgesAt id).map (·.id))

/-- The members of an edge; none if there is no such edge. -/
def membersOf (g : Hypergraph) (id : EdgeId) : NameSet :=
  ((g.edges.find? id).map (·.members)).getD ∅

/-- Removes a node and the edges that join it, and lists the identifiers of those edges. -/
def removeNode (g : Hypergraph) (id : NodeId) : Option (List EdgeId) × Hypergraph :=
  if g.hasNode id then
    let cascaded := g.incident id
    (some cascaded.names,
      { g with
        nodes := g.nodes.erase id
        edges := g.edges.filter fun key _ => key ∉ cascaded })
  else (none, g)

/-! ### Search -/

/-- The identifiers of the nodes with an attribute of a given value. -/
def nodesWithAttribute (g : Hypergraph) (key value : String) : List NodeId :=
  (g.nodes.values.filter fun node => node.attributes.find? key = some value).map (·.id)

/-- The identifiers of the edges with an attribute of a given value. -/
def edgesWithAttribute (g : Hypergraph) (key value : String) : List EdgeId :=
  (g.edges.values.filter fun edge => edge.attributes.find? key = some value).map (·.id)

/-- The identifiers of the nodes whose identity has a pattern. -/
def nodesWithPattern (g : Hypergraph) (pattern : String) : List NodeId :=
  (g.nodes.values.filter fun node => node.identity.hasPattern pattern).map (·.id)

/-! ### Laws -/

@[simp] theorem nodes_clear (g : Hypergraph) : g.clear.nodes = ∅ := rfl

@[simp] theorem edges_clear (g : Hypergraph) : g.clear.edges = ∅ := rfl

@[simp] theorem sequence_clear (g : Hypergraph) : g.clear.sequence = g.sequence := rfl

@[simp] theorem nodes_putNode (g : Hypergraph) (node : Node) :
    (g.putNode node).nodes = g.nodes.insert node.id node.clamped := rfl

@[simp] theorem edges_putNode (g : Hypergraph) (node : Node) :
    (g.putNode node).edges = g.edges := rfl

@[simp] theorem sequence_putNode (g : Hypergraph) (node : Node) :
    (g.putNode node).sequence = g.sequence := rfl

theorem mem_edgesAt {g : Hypergraph} {id : NodeId} {edge : Edge} :
    edge ∈ g.edgesAt id ↔ (∃ key, g.edges.find? key = some edge) ∧ id ∈ edge.members := by
  simp [edgesAt, Table.mem_values_iff]

/-- Two nodes are connected when they differ and are members of one edge. -/
theorem mem_connected {g : Hypergraph} {u v : NodeId} :
    v ∈ g.connected u ↔
      v ≠ u ∧ ∃ key edge, g.edges.find? key = some edge ∧ u ∈ edge.members ∧ v ∈ edge.members := by
  simp only [connected, NameSet.mem_erase, NameSet.mem_unions, List.mem_map, mem_edgesAt]
  constructor
  · rintro ⟨⟨_, ⟨edge, ⟨⟨key, hkey⟩, hu⟩, rfl⟩, hv⟩, hne⟩
    exact ⟨hne, key, edge, hkey, hu, hv⟩
  · rintro ⟨hne, key, edge, hkey, hu, hv⟩
    exact ⟨⟨_, ⟨edge, ⟨⟨key, hkey⟩, hu⟩, rfl⟩, hv⟩, hne⟩

/-- Connection is symmetric. -/
theorem mem_connected_comm {g : Hypergraph} {u v : NodeId} :
    v ∈ g.connected u ↔ u ∈ g.connected v := by
  simp only [mem_connected]
  constructor <;>
    exact fun ⟨hne, key, edge, hkey, hu, hv⟩ => ⟨hne.symm, key, edge, hkey, hv, hu⟩

/-- The member that is reported as missing is one, and every lesser member is stored. -/
theorem missingMember?_eq_none_iff {g : Hypergraph} {edge : Edge} :
    g.missingMember? edge = none ↔ ∀ id ∈ edge.members, g.hasNode id = true := by
  simp [missingMember?]

end Hypergraph

end ResonantGraph
