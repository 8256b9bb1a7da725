import ResonantGraph.Store

/-!
# Stores in memory

The plainest store keeps a table of nodes and a table of edges. Its calls never fail, and it is
emptied together with the graph.
-/

namespace ResonantGraph.Store

/-- A table of nodes and a table of edges, each under their identifiers. -/
structure Tables where
  /-- The stored nodes. -/
  nodes : Table Node := ∅
  /-- The stored edges. -/
  edges : Table Edge := ∅
deriving DecidableEq

instance : Store Tables where
  saveNode node s := (.ok (), { s with nodes := s.nodes.insert node.id node })
  saveEdge edge s := (.ok (), { s with edges := s.edges.insert edge.id edge })
  loadNode id s := (.ok (s.nodes.find? id), s)
  loadEdge id s := (.ok (s.edges.find? id), s)
  removeNode id s := (.ok (s.nodes.contains id), { s with nodes := s.nodes.erase id })
  removeEdge id s := (.ok (s.edges.contains id), { s with edges := s.edges.erase id })
  listNodes s := (.ok s.nodes.keys, s)
  listEdges s := (.ok s.edges.keys, s)
  clearVolatile _ := {}

end ResonantGraph.Store
