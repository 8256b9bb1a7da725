import ResonantGraph.Store.Tables

/-!
# Stores that refuse calls

A store in memory some of whose calls fail on demand. A refused call does nothing. Unlike the plain
store in memory it is not emptied together with the graph.
-/

namespace ResonantGraph.Store

/-- Tables, and the calls that are refused. -/
structure Faulty where
  /-- What is stored. -/
  tables : Tables := {}
  /-- The refused calls: the name of a call alone, for every identifier, or followed by a colon and
  one identifier. -/
  refused : List String := []

namespace Faulty

/-- Makes a call on the tables unless it is refused. -/
def guarded {α : Type} (name id : String) (call : Call Tables α) : Call Faulty α := fun s =>
  if s.refused.contains name || s.refused.contains (name ++ ":" ++ id) then
    (.error (.io (.refused name id)), s)
  else
    let (answer, tables) := call s.tables
    (answer, { s with tables })

end Faulty

instance : Store Faulty where
  saveNode node := Faulty.guarded "save_node" node.id (saveNode node)
  saveEdge edge := Faulty.guarded "save_edge" edge.id (saveEdge edge)
  loadNode id := Faulty.guarded "load_node" id (loadNode id)
  loadEdge id := Faulty.guarded "load_edge" id (loadEdge id)
  removeNode id := Faulty.guarded "remove_node" id (removeNode id)
  removeEdge id := Faulty.guarded "remove_edge" id (removeEdge id)
  listNodes := Faulty.guarded "list_node_ids" "" listNodes
  listEdges := Faulty.guarded "list_edge_ids" "" listEdges

end ResonantGraph.Store
