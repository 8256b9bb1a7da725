import ResonantGraph.Codec
import ResonantGraph.Store

/-!
# Stores of bytes

A store that outlives the graph keeps bytes: each node and each edge in the wire format, under its
identifier. It lists identifiers in order. Loading fails on bytes that are no element, whoever put
them there; what follows the element in its bytes is ignored.
-/

namespace ResonantGraph.Store

/-- Two tables of encoded elements. -/
structure Blobs where
  /-- The encoded nodes. -/
  nodes : Table (List UInt8) := ∅
  /-- The encoded edges. -/
  edges : Table (List UInt8) := ∅
deriving DecidableEq

namespace Blobs

/-- Reads the element under a name. -/
def readUnder {α : Type} (codec : Codec α) (table : Table (List UInt8)) (name : String) :
    Except Failure (Option α) :=
  match table.find? name with
  | none => .ok none
  | some blob =>
    match codec.read blob with
    | .ok (v, _) => .ok (some v)
    | .error e => .error (.data (.blob e))

end Blobs

instance : Store Blobs where
  saveNode node s := (.ok (), { s with nodes := s.nodes.insert node.id (Codec.node.write node) })
  saveEdge edge s := (.ok (), { s with edges := s.edges.insert edge.id (Codec.edge.write edge) })
  loadNode id s := (Blobs.readUnder Codec.node s.nodes id, s)
  loadEdge id s := (Blobs.readUnder Codec.edge s.edges id, s)
  removeNode id s := (.ok (s.nodes.contains id), { s with nodes := s.nodes.erase id })
  removeEdge id s := (.ok (s.edges.contains id), { s with edges := s.edges.erase id })
  listNodes s := (.ok s.nodes.keys, s)
  listEdges s := (.ok s.edges.keys, s)

end ResonantGraph.Store
