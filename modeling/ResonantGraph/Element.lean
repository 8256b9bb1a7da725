import ResonantGraph.Table
import ResonantGraph.Binary64

/-!
# Identities, nodes and edges

An *identity* is a signature with a frequency, a list of patterns and a weight. It is what a text is
scored against, and every node carries one. A *node* has attributes and an activation level; an
*edge* joins any number of nodes, its members, and has attributes and a strength.

Nodes and edges are plain values: an identifier in an edge's members need not belong to a node. What
a graph demands of them is the graph's business.
-/

namespace ResonantGraph

/-- The identifier of a node. -/
abbrev NodeId := String

/-- The identifier of an edge. -/
abbrev EdgeId := String

/-- Named texts that a node, an edge or a record carries. -/
abbrev Attributes := Table String

/-! ### Identities -/

/-- What a text is scored against. -/
structure Identity where
  /-- The text whose fingerprint the score is measured from. -/
  signature : String := ""
  /-- A number that names the identity; it takes no part in scoring. -/
  frequency : UInt64 := 0
  /-- Texts whose occurrence raises the score. -/
  patterns : List String := []
  /-- The factor every score is multiplied by. -/
  weight : Binary64 := 1
deriving DecidableEq, Inhabited

namespace Identity

/-- The identity with a weight, which is clamped. -/
def withWeight (identity : Identity) (weight : Binary64) : Identity :=
  { identity with weight := weight.clamp }

/-- Whether a text is one of the patterns. -/
def hasPattern (identity : Identity) (pattern : String) : Bool :=
  identity.patterns.contains pattern

end Identity

/-! ### Nodes -/

/-- A labelled unit of data. -/
structure Node where
  /-- The name the node is known by. -/
  id : NodeId
  /-- A text for readers. -/
  label : String := ""
  /-- Named texts. -/
  attributes : Attributes := ∅
  /-- The identity stamped on the node. -/
  identity : Identity := {}
  /-- The activation level. -/
  activation : Binary64 := 0
deriving DecidableEq

namespace Node

/-- The node with an activation level. -/
def setActivation (node : Node) (level : Binary64) : Node := { node with activation := level }

/-- The node with its activation clamped. -/
def clamped (node : Node) : Node := node.setActivation node.activation.clamp

@[simp] theorem id_setActivation (node : Node) (level : Binary64) :
    (node.setActivation level).id = node.id := rfl

@[simp] theorem activation_setActivation (node : Node) (level : Binary64) :
    (node.setActivation level).activation = level := rfl

@[simp] theorem id_clamped (node : Node) : node.clamped.id = node.id := rfl

@[simp] theorem activation_clamped (node : Node) :
    node.clamped.activation = node.activation.clamp := rfl

@[simp] theorem clamped_clamped (node : Node) : node.clamped.clamped = node.clamped := by
  simp [clamped, setActivation]

theorem clamped_eq_self_iff {node : Node} :
    node.clamped = node ↔ node.activation.clamp = node.activation := by
  cases node
  simp [clamped, setActivation]

end Node

/-! ### Edges -/

/-- A labelled relation among any number of nodes. -/
structure Edge where
  /-- The name the edge is known by. -/
  id : EdgeId
  /-- A text for readers. -/
  label : String := ""
  /-- The nodes that the edge joins. -/
  members : NameSet := ∅
  /-- Named texts. -/
  attributes : Attributes := ∅
  /-- The strength of the relation. -/
  strength : Binary64 := 1
deriving DecidableEq

namespace Edge

/-- How many nodes the edge joins. -/
def arity (edge : Edge) : Nat := edge.members.size

end Edge

end ResonantGraph
