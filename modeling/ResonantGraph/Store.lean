import ResonantGraph.Failure

/-!
# Stores

A store keeps nodes and edges outside a graph. What a graph needs of one is the class `Store`: eight
calls, each of which answers or fails and leaves the store in some state, and a hook for stores that
forget with the graph. Nothing else is assumed. A store may refuse any call, hold elements that no
graph would take, and list them in any order.

A call that is meant to work

* saves an element under its own identifier, over what was there;
* loads what was saved, and reports absence as an absent element, not as a failure;
* removes an element and says whether there was one;
* lists every identifier that something is stored under.

`Store.Request` has one value per call, for clients that work with calls as data.
-/

namespace ResonantGraph

/-- A call on a store in a given state: its answer or failure, and the state after it. -/
abbrev Store.Call (σ α : Type) : Type := σ → Except Failure α × σ

/-- The calls that a store with states `σ` answers. -/
class Store (σ : Type) where
  /-- Saves a node under its identifier. -/
  saveNode : Node → Store.Call σ Unit
  /-- Saves an edge under its identifier. -/
  saveEdge : Edge → Store.Call σ Unit
  /-- Loads the node under an identifier. -/
  loadNode : NodeId → Store.Call σ (Option Node)
  /-- Loads the edge under an identifier. -/
  loadEdge : EdgeId → Store.Call σ (Option Edge)
  /-- Removes the node under an identifier and says whether there was one. -/
  removeNode : NodeId → Store.Call σ Bool
  /-- Removes the edge under an identifier and says whether there was one. -/
  removeEdge : EdgeId → Store.Call σ Bool
  /-- Lists the identifiers of the stored nodes. -/
  listNodes : Store.Call σ (List NodeId)
  /-- Lists the identifiers of the stored edges. -/
  listEdges : Store.Call σ (List EdgeId)
  /-- Empties a store that does not outlive the graph; others stay as they are. -/
  clearVolatile : σ → σ := id

namespace Store

variable {σ τ : Type}

/-! ### Calls in sequence -/

/-- Whether an answer is no failure. -/
def succeeded {α : Type} : Except Failure α → Bool
  | .ok _ => true
  | .error _ => false

/-- Makes a call whose answer does not matter beyond its success. -/
def attempt {α : Type} (call : Call σ α) (s : σ) : Bool × σ :=
  let (answer, s) := call s
  (succeeded answer, s)

/-- Makes calls in order, whether they succeed or not, and says whether all did. -/
def attemptAll {α : Type} : List (Call σ α) → σ → Bool × σ
  | [], s => (true, s)
  | call :: calls, s =>
    let (first, s) := attempt call s
    let (others, s) := attemptAll calls s
    (first && others, s)

/-! ### Calls as data -/

/-- A call on a store. -/
inductive Request
  /-- Save a node. -/
  | saveNode (node : Node)
  /-- Save an edge. -/
  | saveEdge (edge : Edge)
  /-- Load a node. -/
  | loadNode (id : NodeId)
  /-- Load an edge. -/
  | loadEdge (id : EdgeId)
  /-- Remove a node. -/
  | removeNode (id : NodeId)
  /-- Remove an edge. -/
  | removeEdge (id : EdgeId)
  /-- List the nodes. -/
  | listNodes
  /-- List the edges. -/
  | listEdges

/-- What a store answers to a call that does not fail. -/
inductive Reply
  /-- An element was saved. -/
  | saved
  /-- A node was looked for. -/
  | node (found : Option Node)
  /-- An edge was looked for. -/
  | edge (found : Option Edge)
  /-- An element was removed, or there was none. -/
  | removed (found : Bool)
  /-- The stored identifiers. -/
  | listed (ids : List String)

/-- Gives the answer of a call as a reply. -/
def replyWith {α : Type} (form : α → Reply) (call : Call σ α) : Call σ Reply := fun s =>
  let (answer, s) := call s
  (answer.map form, s)

/-- Makes the call of a request. -/
def serve [Store σ] : Request → Call σ Reply
  | .saveNode node => replyWith (fun _ => .saved) (saveNode node)
  | .saveEdge edge => replyWith (fun _ => .saved) (saveEdge edge)
  | .loadNode id => replyWith .node (loadNode id)
  | .loadEdge id => replyWith .edge (loadEdge id)
  | .removeNode id => replyWith .removed (removeNode id)
  | .removeEdge id => replyWith .removed (removeEdge id)
  | .listNodes => replyWith .listed listNodes
  | .listEdges => replyWith .listed listEdges

/-! ### Either of two stores -/

/-- Makes a call on the left one of two kinds of store. -/
def onLeft {α : Type} (call : Call σ α) (s : σ) : Except Failure α × (σ ⊕ τ) :=
  let (answer, s) := call s
  (answer, .inl s)

/-- Makes a call on the right one of two kinds of store. -/
def onRight {α : Type} (call : Call τ α) (s : τ) : Except Failure α × (σ ⊕ τ) :=
  let (answer, s) := call s
  (answer, .inr s)

instance [Store σ] [Store τ] : Store (σ ⊕ τ) where
  saveNode node := Sum.elim (onLeft (saveNode node)) (onRight (saveNode node))
  saveEdge edge := Sum.elim (onLeft (saveEdge edge)) (onRight (saveEdge edge))
  loadNode id := Sum.elim (onLeft (loadNode id)) (onRight (loadNode id))
  loadEdge id := Sum.elim (onLeft (loadEdge id)) (onRight (loadEdge id))
  removeNode id := Sum.elim (onLeft (removeNode id)) (onRight (removeNode id))
  removeEdge id := Sum.elim (onLeft (removeEdge id)) (onRight (removeEdge id))
  listNodes := Sum.elim (onLeft listNodes) (onRight listNodes)
  listEdges := Sum.elim (onLeft listEdges) (onRight listEdges)
  clearVolatile := Sum.elim (fun s => .inl (clearVolatile s)) (fun s => .inr (clearVolatile s))

end Store

end ResonantGraph
