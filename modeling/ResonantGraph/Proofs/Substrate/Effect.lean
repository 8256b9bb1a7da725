import ResonantGraph.Substrate.Operation
import ResonantGraph.Proofs.Hypergraph.Change

/-!
# What an operation does

Most operations reach the store by mirroring alone. Over whatever store, such an operation answers what
the live graph says, leaves the graph that the change it asks for makes, and sends the store requests
that depend on nothing but the graph (`Substrate.perform_mirroring`). What the store does with them
shows in the store and in the count of failures, and nowhere else.

A load acts on the live graph as a list of changes: it empties the graph, then adds the nodes and then
the edges that the store gave out (`Substrate.load_eq`). Nothing is assumed of these. So what holds of
every run of changes holds of every run of operations that restores nothing
(`Substrate.exists_changes_perform`).
-/

namespace ResonantGraph

open ResonantGraph.Hypergraph (Change)
open Store (Request)

/-! ### Loading -/

/-- Loads what is stored under each of some identifiers. What is absent or fails to load is passed
over. -/
def Store.loadEach {σ α : Type} (call : String → Call σ (Option α)) :
    List String → σ → List α × σ
  | [], s => ([], s)
  | id :: ids, s =>
    let (answer, s) := call id s
    let (others, s) := loadEach call ids s
    match answer with
    | .ok (some v) => (v :: others, s)
    | _ => (others, s)

namespace Substrate

variable {σ : Type} [Store σ]

theorem foldl_loadNode (ids : List NodeId) (g : Hypergraph) (store : σ) :
    ids.foldl loadNode (g, store) =
      (g.applyAll ((Store.loadEach Store.loadNode ids store).1.map Change.addNode),
        (Store.loadEach Store.loadNode ids store).2) := by
  -- over the listing; the graph and the store go along with it
  induction ids generalizing g store with
  | nil => rfl
  | cons id ids ih =>
    rw [List.foldl_cons]
    unfold Store.loadEach loadNode
    rcases Store.loadNode id store with ⟨_ | _ | node, store⟩
    · exact ih g store
    · exact ih g store
    · exact ih (g.addNode node).2 store

theorem foldl_loadEdge (ids : List EdgeId) (g : Hypergraph) (store : σ) :
    ids.foldl loadEdge (g, store) =
      (g.applyAll ((Store.loadEach Store.loadEdge ids store).1.map Change.addEdge),
        (Store.loadEach Store.loadEdge ids store).2) := by
  induction ids generalizing g store with
  | nil => rfl
  | cons id ids ih =>
    rw [List.foldl_cons]
    unfold Store.loadEach loadEdge
    rcases Store.loadEdge id store with ⟨_ | _ | edge, store⟩
    · exact ih g store
    · exact ih g store
    · exact ih (g.addEdge edge).2 store

/-- **Loading.** A store that can be listed fills the emptied graph; any other leaves it alone. -/
theorem load_eq (s : Substrate σ) :
    s.load =
      let nodeIds := Store.listNodes s.store
      let edgeIds := Store.listEdges nodeIds.2
      match nodeIds.1, edgeIds.1 with
      | .ok ids, .ok ids' =>
        let nodes := Store.loadEach Store.loadNode ids edgeIds.2
        let edges := Store.loadEach Store.loadEdge ids' nodes.2
        (true,
          { s with
            graph := (s.graph.clear.applyAll (nodes.1.map .addNode)).applyAll
              (edges.1.map .addEdge)
            store := edges.2 })
      | _, _ => (false, { s with store := edgeIds.2 }) := by
  unfold load
  rcases Store.listNodes s.store with ⟨nodeIds, store⟩
  dsimp only
  rcases Store.listEdges store with ⟨edgeIds, store⟩
  dsimp only
  cases nodeIds with
  | error e => rfl
  | ok nodeIds =>
    cases edgeIds with
    | error e => rfl
    | ok edgeIds =>
      -- both listings are there, so the two loops are the two runs of changes
      dsimp only
      rw [foldl_loadNode]
      dsimp only
      rw [foldl_loadEdge]

/-- A load acts on the live graph as changes do. -/
theorem exists_changes_load (s : Substrate σ) :
    ∃ changes, s.load.2.graph = s.graph.applyAll changes := by
  rw [load_eq]
  dsimp only
  split
  · exact ⟨.clear :: (_ ++ _), (s.graph.clear.applyAll_append _ _).symm⟩
  · exact ⟨[], rfl⟩

end Substrate

/-! ### Mirroring operations -/

namespace Hypergraph

/-- The requests that save those of some nodes that a graph has. -/
def saveNodes (g : Hypergraph) (ids : List NodeId) : List Request :=
  ids.filterMap fun id => (g.nodes.find? id).map .saveNode

/-- The requests that save those of some edges that a graph has. -/
def saveEdges (g : Hypergraph) (ids : List EdgeId) : List Request :=
  ids.filterMap fun id => (g.edges.find? id).map .saveEdge

end Hypergraph

namespace Operation

/-- Whether an operation reaches the store by mirroring alone: the others put the store as a whole to
use. -/
def mirroring : Operation → Bool
  | .save | .load | .clear | .restore _ => false
  | _ => true

/-- The change of the live graph that an operation asks for. Questions ask for none; loading and
restoring go by more than the live graph. -/
def change? : Operation → Option Change
  | .addNode node => some (.addNode node)
  | .updateNode node => some (.updateNode node)
  | .removeNode id => some (.removeNode id)
  | .addEdge edge => some (.addEdge edge)
  | .updateEdge edge => some (.updateEdge edge)
  | .removeEdge id => some (.removeEdge id)
  | .nextSequence => some .nextSequence
  | .propagate source initial => some (.propagate source initial)
  | .updateActivation id level => some (.setActivation id level)
  | .clear => some .clear
  | _ => none

/-- A graph after the change that an operation asks for. -/
def after (g : Hypergraph) (op : Operation) : Hypergraph := (op.change?.map g.apply).getD g

/-- What a mirroring operation answers on a graph. -/
def answer (g : Hypergraph) : Operation → Answer
  | .addNode node => .flag (g.addNode node).1
  | .updateNode node => .flag (g.updateNode node).1
  | .removeNode id => .flag (g.removeNode id).1.isSome
  | .getNode id => .node (g.nodes.find? id)
  | .nodeExists id => .flag (g.hasNode id)
  | .addEdge edge => .verdict (g.addEdge edge).1
  | .updateEdge edge => .verdict (g.updateEdge edge).1
  | .removeEdge id => .flag (g.removeEdge id).1
  | .getEdge id => .edge (g.edges.find? id)
  | .edgeExists id => .flag (g.hasEdge id)
  | .connected id => .ids (g.connected id).names
  | .incident id => .ids (g.incident id).names
  | .membersOf id => .ids (g.membersOf id).names
  | .nodesWithAttribute key value => .ids (g.nodesWithAttribute key value)
  | .edgesWithAttribute key value => .ids (g.edgesWithAttribute key value)
  | .nodesWithPattern pattern => .ids (g.nodesWithPattern pattern)
  | .nodeIds => .ids (g.nodes.values.map (·.id))
  | .edgeIds => .ids (g.edges.values.map (·.id))
  | .nextSequence => .number g.nextSequence.1
  | .propagate source initial =>
    .spread ((g.propagate source initial).1.map fun reached => { source, reached, initial })
  | .activation id => .real (g.activation id)
  | .clustering id => .real (g.clusteringCoefficient id)
  | .density => .real g.density
  | .metrics focus => .metrics (g.metrics focus)
  | .snapshot => .graph g
  | _ => .done

/-- The requests by which a mirroring operation on a graph brings the store in line. -/
def writes (g : Hypergraph) : Operation → List Request
  | .addNode node => if (g.addNode node).1 then (g.addNode node).2.saveNodes [node.id] else []
  | .updateNode node =>
    if (g.updateNode node).1 then (g.updateNode node).2.saveNodes [node.id] else []
  | .removeNode id =>
    match (g.removeNode id).1 with
    | some cascaded => cascaded.map .removeEdge ++ [.removeNode id]
    | none => []
  | .addEdge edge =>
    match (g.addEdge edge).1 with
    | .ok true => (g.addEdge edge).2.saveEdges [edge.id]
    | _ => []
  | .updateEdge edge =>
    match (g.updateEdge edge).1 with
    | .ok true => (g.updateEdge edge).2.saveEdges [edge.id]
    | _ => []
  | .removeEdge id => if (g.removeEdge id).1 then [.removeEdge id] else []
  | .propagate source initial =>
    match (g.propagate source initial).1 with
    | some reached => (g.propagate source initial).2.saveNodes (source :: reached.names)
    | none => []
  | .updateActivation id level =>
    if (g.setActivation id level).1 then (g.setActivation id level).2.saveNodes [id] else []
  | _ => []

end Operation

namespace Substrate

variable {σ : Type}

/-- What a call answers beyond its success does not matter to mirroring. -/
theorem mirror_replyWith {α : Type} (s : Substrate σ) (form : α → Store.Reply)
    (call : Store.Call σ α) : s.mirror (Store.replyWith form call) = s.mirror call := by
  unfold mirror Store.replyWith
  rcases call s.store with ⟨_ | _, _⟩ <;> rfl

theorem mirrorAll_append {α : Type} (s : Substrate σ) (calls calls' : List (Store.Call σ α)) :
    s.mirrorAll (calls ++ calls') = (s.mirrorAll calls).mirrorAll calls' :=
  List.foldl_append ..

variable [Store σ]

theorem mirrorNode_eq (s : Substrate σ) (id : NodeId) :
    s.mirrorNode id = s.mirrorAll ((s.graph.saveNodes [id]).map Store.serve) := by
  unfold mirrorNode Hypergraph.saveNodes
  cases hid : s.graph.nodes.find? id with
  | none => simp [hid, mirrorAll]
  | some node =>
    rw [List.filterMap_cons, hid]
    exact (s.mirror_replyWith _ (Store.saveNode node)).symm

theorem mirrorEdge_eq (s : Substrate σ) (id : EdgeId) :
    s.mirrorEdge id = s.mirrorAll ((s.graph.saveEdges [id]).map Store.serve) := by
  unfold mirrorEdge Hypergraph.saveEdges
  cases hid : s.graph.edges.find? id with
  | none => simp [hid, mirrorAll]
  | some edge =>
    rw [List.filterMap_cons, hid]
    exact (s.mirror_replyWith _ (Store.saveEdge edge)).symm

theorem foldl_mirrorNode (ids : List NodeId) (s : Substrate σ) :
    ids.foldl mirrorNode s = s.mirrorAll ((s.graph.saveNodes ids).map Store.serve) := by
  induction ids generalizing s with
  | nil => rfl
  | cons id ids ih =>
    -- mirroring leaves the graph alone, so later requests may be read off it at the start
    have hcons : s.graph.saveNodes (id :: ids) = s.graph.saveNodes [id] ++ s.graph.saveNodes ids :=
      List.filterMap_append (l := [id])
    rw [List.foldl_cons, ih, graph_mirrorNode, mirrorNode_eq, hcons, List.map_append,
      mirrorAll_append]

theorem mirrorAll_removeEdge (s : Substrate σ) (ids : List EdgeId) :
    s.mirrorAll (ids.map Store.removeEdge) =
      s.mirrorAll ((ids.map Request.removeEdge).map Store.serve) := by
  induction ids generalizing s with
  | nil => rfl
  | cons id ids ih =>
    change (s.mirror (Store.removeEdge id)).mirrorAll _ =
      (s.mirror (Store.serve (.removeEdge id))).mirrorAll _
    rw [ih, Store.serve, mirror_replyWith]

/-- The requests that the removal of a node calls for. -/
theorem mirror_removed (s : Substrate σ) (cascaded : List EdgeId) (id : NodeId) :
    (s.mirrorAll (cascaded.map Store.removeEdge)).mirror (Store.removeNode id) =
      s.mirrorAll ((cascaded.map Request.removeEdge ++ [Request.removeNode id]).map Store.serve) := by
  rw [List.map_append, mirrorAll_append, mirrorAll_removeEdge]
  exact (mirror_replyWith ..).symm

/-- A graph in place of the live one, and requests sent to the store. -/
def settle (s : Substrate σ) (g : Hypergraph) (requests : List Request) : Substrate σ :=
  (s.withGraph g).mirrorAll (requests.map Store.serve)

@[simp] theorem graph_settle (s : Substrate σ) (g : Hypergraph) (requests : List Request) :
    (s.settle g requests).graph = g := by
  rw [settle, graph_mirrorAll, graph_withGraph]

theorem addNode_eq (s : Substrate σ) (node : Node) :
    s.addNode node =
      ((s.graph.addNode node).1,
        s.settle (s.graph.addNode node).2 (Operation.writes s.graph (.addNode node))) := by
  unfold addNode
  rw [Operation.writes]
  unfold Hypergraph.addNode
  cases s.graph.hasNode node.id with
  | true => rfl
  | false => exact congrArg (Prod.mk true) (mirrorNode_eq ..)

theorem updateNode_eq (s : Substrate σ) (node : Node) :
    s.updateNode node =
      ((s.graph.updateNode node).1,
        s.settle (s.graph.updateNode node).2 (Operation.writes s.graph (.updateNode node))) := by
  unfold updateNode
  rw [Operation.writes]
  unfold Hypergraph.updateNode
  cases s.graph.hasNode node.id with
  | true => exact congrArg (Prod.mk true) (mirrorNode_eq ..)
  | false => rfl

theorem removeNode_eq (s : Substrate σ) (id : NodeId) :
    s.removeNode id =
      ((s.graph.removeNode id).1.isSome,
        s.settle (s.graph.removeNode id).2 (Operation.writes s.graph (.removeNode id))) := by
  unfold removeNode
  rw [Operation.writes]
  unfold Hypergraph.removeNode
  cases s.graph.hasNode id with
  | true =>
    -- the cascade first, the node last
    exact congrArg (Prod.mk true) (mirror_removed ..)
  | false => rfl

theorem addEdge_eq (s : Substrate σ) (edge : Edge) :
    s.addEdge edge =
      ((s.graph.addEdge edge).1,
        s.settle (s.graph.addEdge edge).2 (Operation.writes s.graph (.addEdge edge))) := by
  unfold addEdge
  rw [Operation.writes]
  unfold Hypergraph.addEdge Hypergraph.putEdge
  cases s.graph.hasEdge edge.id with
  | true => rfl
  | false =>
    cases s.graph.missingMember? edge with
    | some missing => rfl
    | none => exact congrArg (Prod.mk (Except.ok true)) (mirrorEdge_eq ..)

theorem updateEdge_eq (s : Substrate σ) (edge : Edge) :
    s.updateEdge edge =
      ((s.graph.updateEdge edge).1,
        s.settle (s.graph.updateEdge edge).2 (Operation.writes s.graph (.updateEdge edge))) := by
  unfold updateEdge
  rw [Operation.writes]
  unfold Hypergraph.updateEdge Hypergraph.putEdge
  cases s.graph.hasEdge edge.id with
  | true =>
    cases s.graph.missingMember? edge with
    | some missing => rfl
    | none => exact congrArg (Prod.mk (Except.ok true)) (mirrorEdge_eq ..)
  | false => rfl

theorem removeEdge_eq (s : Substrate σ) (id : EdgeId) :
    s.removeEdge id =
      ((s.graph.removeEdge id).1,
        s.settle (s.graph.removeEdge id).2 (Operation.writes s.graph (.removeEdge id))) := by
  unfold removeEdge
  rw [Operation.writes]
  unfold Hypergraph.removeEdge
  cases s.graph.hasEdge id with
  | true => exact congrArg (Prod.mk true) (mirror_replyWith ..).symm
  | false => rfl

theorem propagate_eq (s : Substrate σ) (source : NodeId) (initial : Binary64) :
    s.propagate source initial =
      ((s.graph.propagate source initial).1.map fun reached => { source, reached, initial },
        s.settle (s.graph.propagate source initial).2
          (Operation.writes s.graph (.propagate source initial))) := by
  unfold propagate
  rw [Operation.writes]
  unfold Hypergraph.propagate
  cases s.graph.hasNode source with
  | true => exact congrArg (Prod.mk _) (foldl_mirrorNode ..)
  | false => rfl

theorem updateActivation_eq (s : Substrate σ) (id : NodeId) (level : Binary64) :
    s.updateActivation id level =
      s.settle (s.graph.setActivation id level).2
        (Operation.writes s.graph (.updateActivation id level)) := by
  unfold updateActivation
  rw [Operation.writes]
  unfold Hypergraph.setActivation
  cases s.graph.hasNode id with
  | true => exact mirrorNode_eq ..
  | false => rfl

/-- **Mirroring.** Over any store, a mirroring operation answers what the live graph says, leaves the
graph that its change makes, and sends the store the requests that the change calls for. -/
theorem perform_mirroring (s : Substrate σ) {op : Operation} (h : op.mirroring = true) :
    s.perform op = (op.answer s.graph, s.settle (op.after s.graph) (op.writes s.graph)) := by
  cases op with
  -- these do not mirror
  | save | load | clear | restore => cases h
  | addNode node => rw [perform, addNode_eq]; rfl
  | updateNode node => rw [perform, updateNode_eq]; rfl
  | removeNode id => rw [perform, removeNode_eq]; rfl
  | addEdge edge => rw [perform, addEdge_eq]; rfl
  | updateEdge edge => rw [perform, updateEdge_eq]; rfl
  | removeEdge id => rw [perform, removeEdge_eq]; rfl
  | propagate source initial => rw [perform, propagate_eq]; rfl
  | updateActivation id level => rw [perform, updateActivation_eq]; rfl
  -- questions change nothing and send nothing
  | _ => rfl

/-- **The live graph.** Over any store, an operation that does not restore acts on the live graph as
a list of changes does. -/
theorem exists_changes_perform (s : Substrate σ) {op : Operation} (hop : ∀ g, op ≠ .restore g) :
    ∃ changes, (s.perform op).2.graph = s.graph.applyAll changes := by
  cases hmirroring : op.mirroring with
  | true =>
    rw [s.perform_mirroring hmirroring, graph_settle]
    unfold Operation.after
    cases op.change? with
    | none => exact ⟨[], rfl⟩
    | some c => exact ⟨[c], rfl⟩
  | false =>
    cases op with
    | save => exact ⟨[], rfl⟩
    | load => exact s.exists_changes_load
    | clear => exact ⟨[.clear], rfl⟩
    | restore g => exact absurd rfl (hop g)
    | _ => cases hmirroring

end Substrate

namespace Substrate

variable {σ : Type} [Store σ]

/-! ### Runs -/

theorem state_performAll_cons (s : Substrate σ) (op : Operation) (ops : List Operation) :
    (s.performAll (op :: ops)).2 = ((s.perform op).2.performAll ops).2 := rfl

/-- What holds at the start of a run and is kept by each of its operations holds at its end. -/
theorem performAll_induction {P : Substrate σ → Prop} {ops : List Operation} {s : Substrate σ}
    (start : P s) (step : ∀ s, ∀ op ∈ ops, P s → P (s.perform op).2) :
    P (s.performAll ops).2 := by
  induction ops generalizing s with
  | nil => exact start
  | cons op ops ih =>
    rw [state_performAll_cons]
    exact ih (step s op List.mem_cons_self start)
      fun s op hop => step s op (List.mem_cons_of_mem _ hop)

end Substrate

end ResonantGraph
