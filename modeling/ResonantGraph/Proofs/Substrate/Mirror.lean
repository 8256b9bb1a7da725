import ResonantGraph.Proofs.Store.Encoded
import ResonantGraph.Proofs.Substrate.Reached
import ResonantGraph.Proofs.Substrate.Tables

/-!
# The store mirrors the graph

A substrate over a store of tables that begins empty keeps the store equal to the live graph, whatever
operations are performed. The core of this is `Operation.writes_turn`: the writes that a mirroring
operation makes turn the tables of the graph before it into those of the graph after it, not one
identifier being forgotten. `Substrate.Mirrored` is the invariant of a run, with an operation for its
step (`Mirrored.perform`).

Everything else follows for both stores that never fail, the one of elements and the one of bytes
(`Substrate.backed_performAll`): the store holds the live nodes and edges and nothing more, no failure
was counted, loading succeeds and changes nothing, and a new substrate over the same store loads the
same graph.
-/

namespace ResonantGraph

open Store (Tables Blobs Request)
open Store.Tables (Turned)
open Table (Turns)

/-! ### What the writes of an operation come to -/

section Writes

variable {g g' : Hypergraph}

/-- No write. -/
theorem turned_nil (t : Tables) : Turned [] t t := ⟨Turns.refl t.nodes, Turns.refl t.edges⟩

/-- Saving nodes turns the tables into those of the graph that has the nodes, if it differs nowhere
else. -/
theorem turned_saveNodes (filed : ∀ key node, g'.nodes.find? key = some node → node.id = key)
    {ids : List NodeId} (edges : g'.edges = g.edges)
    (kept : ∀ key, ¬ key ∈ ids → g'.nodes.find? key = g.nodes.find? key)
    (lost : ∀ key, g'.nodes.find? key = none → g.nodes.find? key = none) :
    Turned (g'.saveNodes ids) g.tables g'.tables := by
  have hnodes : (g'.saveNodes ids).filterMap Request.nodeWrite? =
      ids.filterMap fun id => (g'.nodes.find? id).map fun node => (node.id, some node) := by
    unfold Hypergraph.saveNodes
    rw [List.filterMap_filterMap]
    refine List.filterMap_congr fun id _ => ?_
    cases g'.nodes.find? id <;> rfl
  have hedges : (g'.saveNodes ids).filterMap Request.edgeWrite? = [] := by
    rw [List.filterMap_eq_nil_iff]
    intro r hr
    obtain ⟨id, -, hid⟩ := List.mem_filterMap.1 hr
    obtain ⟨node, -, rfl⟩ := Option.map_eq_some_iff.1 hid
    rfl
  refine ⟨?_, ?_⟩
  · rw [hnodes]
    exact Table.turns_save filed kept lost
  · rw [hedges]
    change Turns [] g.edges g'.edges
    rw [edges]
    exact Turns.refl g.edges

/-- Saving edges turns the tables into those of the graph that has the edges, if it differs nowhere
else. -/
theorem turned_saveEdges (filed : ∀ key edge, g'.edges.find? key = some edge → edge.id = key)
    {ids : List EdgeId} (nodes : g'.nodes = g.nodes)
    (kept : ∀ key, ¬ key ∈ ids → g'.edges.find? key = g.edges.find? key)
    (lost : ∀ key, g'.edges.find? key = none → g.edges.find? key = none) :
    Turned (g'.saveEdges ids) g.tables g'.tables := by
  have hnodes : (g'.saveEdges ids).filterMap Request.nodeWrite? = [] := by
    rw [List.filterMap_eq_nil_iff]
    intro r hr
    obtain ⟨id, -, hid⟩ := List.mem_filterMap.1 hr
    obtain ⟨edge, -, rfl⟩ := Option.map_eq_some_iff.1 hid
    rfl
  have hedges : (g'.saveEdges ids).filterMap Request.edgeWrite? =
      ids.filterMap fun id => (g'.edges.find? id).map fun edge => (edge.id, some edge) := by
    unfold Hypergraph.saveEdges
    rw [List.filterMap_filterMap]
    refine List.filterMap_congr fun id _ => ?_
    cases g'.edges.find? id <;> rfl
  refine ⟨?_, ?_⟩
  · rw [hnodes]
    change Turns [] g.nodes g'.nodes
    rw [nodes]
    exact Turns.refl g.nodes
  · rw [hedges]
    exact Table.turns_save filed kept lost

/-- Saving the one node that takes its place. -/
theorem turned_putNode {node : Node}
    (filed : ∀ key n, (g.putNode node).nodes.find? key = some n → n.id = key) :
    Turned ((g.putNode node).saveNodes [node.id]) g.tables (g.putNode node).tables :=
  turned_saveNodes filed rfl (fun _ => Table.find?_insert_of_not_mem)
    fun _ => Table.find?_eq_none_of_insert

/-- Saving the one edge that takes its place. -/
theorem turned_putEdge {edge : Edge} (hg' : g' = { g with edges := g.edges.insert edge.id edge })
    (filed : ∀ key e, g'.edges.find? key = some e → e.id = key) :
    Turned (g'.saveEdges [edge.id]) g.tables g'.tables := by
  subst hg'
  exact turned_saveEdges filed rfl (fun _ => Table.find?_insert_of_not_mem)
    fun _ => Table.find?_eq_none_of_insert

/-- Saving the nodes whose activation moves. -/
theorem turned_activate {f : NodeId → Node → Node} {ids : List NodeId}
    (hg' : g' = { g with nodes := g.nodes.mapValues f })
    (filed : ∀ key node, g'.nodes.find? key = some node → node.id = key)
    (others : ∀ key, ¬ key ∈ ids → ∀ node, f key node = node) :
    Turned (g'.saveNodes ids) g.tables g'.tables := by
  subst hg'
  refine turned_saveNodes filed rfl (fun key hkey => ?_) fun key hkey => ?_
  · rw [Table.find?_mapValues]
    cases g.nodes.find? key with
    | none => rfl
    | some node => rw [Option.map_some, others key hkey node]
  · rw [Table.find?_mapValues, Option.map_eq_none_iff] at hkey
    exact hkey

/-- The removal of an edge. -/
theorem turned_removeEdge (g : Hypergraph) (id : EdgeId) :
    Turned [.removeEdge id] g.tables { g with edges := g.edges.erase id }.tables :=
  ⟨Turns.refl g.nodes, Table.turns_erase_self g.edges id⟩

/-- The removal of a node, after that of some edges. -/
theorem turned_removeNode (g : Hypergraph) (id : NodeId) (cascaded : NameSet) :
    Turned (cascaded.names.map .removeEdge ++ [.removeNode id]) g.tables
      { g with
        nodes := g.nodes.erase id
        edges := g.edges.filter fun key _ => key ∉ cascaded }.tables := by
  refine ⟨?_, ?_⟩
  · rw [List.filterMap_append, Request.nodeWrites_removeEdge]
    exact Table.turns_erase_self g.nodes id
  · rw [List.filterMap_append, Request.edgeWrites_removeEdge]
    change Turns (cascaded.names.map (·, none) ++ []) g.edges
      (g.edges.filter fun key _ => key ∉ cascaded)
    rw [List.append_nil]
    refine Table.turns_erase (fun key hkey => ?_) fun key hkey => ?_
    · -- what is filed under a cascaded identifier is gone
      rw [NameSet.mem_names] at hkey
      rw [Table.find?_filter]
      simp [hkey]
    · rw [NameSet.mem_names] at hkey
      rw [Table.find?_filter]
      cases g.edges.find? key <;> simp [hkey]

end Writes

/-! ### The writes of an operation -/

namespace Operation

variable {g : Hypergraph}

/-- A well-formed graph stays so, whatever an operation asks for. -/
theorem wellFormed_after (h : g.WellFormed) (op : Operation) : (op.after g).WellFormed := by
  unfold after
  cases op.change? with
  | none => exact h
  | some c => exact h.applyAll [c]

theorem turned_addNode (h : g.WellFormed) (node : Node) :
    Turned (writes g (.addNode node)) g.tables (g.addNode node).2.tables := by
  have filed : ∀ key n, (g.addNode node).2.nodes.find? key = some n → n.id = key :=
    (h.applyAll [.addNode node]).node_id
  rw [writes]
  unfold Hypergraph.addNode at filed ⊢
  cases hid : g.hasNode node.id with
  | true => exact turned_nil g.tables
  | false =>
    rw [hid] at filed
    exact turned_putNode filed

theorem turned_updateNode (h : g.WellFormed) (node : Node) :
    Turned (writes g (.updateNode node)) g.tables (g.updateNode node).2.tables := by
  have filed : ∀ key n, (g.updateNode node).2.nodes.find? key = some n → n.id = key :=
    (h.applyAll [.updateNode node]).node_id
  rw [writes]
  unfold Hypergraph.updateNode at filed ⊢
  cases hid : g.hasNode node.id with
  | true =>
    rw [hid] at filed
    exact turned_putNode filed
  | false => exact turned_nil g.tables

theorem turned_addEdge (h : g.WellFormed) (edge : Edge) :
    Turned (writes g (.addEdge edge)) g.tables (g.addEdge edge).2.tables := by
  have filed : ∀ key e, (g.addEdge edge).2.edges.find? key = some e → e.id = key :=
    (h.applyAll [.addEdge edge]).edge_id
  rw [writes]
  unfold Hypergraph.addEdge Hypergraph.putEdge at filed ⊢
  cases hid : g.hasEdge edge.id with
  | true => exact turned_nil g.tables
  | false =>
    cases hmissing : g.missingMember? edge with
    | some missing => exact turned_nil g.tables
    | none =>
      rw [hid, hmissing] at filed
      exact turned_putEdge rfl filed

theorem turned_updateEdge (h : g.WellFormed) (edge : Edge) :
    Turned (writes g (.updateEdge edge)) g.tables (g.updateEdge edge).2.tables := by
  have filed : ∀ key e, (g.updateEdge edge).2.edges.find? key = some e → e.id = key :=
    (h.applyAll [.updateEdge edge]).edge_id
  rw [writes]
  unfold Hypergraph.updateEdge Hypergraph.putEdge at filed ⊢
  cases hid : g.hasEdge edge.id with
  | true =>
    cases hmissing : g.missingMember? edge with
    | some missing => exact turned_nil g.tables
    | none =>
      rw [hid, hmissing] at filed
      exact turned_putEdge rfl filed
  | false => exact turned_nil g.tables

theorem turned_propagate (h : g.WellFormed) (source : NodeId) (initial : Binary64) :
    Turned (writes g (.propagate source initial)) g.tables
      (g.propagate source initial).2.tables := by
  have filed : ∀ key n, (g.propagate source initial).2.nodes.find? key = some n → n.id = key :=
    (h.applyAll [.propagate source initial]).node_id
  rw [writes]
  unfold Hypergraph.propagate at filed ⊢
  cases hid : g.hasNode source with
  | true =>
    -- the source and what it reaches are saved, and no other node moves
    rw [hid] at filed
    refine turned_activate rfl filed fun key hkey node => ?_
    rw [List.mem_cons, not_or, NameSet.mem_names] at hkey
    unfold Hypergraph.spreadTo
    rw [if_neg hkey.1, if_neg hkey.2]
  | false => exact turned_nil g.tables

theorem turned_updateActivation (h : g.WellFormed) (id : NodeId) (level : Binary64) :
    Turned (writes g (.updateActivation id level)) g.tables
      (g.setActivation id level).2.tables := by
  have filed : ∀ key n, (g.setActivation id level).2.nodes.find? key = some n → n.id = key :=
    (h.applyAll [.setActivation id level]).node_id
  rw [writes]
  unfold Hypergraph.setActivation at filed ⊢
  cases hid : g.hasNode id with
  | true =>
    rw [hid] at filed
    refine turned_activate rfl filed fun key hkey node => ?_
    have hne : key ≠ id := fun heq => hkey (List.mem_singleton.2 heq)
    exact if_neg hne
  | false => exact turned_nil g.tables

/-- **Nothing is forgotten.** The writes of a mirroring operation turn the tables of a well-formed
graph into those of the graph after it. -/
theorem writes_turn (h : g.WellFormed) {op : Operation} (hop : op.mirroring = true) :
    Turned (op.writes g) g.tables (op.after g).tables := by
  cases op with
  | save | load | clear | restore => cases hop
  | addNode node => exact turned_addNode h node
  | updateNode node => exact turned_updateNode h node
  | addEdge edge => exact turned_addEdge h edge
  | updateEdge edge => exact turned_updateEdge h edge
  | propagate source initial => exact turned_propagate h source initial
  | updateActivation id level => exact turned_updateActivation h id level
  | removeNode id =>
    change Turned _ g.tables (g.removeNode id).2.tables
    rw [writes]
    unfold Hypergraph.removeNode
    cases g.hasNode id with
    | true => exact turned_removeNode g id (g.incident id)
    | false => exact turned_nil g.tables
  | removeEdge id =>
    change Turned _ g.tables (g.removeEdge id).2.tables
    rw [writes]
    unfold Hypergraph.removeEdge
    cases g.hasEdge id with
    | true => exact turned_removeEdge g id
    | false => exact turned_nil g.tables
  -- nothing is written, and both tables stay as they are
  | _ => exact turned_nil g.tables

end Operation

/-! ### Runs -/

namespace Substrate

/-- The store holds the live graph, which is well formed, and no call has failed. -/
structure Mirrored (s : Substrate Tables) : Prop where
  /-- The store is equal to the tables of the live graph. -/
  store : s.store = s.graph.tables
  /-- The live graph is well formed. -/
  wellFormed : s.graph.WellFormed
  /-- No call has failed while mirroring. -/
  mirrorFailures : s.mirrorFailures = 0

theorem mirrored_empty : (ofStore ({} : Tables)).Mirrored := ⟨rfl, Hypergraph.wellFormed_empty, rfl⟩

/-- Loading changes nothing. -/
theorem Mirrored.load {s : Substrate Tables} (h : s.Mirrored) : s.load = (true, s) := by
  rw [load_tables_of_wellFormed h.wellFormed h.store]

/-- Saving changes nothing. -/
theorem Mirrored.save {s : Substrate Tables} (h : s.Mirrored) : s.save = (true, s) := by
  have covered {α : Type} (t : Table α) : t.mergeWith t = t :=
    Table.mergeWith_eq_right fun _ hkey => hkey
  rw [save_tables h.wellFormed, h.store]
  unfold Hypergraph.tables
  rw [covered, covered]
  change (true, { s with store := s.graph.tables }) = (true, s)
  rw [← h.store]

/-- An operation keeps the store equal to the live graph. -/
theorem Mirrored.perform {s : Substrate Tables} (h : s.Mirrored) {op : Operation}
    (restored : ∀ g, op = .restore g → g.WellFormed) : (s.perform op).2.Mirrored := by
  cases hop : op.mirroring with
  | true =>
    -- the writes lead from the tables before, which the store is, to the tables after
    rw [s.perform_mirroring hop]
    change (s.settle (op.after s.graph) (op.writes s.graph)).Mirrored
    rw [settle_tables, h.store, (Operation.writes_turn h.wellFormed hop).after_eq]
    exact ⟨rfl, Operation.wellFormed_after h.wellFormed op, h.mirrorFailures⟩
  | false =>
    cases op with
    -- what is saved and what is loaded is there already
    | save =>
      change s.save.2.Mirrored
      rw [h.save]
      exact h
    | load =>
      change s.load.2.Mirrored
      rw [h.load]
      exact h
    -- tables are emptied with the graph
    | clear => exact ⟨rfl, h.wellFormed.applyAll [.clear], h.mirrorFailures⟩
    | restore g =>
      have hg : g.WellFormed := restored g rfl
      change (s.restore g).2.Mirrored
      rw [s.restore_tables hg]
      exact ⟨rfl, hg, h.mirrorFailures⟩
    | _ => cases hop

/-- A run keeps the store equal to the live graph. -/
theorem Mirrored.performAll {s : Substrate Tables} (h : s.Mirrored) {ops : List Operation}
    (restored : ∀ g, Operation.restore g ∈ ops → g.WellFormed) :
    (s.performAll ops).2.Mirrored := by
  refine performAll_induction h fun s op hop hs => hs.perform fun g hg => restored g ?_
  rw [← hg]
  exact hop

/-! ### Stores of elements and stores of bytes -/

variable {σ : Type}

/-- Over a store whose state is determined, so is the substrate. -/
theorem Related.ext {keep : Tables → σ} {R : σ → Tables → Prop} (form : ∀ a t, R a t → a = keep t)
    {s s' : Substrate σ} {t : Substrate Tables} (h : Related R s t) (h' : Related R s' t) :
    s = s' := by
  obtain ⟨hgraph, hstore, hfailures⟩ := h
  obtain ⟨hgraph', hstore', hfailures'⟩ := h'
  cases s
  cases s'
  dsimp only at *
  rw [hgraph, hgraph', form _ _ hstore, form _ _ hstore', hfailures, hfailures']

variable [Store σ]

/-- A store that keeps the live graph in a given form, and nothing else. -/
structure Backed (keep : Tables → σ) (s : Substrate σ) : Prop where
  /-- The store holds exactly the live nodes and edges, under their identifiers. -/
  store : s.store = keep s.graph.tables
  /-- No call has failed while mirroring. -/
  mirrorFailures : s.mirrorFailures = 0
  /-- Loading succeeds and changes nothing. -/
  load : s.load = (true, s)
  /-- A new substrate over the store loads the same nodes and edges. -/
  reopened : (ofStore s.store).load =
    (true, { ofStore s.store with graph := { s.graph with sequence := 0 } })

theorem Mirrored.backed {s : Substrate Tables} (h : s.Mirrored) : s.Backed id where
  store := h.store
  mirrorFailures := h.mirrorFailures
  load := h.load
  reopened := load_tables_of_wellFormed h.wellFormed h.store

/-- A store that answers like tables is as good a mirror as they are. -/
theorem Backed.of_related {keep : Tables → σ} {R : σ → Tables → Prop} {P : Node → Prop}
    {Q : Edge → Prop} (sim : Store.Simulation R P Q) (form : ∀ a t, R a t → a = keep t)
    {s : Substrate σ} {t : Substrate Tables} (h : Related R s t)
    (hs : s.graph.Every (fun _ => P) fun _ => Q) (ht : t.Mirrored) : s.Backed keep where
  store := calc
    s.store = keep t.store := form _ _ h.store
    _ = keep t.graph.tables := by rw [ht.store]
    _ = keep s.graph.tables := by rw [h.graph]
  mirrorFailures := h.mirrorFailures.trans ht.mirrorFailures
  load := by
    -- loading on the right changes nothing, so what comes out on the left is related to the same
    obtain ⟨⟨hanswer, hrelated⟩, -⟩ := sim.load h hs
    rw [ht.load] at hanswer hrelated
    exact Prod.ext hanswer (hrelated.ext form h)
  reopened := by
    have hopened : Related R (ofStore s.store) (ofStore t.store) := ⟨rfl, h.store, rfl⟩
    obtain ⟨⟨hanswer, hrelated⟩, -⟩ := sim.load hopened Hypergraph.Every.empty
    rw [ht.backed.reopened] at hanswer hrelated
    -- both come to the old graph with the sequence of a new one
    have hgraph : Related R { ofStore s.store with graph := { s.graph with sequence := 0 } }
        { ofStore t.store with graph := { t.graph with sequence := 0 } } :=
      ⟨by rw [h.graph], h.store, rfl⟩
    exact Prod.ext hanswer (hrelated.ext form hgraph)

/-- **The store mirrors the graph**, after every run from an empty store that never fails. A store of
elements does so whatever is performed; a store of bytes does so while nothing is emptied, for it
outlives the graph, and while what is brought in fits the wire format, as all that fits a machine's
memory does. -/
theorem backed_performAll (ops : List Operation)
    (restored : ∀ g, Operation.restore g ∈ ops → g.Reached) :
    ((ofStore ({} : Tables)).performAll ops).2.Backed id ∧
      ((∀ op ∈ ops, op.Within Node.Fits Edge.Fits ∧ op ≠ .clear) →
        ((ofStore ({} : Blobs)).performAll ops).2.Backed Blobs.ofTables) := by
  have mirrored : ((ofStore ({} : Tables)).performAll ops).2.Mirrored :=
    mirrored_empty.performAll fun g hg => (restored g hg).wellFormed
  refine ⟨mirrored.backed, fun within => ?_⟩
  have hopened : Related Blobs.Encodes (ofStore {}) (ofStore {}) :=
    ⟨rfl, Blobs.encodes_empty, rfl⟩
  obtain ⟨⟨-, hrelated⟩, hgraph⟩ :=
    Blobs.simulation.performAll hopened Hypergraph.Every.empty within
  exact .of_related Blobs.simulation (fun _ _ h => h.eq) hrelated hgraph mirrored

/-- A history in which a graph with two nodes and an edge is replaced by a graph with one node. -/
def replacement : List Operation :=
  [.addNode { id := "a" }, .addNode { id := "b" },
    .addEdge { id := "e", members := NameSet.ofNames ["a", "b"] },
    .restore (Hypergraph.apply ∅ (.addNode { id := "c" }))]

/-- `backed_performAll` on a history that ends with a replacement: of what was stored before, nothing
is left. -/
theorem backed_replacement :
    ((ofStore ({} : Tables)).performAll replacement).2.Backed id ∧
      ((ofStore ({} : Blobs)).performAll replacement).2.Backed Blobs.ofTables ∧
      ((ofStore ({} : Blobs)).performAll replacement).2.store.nodes.keys = ["c"] := by
  have restored : ∀ g, Operation.restore g ∈ replacement → g.Reached := by
    -- one graph is put in place
    intro g hg
    simp only [replacement, List.mem_cons, List.not_mem_nil, reduceCtorEq, false_or, or_false,
      Operation.restore.injEq] at hg
    subst hg
    exact .change _ .empty
  have replaced : (Hypergraph.apply ∅ (.addNode { id := "c" })).Every (fun _ => Node.Fits)
      fun _ => Edge.Fits :=
    Hypergraph.Every.empty.apply (fun _ _ level h => h.setActivation _)
      (c := .addNode { id := "c" }) (by decide : Node.Fits { id := "c" })
  have within : ∀ op ∈ replacement, op.Within Node.Fits Edge.Fits ∧ op ≠ .clear := by
    intro op hop
    simp only [replacement, List.mem_cons, List.not_mem_nil, or_false] at hop
    rcases hop with rfl | rfl | rfl | rfl
    · exact ⟨(by decide : Node.Fits { id := "a" }), nofun⟩
    · exact ⟨(by decide : Node.Fits { id := "b" }), nofun⟩
    · exact ⟨(by decide : Edge.Fits { id := "e", members := NameSet.ofNames ["a", "b"] }), nofun⟩
    · exact ⟨replaced, nofun⟩
  have backed := backed_performAll replacement restored
  exact ⟨backed.1, backed.2 within, by rfl⟩

end Substrate

end ResonantGraph
