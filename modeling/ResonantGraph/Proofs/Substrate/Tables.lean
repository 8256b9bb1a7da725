import ResonantGraph.Proofs.Hypergraph.WellFormed
import ResonantGraph.Proofs.Store.Writes
import ResonantGraph.Proofs.Substrate.Effect

/-!
# Substrates over tables

A store of tables never fails, so what a substrate over one does can be said in full: mirroring makes
the writes of its requests (`settle_tables`), saving lays the graph over what is stored
(`save_tables`), restoring leaves nothing but the graph that is put in place (`restore_tables`), and
loading takes every node, and every edge whose members are stored (`load_tables`). The last three ask
that elements are filed under their own identifiers.
-/

namespace ResonantGraph

open Store (Tables Request)
open Table (Turns)

/-- A table lists the values of its keys. -/
theorem Table.filterMap_keys {α : Type} (t : Table α) : t.keys.filterMap t.find? = t.values := by
  unfold Table.keys Table.values
  rw [List.filterMap_map, ← List.filterMap_eq_map]
  exact List.filterMap_congr fun e he => Table.mem_entries_iff.1 he

namespace Hypergraph

/-- The tables of a graph, as a store. -/
def tables (g : Hypergraph) : Tables := { nodes := g.nodes, edges := g.edges }

/-- The requests that save every element of a graph. -/
def saveAll (g : Hypergraph) : List Request :=
  g.nodes.values.map .saveNode ++ g.edges.values.map .saveEdge

end Hypergraph

namespace Store.Tables

variable {g : Hypergraph}

/-- What saving a graph writes among the nodes. -/
theorem nodeWrites_saveAll (g : Hypergraph) :
    g.saveAll.filterMap Request.nodeWrite? =
      g.nodes.values.map fun node => (node.id, some node) := by
  unfold Hypergraph.saveAll
  rw [List.filterMap_append, Request.nodeWrites_saveNode, Request.nodeWrites_saveEdge,
    List.append_nil]

/-- What saving a graph writes among the edges. -/
theorem edgeWrites_saveAll (g : Hypergraph) :
    g.saveAll.filterMap Request.edgeWrite? =
      g.edges.values.map fun edge => (edge.id, some edge) := by
  unfold Hypergraph.saveAll
  rw [List.filterMap_append, Request.edgeWrites_saveNode, Request.edgeWrites_saveEdge,
    List.nil_append]

/-- Saving a graph lays it over what is stored. -/
theorem attemptAll_saveCalls (h : g.WellFormed) (t : Tables) :
    attemptAll (Substrate.saveCalls g) t =
      (true, { nodes := t.nodes.mergeWith g.nodes, edges := t.edges.mergeWith g.edges }) := by
  have turned : Turned g.saveAll t
      { nodes := t.nodes.mergeWith g.nodes, edges := t.edges.mergeWith g.edges } := by
    refine ⟨?_, ?_⟩
    · rw [nodeWrites_saveAll]
      exact Table.turns_values h.node_id t.nodes
    · rw [edgeWrites_saveAll]
      exact Table.turns_values h.edge_id t.edges
  -- nodes first, edges last, which is the order of the requests
  unfold Substrate.saveCalls
  rw [attemptAll_append, attemptAll_calls saveNode .saveNode fun _ _ => rfl,
    attemptAll_calls saveEdge .saveEdge fun _ _ => rfl, ← after_append, ← turned.after_eq]
  rfl

/-- The removal of what is listed and not to be kept. -/
theorem turns_filter {α : Type} (t : Table α) (keep : String → Bool) {ids : List String}
    (hids : ∀ id, id ∈ ids ↔ t.contains id = true) :
    Turns ((ids.filter fun key => !keep key).map (·, none)) t
      (t.filter fun key _ => keep key) := by
  refine Table.turns_erase (fun name hname => ?_) fun key hkey => ?_
  · have hdrop : keep name = false := by simpa using (List.mem_filter.1 hname).2
    rw [Table.find?_filter, hdrop]
    cases t.find? name <;> rfl
  · rw [Table.find?_filter]
    cases hfind : t.find? key with
    | none => rfl
    | some v =>
      -- what is stored is listed, and would be removed if it were not to be kept
      have hlisted : key ∈ ids := (hids key).2 (Table.contains_iff.2 ⟨v, hfind⟩)
      have hkeep : keep key = true := by
        by_contra hdrop
        rw [Bool.not_eq_true] at hdrop
        refine hkey (List.mem_filter.2 ⟨hlisted, ?_⟩)
        rw [hdrop]
        rfl
      rw [Option.filter_some, if_pos hkeep]

/-- Pruning the edges keeps what is to be kept. -/
theorem prune_edges (t : Tables) (keep : String → Bool) :
    Substrate.prune listEdges keep removeEdge t =
      (true, { t with edges := t.edges.filter fun key _ => keep key }) := by
  have turned : Turned ((t.edges.keys.filter fun key => !keep key).map .removeEdge) t
      { t with edges := t.edges.filter fun key _ => keep key } := by
    refine ⟨?_, ?_⟩
    · rw [Request.nodeWrites_removeEdge]
      exact Turns.refl t.nodes
    · rw [Request.edgeWrites_removeEdge]
      exact turns_filter t.edges keep fun _ => Table.mem_keys_iff
  rw [← turned.after_eq]
  exact attemptAll_calls removeEdge .removeEdge (fun _ _ => rfl) _ t

/-- Pruning the nodes keeps what is to be kept. -/
theorem prune_nodes (t : Tables) (keep : String → Bool) :
    Substrate.prune listNodes keep removeNode t =
      (true, { t with nodes := t.nodes.filter fun key _ => keep key }) := by
  have turned : Turned ((t.nodes.keys.filter fun key => !keep key).map .removeNode) t
      { t with nodes := t.nodes.filter fun key _ => keep key } := by
    refine ⟨?_, ?_⟩
    · rw [Request.nodeWrites_removeNode]
      exact turns_filter t.nodes keep fun _ => Table.mem_keys_iff
    · rw [Request.edgeWrites_removeNode]
      exact Turns.refl t.edges
  rw [← turned.after_eq]
  exact attemptAll_calls removeNode .removeNode (fun _ _ => rfl) _ t

theorem loadEach_eq {α : Type} {call : String → Call Tables (Option α)} (table : Tables → Table α)
    (h : ∀ id t, call id t = (.ok ((table t).find? id), t)) (ids : List String) (t : Tables) :
    loadEach call ids t = (ids.filterMap (table t).find?, t) := by
  induction ids with
  | nil => rfl
  | cons id ids ih =>
    unfold loadEach
    rw [h]
    dsimp only
    rw [ih, List.filterMap_cons]
    cases (table t).find? id <;> rfl

/-- Loading all that is listed gives all that is stored. -/
theorem loadEach_keys {α : Type} {call : String → Call Tables (Option α)}
    (table : Tables → Table α) (h : ∀ id t, call id t = (.ok ((table t).find? id), t))
    (t : Tables) : loadEach call (table t).keys t = ((table t).values, t) := by
  rw [loadEach_eq table h, Table.filterMap_keys]

end Store.Tables

namespace Substrate

/-- Mirroring to tables makes the writes of the requests and counts no failure. -/
theorem settle_tables (s : Substrate Tables) (g : Hypergraph) (requests : List Request) :
    s.settle g requests = { s with graph := g, store := s.store.after requests } := by
  unfold settle
  -- for any substrate, so that the induction may go on from the one after the first request
  have hall : ∀ s : Substrate Tables, s.mirrorAll (requests.map Store.serve) =
      { s with store := s.store.after requests } := by
    induction requests with
    | nil => exact fun s => rfl
    | cons r requests ih =>
      intro s
      have hfirst : s.mirror (Store.serve r) = { s with store := s.store.after [r] } := by
        cases r <;> rfl
      change (s.mirror (Store.serve r)).mirrorAll _ = _
      rw [hfirst, ih]
      dsimp only
      rw [← Tables.after_cons]
  exact hall (s.withGraph g)

/-- Saving a graph to tables lays it over what they hold. -/
theorem save_tables {s : Substrate Tables} (h : s.graph.WellFormed) :
    s.save =
      (true,
        { s with
          store :=
            { nodes := s.store.nodes.mergeWith s.graph.nodes
              edges := s.store.edges.mergeWith s.graph.edges } }) := by
  unfold save
  rw [Tables.attemptAll_saveCalls h]

/-- Restoring a graph leaves nothing else in the tables. -/
theorem restore_tables (s : Substrate Tables) {g : Hypergraph} (h : g.WellFormed) :
    s.restore g = (true, { s with graph := g, store := g.tables }) := by
  -- what pruning has left carries names of the graph only
  have covered {α : Type} (t u : Table α) :
      (t.filter fun key _ => u.contains key).mergeWith u = u := by
    refine Table.mergeWith_eq_right fun key hkey => ?_
    rw [Table.find?_filter, Table.contains_eq_false_iff.2 hkey]
    cases t.find? key <;> rfl
  unfold restore
  rw [Tables.prune_edges]
  dsimp only
  rw [Tables.prune_nodes]
  dsimp only
  rw [Tables.attemptAll_saveCalls h]
  dsimp only
  unfold Hypergraph.hasNode Hypergraph.hasEdge
  rw [covered, covered]
  rfl

/-- Loading from tables that hold elements under their own identifiers takes every node, and every
edge whose members are stored. -/
theorem load_tables {s : Substrate Tables}
    (node_id : ∀ key node, s.store.nodes.find? key = some node → node.id = key)
    (edge_id : ∀ key edge, s.store.edges.find? key = some edge → edge.id = key) :
    s.load =
      (true,
        { s with
          graph :=
            { nodes := s.store.nodes.mapValues fun _ node => node.clamped
              edges := s.store.edges.filter fun _ edge =>
                edge.members.names.all s.store.nodes.contains
              sequence := s.graph.sequence } }) := by
  have nodeIds : Store.listNodes s.store = (.ok s.store.nodes.keys, s.store) := rfl
  have edgeIds : Store.listEdges s.store = (.ok s.store.edges.keys, s.store) := rfl
  have nodes : Store.loadEach Store.loadNode s.store.nodes.keys s.store =
      (s.store.nodes.values, s.store) :=
    Tables.loadEach_keys (·.nodes) (fun _ _ => rfl) s.store
  have edges : Store.loadEach Store.loadEdge s.store.edges.keys s.store =
      (s.store.edges.values, s.store) :=
    Tables.loadEach_keys (·.edges) (fun _ _ => rfl) s.store
  -- listing and loading leave the store as it is
  rw [load_eq, nodeIds]
  dsimp only
  rw [edgeIds]
  dsimp only
  rw [nodes]
  dsimp only
  rw [edges, Hypergraph.addValues_eq _ node_id edge_id]

/-- Loading from the tables of a well-formed graph puts that graph in place, sequence aside. -/
theorem load_tables_of_wellFormed {s : Substrate Tables} {g : Hypergraph} (h : g.WellFormed)
    (hs : s.store = g.tables) :
    s.load = (true, { s with graph := { g with sequence := s.graph.sequence } }) := by
  have hnodes : s.store.nodes = g.nodes := by rw [hs]; rfl
  have hedges : s.store.edges = g.edges := by rw [hs]; rfl
  have hfilled := (Hypergraph.addValues_eq s.graph h.node_id h.edge_id).symm.trans
    (h.addValues s.graph)
  rw [load_tables (by rw [hnodes]; exact h.node_id) (by rw [hedges]; exact h.edge_id), hnodes,
    hedges, hfilled]

end Substrate

end ResonantGraph
