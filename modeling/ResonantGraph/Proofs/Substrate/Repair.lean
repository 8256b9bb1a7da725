import ResonantGraph.Proofs.Store.Failing
import ResonantGraph.Proofs.Substrate.Mirror

/-!
# What saving makes up for

Mirroring goes on when a call fails, and saving pushes the whole graph once more. Over a store that
keeps tables (`Store.MapLike`) this makes up for every save that failed, and for no removal: an
element whose removal failed stays in the store, and the next load brings it back, unless it is an
edge of which a member is not stored.

* `load_save_tables` — over tables that hold whatever a run has left, loading after a save leaves the
  graph as it was exactly if they hold nothing but the graph and edges that it would not take;
* `Behind` is the invariant of a run in which calls fail: what the store has too much is on record as
  a removal that was refused;
* `load_save_iff` puts both together, for any pattern of failures.

The removal that is missed is at hand: `forgotten` is a run after which the save and the load
succeed and a node that was removed is back.
-/

namespace ResonantGraph

open Store (Tables Request MapLike Reliable Shows)

/-- Tables that hold no node that a graph lacks, and no edge that it lacks and would take. -/
structure Hypergraph.Covers (g : Hypergraph) (t : Tables) : Prop where
  /-- Every stored node is one of the graph. -/
  nodes : ∀ id, g.nodes.find? id = none → t.nodes.find? id = none
  /-- Every other edge that is stored has a member that is not a node of the graph. -/
  edges : ∀ id edge, g.edges.find? id = none → t.edges.find? id = some edge →
    ∃ member ∈ edge.members, g.hasNode member = false

/-- Tables that file elements under their own identifiers. -/
structure Store.Tables.Filed (t : Tables) : Prop where
  /-- They do so with nodes. -/
  node_id : ∀ key node, t.nodes.find? key = some node → node.id = key
  /-- They do so with edges. -/
  edge_id : ∀ key edge, t.edges.find? key = some edge → edge.id = key

namespace Store

/-- Requests file elements under their own identifiers. -/
theorem Tables.Filed.after {t : Tables} (h : t.Filed) (requests : List Request) :
    (t.after requests).Filed where
  node_id := Table.forall_find?_writeAll h.node_id fun _ _ hw => by
    obtain ⟨_, -, hr⟩ := List.mem_filterMap.1 hw
    exact Request.id_of_nodeWrite hr
  edge_id := Table.forall_find?_writeAll h.edge_id fun _ _ hw => by
    obtain ⟨_, -, hr⟩ := List.mem_filterMap.1 hw
    exact Request.id_of_edgeWrite hr

end Store

/-! ### Loading after a save -/

section Covering

variable {g : Hypergraph} {t : Tables}

/-- Where loading what a graph was laid over gives the graph, the graph covers it. -/
theorem covers_of_loaded
    (nodes : ((t.nodes.mergeWith g.nodes).mapValues fun _ node => node.clamped) = g.nodes)
    (edges : ((t.edges.mergeWith g.edges).filter fun _ edge =>
      edge.members.names.all (t.nodes.mergeWith g.nodes).contains) = g.edges) : g.Covers t where
  nodes := by
    intro id hid
    rw [← nodes, Table.find?_mapValues, Table.find?_mergeWith, Option.map_eq_none_iff,
      Option.or_eq_none_iff] at hid
    exact hid.2
  edges := by
    intro id edge hid hedge
    by_contra hstored
    have hall : edge.members.names.all (t.nodes.mergeWith g.nodes).contains = true := by
      rw [List.all_eq_true]
      intro member hmember
      have hlive : g.hasNode member = true := by
        by_contra hgone
        rw [Bool.not_eq_true] at hgone
        exact hstored ⟨member, NameSet.mem_names.1 hmember, hgone⟩
      obtain ⟨node, hnode⟩ := Table.contains_iff.1 hlive
      exact Table.contains_iff.2 ⟨node, by rw [Table.find?_mergeWith, hnode, Option.some_or]⟩
    -- an edge that has all its members would be loaded
    have hloaded : g.edges.find? id = some edge := by
      rw [← edges, Table.find?_filter, Table.find?_mergeWith, hid, Option.none_or, hedge,
        Option.filter_some, if_pos hall]
    rw [hid] at hloaded
    cases hloaded

/-- Loading takes no edge that a graph covers. -/
theorem Hypergraph.Covers.filter_edges (covers : g.Covers t) (members : g.MembersStored) :
    ((t.edges.mergeWith g.edges).filter fun _ edge =>
      edge.members.names.all g.nodes.contains) = g.edges := by
  refine Table.ext_find? fun id => ?_
  rw [Table.find?_filter, Table.find?_mergeWith]
  cases hid : g.edges.find? id with
  | some edge =>
    -- an edge of the graph has all its members
    rw [Option.some_or, Option.filter_some, if_pos (members.all_contains hid)]
  | none =>
    -- another edge lacks one
    rw [Option.none_or, Option.filter_eq_none_iff]
    intro edge hedge hall
    obtain ⟨member, hmember, hgone⟩ := covers.edges id edge hid hedge
    have hlive : g.hasNode member = true :=
      List.all_eq_true.1 hall member (NameSet.mem_names.2 hmember)
    rw [hgone] at hlive
    cases hlive

end Covering

namespace Substrate

/-- Loading after a save leaves the graph as it was exactly if it covers what the tables held. -/
theorem load_save_tables {s : Substrate Tables} (h : s.graph.WellFormed) (filed : s.store.Filed) :
    s.save.1 = true ∧ s.save.2.load.1 = true ∧
      (s.save.2.load.2.graph = s.graph ↔ s.graph.Covers s.store) := by
  have node_id := Table.forall_find?_mergeWith filed.node_id h.node_id
  have edge_id := Table.forall_find?_mergeWith filed.edge_id h.edge_id
  rw [save_tables h, load_tables node_id edge_id]
  refine ⟨rfl, rfl, fun heq => ?_, fun covers => ?_⟩
  · exact covers_of_loaded (congrArg Hypergraph.nodes heq) (congrArg Hypergraph.edges heq)
  · have nodes : s.store.nodes.mergeWith s.graph.nodes = s.graph.nodes :=
      Table.mergeWith_eq_right covers.nodes
    dsimp only
    rw [nodes, covers.filter_edges h.members, h.mapValues_clamped]

/-! ### Runs in which calls fail -/

variable {σ : Type}

/-- A store that is behind its graph: whatever it has too much is on record as a removal that was
refused. -/
structure Behind (view : σ → Tables) (record : List (Request × Bool)) (s : Substrate σ) : Prop where
  /-- The live graph is well formed. -/
  wellFormed : s.graph.WellFormed
  /-- What is stored is filed under its own identifier. -/
  filed : (view s.store).Filed
  /-- A stored node that the graph lacks should have been removed. -/
  nodes : ∀ id, s.graph.nodes.find? id = none →
    (view s.store).nodes.find? id = none ∨ (Request.removeNode id, false) ∈ record
  /-- A stored edge that the graph lacks should have been removed. -/
  edges : ∀ id, s.graph.edges.find? id = none →
    (view s.store).edges.find? id = none ∨ (Request.removeEdge id, false) ∈ record
  /-- Every refusal was counted. -/
  mirrorFailures : s.mirrorFailures = UInt64.ofNat (Store.refusals record)

variable {view : σ → Tables}

theorem behind_empty {store : σ} (empty : view store = {}) : (ofStore store).Behind view [] where
  wellFormed := Hypergraph.wellFormed_empty
  filed := by
    change (view store).Filed
    rw [empty]
    exact ⟨fun _ _ h => (by cases h), fun _ _ h => (by cases h)⟩
  nodes := fun _ _ => .inl (by change (view store).nodes.find? _ = none; rw [empty]; rfl)
  edges := fun _ _ => .inl (by change (view store).edges.find? _ = none; rw [empty]; rfl)
  mirrorFailures := rfl

variable [Store σ]

/-- The requests of a run of mirroring operations, each with whether it was carried out. -/
def record (s : Substrate σ) : List Operation → List (Request × Bool)
  | [] => []
  | op :: ops =>
    Store.record (op.writes s.graph) s.store ++ record (s.perform op).2 ops

/-- A mirroring operation leaves nothing else behind. -/
theorem Behind.perform (mapLike : MapLike view) {record : List (Request × Bool)} {s : Substrate σ}
    (h : s.Behind view record) {op : Operation} (hop : op.mirroring = true) :
    (s.perform op).2.Behind view (record ++ Store.record (op.writes s.graph) s.store) := by
  have turned := Operation.writes_turn h.wellFormed hop
  rw [s.perform_mirroring hop]
  refine ⟨?_, ?_, fun id hid => ?_, fun id hid => ?_, ?_⟩
  · rw [graph_settle]
    exact Operation.wellFormed_after h.wellFormed op
  · rw [store_settle, mapLike.view_serveAll]
    exact h.filed.after _
  · -- a node was behind already, or its removal has just been refused
    rw [graph_settle] at hid
    rw [store_settle, mapLike.view_serveAll, List.mem_append]
    rcases Store.leftover (s := s.store) turned.nodes h.nodes hid with
      hnone | hold | ⟨r, hr, hrefused⟩
    · exact .inl hnone
    · exact .inr (.inl hold)
    · exact .inr (.inr (Request.eq_removeNode hr ▸ hrefused))
  · -- and so for an edge
    rw [graph_settle] at hid
    rw [store_settle, mapLike.view_serveAll, List.mem_append]
    rcases Store.leftover (s := s.store) turned.edges h.edges hid with
      hnone | hold | ⟨r, hr, hrefused⟩
    · exact .inl hnone
    · exact .inr (.inl hold)
    · exact .inr (.inr (Request.eq_removeEdge hr ▸ hrefused))
  · rw [mirrorFailures_settle, h.mirrorFailures, ← UInt64.ofNat_add]
    unfold Store.refusals
    rw [← List.countP_append]

/-- A run of mirroring operations leaves nothing else behind. -/
theorem Behind.performAll (mapLike : MapLike view) {before : List (Request × Bool)}
    {s : Substrate σ} (h : s.Behind view before) {ops : List Operation}
    (hops : ∀ op ∈ ops, op.mirroring = true) :
    (s.performAll ops).2.Behind view (before ++ s.record ops) := by
  induction ops generalizing before s with
  | nil =>
    rw [record, List.append_nil]
    exact h
  | cons op ops ih =>
    rw [List.forall_mem_cons] at hops
    rw [record, ← List.append_assoc]
    exact ih (h.perform mapLike hops.1) hops.2

/-! ### What a save makes up for -/

/-- **A save makes up for every save that failed, and for no removal.** Over a store that keeps
tables, begins empty and fails as it likes, until nothing fails any more: the save after a run and the
load after that succeed, and the load leaves the graph as it was exactly if the graph covers what is
stored. What is stored and is not in the graph was due to be removed by a request that was refused,
and every refusal was counted. -/
theorem load_save_iff (mapLike : MapLike view) {store : σ} (empty : view store = {})
    {ops : List Operation} (hops : ∀ op ∈ ops, op.mirroring = true)
    (reliable : Reliable ((ofStore store).performAll ops).2.store) :
    let s := ((ofStore store).performAll ops).2
    s.save.1 = true ∧ s.save.2.load.1 = true ∧
      (s.save.2.load.2.graph = s.graph ↔ s.graph.Covers (view s.store)) ∧
      (∀ id, s.graph.nodes.find? id = none → (view s.store).nodes.find? id = none ∨
        (Request.removeNode id, false) ∈ (ofStore store).record ops) ∧
      (∀ id, s.graph.edges.find? id = none → (view s.store).edges.find? id = none ∨
        (Request.removeEdge id, false) ∈ (ofStore store).record ops) ∧
      s.mirrorFailures = UInt64.ofNat (Store.refusals ((ofStore store).record ops)) := by
  have behind := (behind_empty empty).performAll mapLike hops
  revert reliable behind
  generalize ((ofStore store).performAll ops).2 = s
  intro reliable behind
  -- from here on the store answers like the tables that it shows
  have related : Related (Shows view) s
      { graph := s.graph, store := view s.store, mirrorFailures := s.mirrorFailures } :=
    ⟨rfl, ⟨rfl, reliable⟩, rfl⟩
  have every (g : Hypergraph) : g.Every (fun _ _ => True) fun _ _ => True :=
    ⟨fun _ _ _ => trivial, fun _ _ _ => trivial⟩
  obtain ⟨hsaved, related⟩ := mapLike.simulation.save related (every _)
  obtain ⟨⟨hloaded, related⟩, -⟩ := mapLike.simulation.load related (every _)
  obtain ⟨saved, loaded, hgraph⟩ := load_save_tables behind.wellFormed behind.filed
    (s := { graph := s.graph, store := view s.store, mirrorFailures := s.mirrorFailures })
  rw [← hsaved] at saved
  rw [← hloaded] at loaded
  rw [← related.graph] at hgraph
  exact ⟨saved, loaded, hgraph, behind.nodes, behind.edges, behind.mirrorFailures⟩

/-- A store whose second call fails, and no other. -/
def forgetful : Store.Scripted := { schedule := [true, false] }

/-- A node is added and removed. -/
def forgotten : List Operation := [.addNode { id := "a" }, .removeNode "a"]

theorem mirroring_forgotten : ∀ op ∈ forgotten, op.mirroring = true := by
  simp only [forgotten, List.forall_mem_cons, Operation.mirroring, true_and]
  exact fun _ h => by cases h

theorem reliable_forgotten : Reliable ((ofStore forgetful).performAll forgotten).2.store :=
  Store.Scripted.reliable rfl

/-- `load_save_iff` on the run whose removal is refused: the load after the save brings back the node,
which the graph does not cover. -/
theorem load_save_forgotten :
    let s := ((ofStore forgetful).performAll forgotten).2
    s.save.1 = true ∧ s.save.2.load.1 = true ∧ s.save.2.load.2.graph ≠ s.graph ∧
      s.mirrorFailures = 1 := by
  obtain ⟨saved, loaded, hgraph, -, -, hfailures⟩ :=
    load_save_iff Store.Scripted.mapLike rfl mirroring_forgotten reliable_forgotten
  refine ⟨saved, loaded, fun heq => ?_, hfailures.trans (by rfl)⟩
  -- the node is stored, and the graph does not have it
  have hgone := (hgraph.1 heq).nodes "a" (by rfl)
  revert hgone
  decide

/-- A save does not make up for a removal that failed. -/
theorem exists_save_forgets :
    ¬ ∀ (σ : Type) (_ : Store σ) (view : σ → Tables) (store : σ) (ops : List Operation),
      MapLike view → view store = {} → (∀ op ∈ ops, op.mirroring = true) →
      Reliable ((ofStore store).performAll ops).2.store →
      ((ofStore store).performAll ops).2.save.1 = true →
      ((ofStore store).performAll ops).2.save.2.load.1 = true ∧
        ((ofStore store).performAll ops).2.save.2.load.2.graph.nodes =
          ((ofStore store).performAll ops).2.graph.nodes ∧
        ((ofStore store).performAll ops).2.save.2.load.2.graph.edges =
          ((ofStore store).performAll ops).2.graph.edges := by
  intro claim
  obtain ⟨-, hnodes, -⟩ := claim Store.Scripted inferInstance Store.Scripted.tables forgetful
    forgotten Store.Scripted.mapLike rfl mirroring_forgotten reliable_forgotten (by rfl)
  revert hnodes
  decide

end Substrate

end ResonantGraph
