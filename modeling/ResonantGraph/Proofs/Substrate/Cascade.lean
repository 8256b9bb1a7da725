import ResonantGraph.Proofs.Substrate.Mirror
import ResonantGraph.Proofs.Substrate.Propagation
import ResonantGraph.Proofs.Substrate.Restored

/-!
# Removing a node

The removal of a node takes the node and the edges that have it as a member, and nothing else
(`Hypergraph.Cascaded`). A graph finds these edges by their members and drops them by their identifiers, so
this rests on edges being filed under their own identifiers.

The same has to happen in the store, by one request for each edge and one for the node. A substrate is *in
step* with its store if the store holds the live graph and nothing else (`Substrate.InStep`). Whatever kind of
store it is, as long as it is a map as far as its calls succeed, a mirroring operation none of whose calls
fails keeps the two in step (`Substrate.InStep.perform`), and so does a load (`Substrate.InStep.load`). So what
was removed stays removed: a node that is added again under the old identifier gets none of its edges back,
from the graph or from the store (`Substrate.removeNode_exact`).
-/

namespace ResonantGraph

open Store (Keeps Logged Request)

/-! ### The graph -/

namespace Hypergraph

/-- The difference that the removal of a node makes to a graph, given the identifiers of the edges that go with
it. -/
structure Cascaded (g : Hypergraph) (id : NodeId) (gone : List EdgeId) (g' : Hypergraph) : Prop where
  /-- The edges that go are those that have the node as a member. -/
  mem_gone : ∀ key, key ∈ gone ↔ ∃ edge, g.edges.find? key = some edge ∧ id ∈ edge.members
  /-- They are listed in ascending order, and so none of them twice. -/
  ascending : gone.Pairwise (· < ·)
  /-- The node is gone, and every other is what it was. -/
  nodes : ∀ key, g'.nodes.find? key = if key = id then none else g.nodes.find? key
  /-- The edges that go are gone, and every other is what it was. -/
  edges : ∀ key, g'.edges.find? key = if key ∈ gone then none else g.edges.find? key
  /-- The sequence stands where it stood. -/
  sequence : g'.sequence = g.sequence

variable {g g' : Hypergraph} {id : NodeId} {gone : List EdgeId}

/-- **A removal takes what it should.** -/
theorem cascaded_removeNode (h : g.WellFormed) (stored : g.hasNode id = true) :
    (g.removeNode id).1 = some (g.incident id).names ∧
      g.Cascaded id (g.incident id).names (g.removeNode id).2 := by
  have hremoved : g.removeNode id = (some (g.incident id).names,
      { g with nodes := g.nodes.erase id, edges := g.edges.filter fun key _ => key ∉ g.incident id }) :=
    if_pos stored
  rw [hremoved]
  refine ⟨rfl, fun key => ?_, NameSet.names_ascending _, fun key => ?_, fun key => ?_, rfl⟩
  · rw [NameSet.mem_names, mem_incident]
    constructor
    · -- an edge is filed under its own identifier, so it is its key that is listed
      rintro ⟨name, edge, hedge, hmember, hid⟩
      have hname : edge.id = name := h.edge_id name edge hedge
      rw [← hid, hname]
      exact ⟨edge, hedge, hmember⟩
    · rintro ⟨edge, hedge, hmember⟩
      exact ⟨key, edge, hedge, hmember, h.edge_id key edge hedge⟩
  · change (g.nodes.erase id).find? key = _
    rw [Table.find?_erase]
    exact if_congr eq_comm rfl rfl
  · change (g.edges.filter fun key _ => key ∉ g.incident id).find? key = _
    rw [Table.find?_filter]
    simp only [NameSet.mem_names]
    by_cases hkey : key ∈ g.incident id
    · rw [if_pos hkey]
      cases g.edges.find? key <;> simp [hkey]
    · rw [if_neg hkey]
      cases g.edges.find? key <;> simp [hkey]

namespace Cascaded

/-- An edge that is left is an old one without the node. -/
theorem find?_edges_iff (h : g.Cascaded id gone g') {key : EdgeId} {edge : Edge} :
    g'.edges.find? key = some edge ↔ g.edges.find? key = some edge ∧ id ∉ edge.members := by
  rw [h.edges]
  split
  · next hgone =>
    obtain ⟨old, hold, hmember⟩ := (h.mem_gone key).1 hgone
    constructor
    · exact nofun
    · rintro ⟨hedge, hnot⟩
      rw [hold] at hedge
      cases hedge
      exact absurd hmember hnot
  · next hkept =>
    exact ⟨fun hedge => ⟨hedge, fun hmember => hkept ((h.mem_gone key).2 ⟨edge, hedge, hmember⟩)⟩, And.left⟩

/-- Nodes are connected afterwards if an edge without the removed node joins them. -/
theorem mem_connected_iff (h : g.Cascaded id gone g') {u v : NodeId} :
    v ∈ g'.connected u ↔
      v ≠ u ∧ ∃ key edge, g.edges.find? key = some edge ∧ id ∉ edge.members ∧
        u ∈ edge.members ∧ v ∈ edge.members := by
  rw [mem_connected]
  simp only [h.find?_edges_iff, and_assoc]

theorem hasNode_eq_false (h : g.Cascaded id gone g') : g'.hasNode id = false := by
  unfold hasNode
  rw [Table.contains_eq_false_iff, h.nodes, if_pos rfl]

end Cascaded

end Hypergraph

/-! ### The store -/

namespace Table

variable {α : Type}

/-- Writes of elements, in a table that can also hold what is no element, make what they make in one that
cannot. -/
theorem writeAll_mapValues (t : Table α) (writes : List (String × Option α)) :
    (t.mapValues fun _ => some).writeAll (writes.map fun w => (w.1, w.2.map some)) =
      (t.writeAll writes).mapValues fun _ => some := by
  induction writes generalizing t with
  | nil => rfl
  | cons w writes ih =>
    have hfirst : (t.mapValues fun _ => some).write (w.1, w.2.map some) =
        (t.write w).mapValues fun _ => some := by
      obtain ⟨name, _ | value⟩ := w
      · exact (mapValues_erase ..).symm
      · exact (mapValues_insert ..).symm
    change ((t.mapValues fun _ => some).write (w.1, w.2.map some)).writeAll _ = _
    rw [hfirst]
    exact ih (t.write w)

theorem Turns.writeAll_mapValues {t u : Table α} {writes : List (String × Option α)} (h : Turns writes t u) :
    (t.mapValues fun _ => some).writeAll (writes.map fun w => (w.1, w.2.map some)) =
      u.mapValues fun _ => some := by
  rw [Table.writeAll_mapValues, h.writeAll_eq]

theorem writeAll_append (t : Table α) (writes writes' : List (String × Option α)) :
    t.writeAll (writes ++ writes') = (t.writeAll writes).writeAll writes' :=
  List.foldl_append ..

end Table

namespace Store

variable {σ : Type} [Store σ] {nodes : σ → Table (Option Node)} {edges : σ → Table (Option Edge)}
  {P : Node → Prop} {Q : Edge → Prop}

/-- What a request brings into a store has given properties. -/
def Request.Brings (P : Node → Prop) (Q : Edge → Prop) : Request → Prop
  | .saveNode node => P node
  | .saveEdge edge => Q edge
  | _ => True

/-- Writes as a store with things in it that are no elements sees them. -/
def heldWrites {α : Type} (write? : Request → Option (String × Option α)) (requests : List Request) :
    List (String × Option (Option α)) :=
  (requests.filterMap write?).map fun w => (w.1, w.2.map some)

theorem exists_ok_of_succeeded {α : Type} {answer : Except Failure α} (h : succeeded answer = true) :
    ∃ v, answer = .ok v := by
  cases answer with
  | ok v => exact ⟨v, rfl⟩
  | error e => cases h

omit [Store σ] in
/-- A call that succeeds and only tells something leaves both tables alone. -/
theorem Tells.unchanged {α β γ : Type} {table : σ → Table α} {other : σ → Table β}
    {truth : γ → Table α → Prop} {call : Call σ γ} (h : Tells table other truth call) {s : σ}
    (hdone : succeeded (call s).1 = true) :
    table (call s).2 = table s ∧ other (call s).2 = other s := by
  obtain ⟨v, hv⟩ := exists_ok_of_succeeded hdone
  exact (h s v hv).2

/-- A request that is carried out writes what it should. -/
theorem Keeps.serve (keeps : Keeps nodes edges P Q) {r : Request} (brings : r.Brings P Q) {s : σ}
    (hdone : succeeded (serve r s).1 = true) :
    nodes (serve r s).2 = (nodes s).writeAll (heldWrites Request.nodeWrite? [r]) ∧
      edges (serve r s).2 = (edges s).writeAll (heldWrites Request.edgeWrite? [r]) := by
  cases r with
  | saveNode node => exact keeps.saveNode node brings s ((succeeded_replyWith ..).symm.trans hdone)
  | removeNode id => exact keeps.removeNode id s ((succeeded_replyWith ..).symm.trans hdone)
  | saveEdge edge => exact (keeps.saveEdge edge brings s ((succeeded_replyWith ..).symm.trans hdone)).symm
  | removeEdge id => exact (keeps.removeEdge id s ((succeeded_replyWith ..).symm.trans hdone)).symm
  | loadNode id => exact (keeps.loadNode id).unchanged ((succeeded_replyWith ..).symm.trans hdone)
  | listNodes => exact keeps.listNodes.unchanged ((succeeded_replyWith ..).symm.trans hdone)
  | loadEdge id => exact ((keeps.loadEdge id).unchanged ((succeeded_replyWith ..).symm.trans hdone)).symm
  | listEdges => exact (keeps.listEdges.unchanged ((succeeded_replyWith ..).symm.trans hdone)).symm

theorem heldWrites_cons {α : Type} (write? : Request → Option (String × Option α)) (r : Request)
    (requests : List Request) :
    heldWrites write? (r :: requests) = heldWrites write? [r] ++ heldWrites write? requests := by
  unfold heldWrites
  rw [← List.map_append, ← List.filterMap_append]
  rfl

/-- Requests that are all carried out write what they should. -/
theorem Keeps.serveAll (keeps : Keeps nodes edges P Q) {requests : List Request}
    (brings : ∀ r ∈ requests, r.Brings P Q) {s : σ} (hdone : ∀ call ∈ record requests s, call.2 = true) :
    nodes (serveAll requests s) = (nodes s).writeAll (heldWrites Request.nodeWrite? requests) ∧
      edges (serveAll requests s) = (edges s).writeAll (heldWrites Request.edgeWrite? requests) := by
  induction requests generalizing s with
  | nil => exact ⟨rfl, rfl⟩
  | cons r requests ih =>
    rw [List.forall_mem_cons] at brings
    obtain ⟨hfirst, hrest⟩ := List.forall_mem_cons.1 hdone
    obtain ⟨hnodes, hedges⟩ := keeps.serve brings.1 hfirst
    obtain ⟨hnodes', hedges'⟩ := ih brings.2 hrest
    change nodes (Store.serveAll requests (Store.serve r s).2) = _ ∧
      edges (Store.serveAll requests (Store.serve r s).2) = _
    rw [hnodes', hedges', hnodes, hedges, ← Table.writeAll_append, ← Table.writeAll_append,
      ← heldWrites_cons, ← heldWrites_cons]
    exact ⟨rfl, rfl⟩

end Store

/-! ### Staying in step -/

namespace Substrate

variable {σ : Type} [Store σ] {nodes : σ → Table (Option Node)} {edges : σ → Table (Option Edge)}
  {P : Node → Prop} {Q : Edge → Prop}

/-- The live graph is well formed, and the store holds its nodes and edges and nothing else. -/
structure InStep (nodes : σ → Table (Option Node)) (edges : σ → Table (Option Edge)) (s : Substrate σ) :
    Prop where
  /-- The live graph is well formed. -/
  wellFormed : s.graph.WellFormed
  /-- The store holds the live nodes. -/
  nodes : nodes s.store = s.graph.heldNodes
  /-- The store holds the live edges. -/
  edges : edges s.store = s.graph.heldEdges

/-- No call on the store fails in a run. -/
def Unfailing (s : Substrate σ) : List Operation → Prop
  | [] => True
  | op :: ops => (∀ call ∈ s.calls op, call.2 = true) ∧ (s.perform op).2.Unfailing ops

variable {s : Substrate σ}

/-- **A mirroring operation** none of whose calls fails keeps the graph and the store in step. -/
theorem InStep.perform (keeps : Keeps nodes edges P Q) (h : s.InStep nodes edges) {op : Operation}
    (hop : op.mirroring = true) (brings : ∀ r ∈ op.writes s.graph, r.Brings P Q)
    (hcalls : ∀ call ∈ s.calls op, call.2 = true) :
    (s.perform op).2.InStep nodes edges ∧ (s.perform op).2.mirrorFailures = s.mirrorFailures := by
  rw [s.calls_of_mirroring hop] at hcalls
  obtain ⟨hnodes, hedges⟩ := keeps.serveAll brings hcalls
  have turned := Operation.writes_turn h.wellFormed hop
  rw [s.perform_mirroring hop]
  refine ⟨⟨?_, ?_, ?_⟩, ?_⟩
  · rw [graph_settle]
    exact Operation.wellFormed_after h.wellFormed op
  · rw [store_settle, graph_settle, hnodes, h.nodes]
    exact turned.nodes.writeAll_mapValues
  · rw [store_settle, graph_settle, hedges, h.edges]
    exact turned.edges.writeAll_mapValues
  · rw [mirrorFailures_settle, Store.refusals_eq_zero hcalls]
    exact UInt64.add_zero _

/-- A load from a watched store that fails no call leaves what the store holds. -/
theorem held_load_of_clean {nodes : Logged σ → Table (Option Node)} {edges : Logged σ → Table (Option Edge)}
    (keeps : Keeps nodes edges P Q) {t : Substrate (Logged σ)} (hclean : t.load.2.store.Clean) :
    nodes t.load.2.store = nodes t.store ∧ edges t.load.2.store = edges t.store := by
  have loads (id : NodeId) : Logged.Noted (Store.loadNode id : Store.Call (Logged σ) (Option Node)) :=
    Logged.noted_noted _ _
  have loads' (id : EdgeId) : Logged.Noted (Store.loadEdge id : Store.Call (Logged σ) (Option Edge)) :=
    Logged.noted_noted _ _
  obtain ⟨ids, ids', hids, hids'⟩ := exists_listings_of_clean hclean
  obtain ⟨-, hlisted, hlisted'⟩ := keeps.listNodes t.store ids hids
  obtain ⟨-, hlistedEdges, hlistedNodes⟩ := keeps.listEdges _ ids' hids'
  rw [load_of_listed hids hids'] at hclean ⊢
  dsimp only at hclean ⊢
  -- the edges are loaded last, after the nodes, after the listings
  obtain ⟨-, hedges, hnodes, hclean⟩ := Logged.loadEach_of_clean loads' keeps.loadEdge hclean
  obtain ⟨-, hnodes', hedges', -⟩ := Logged.loadEach_of_clean loads keeps.loadNode hclean
  exact ⟨by rw [hnodes, hnodes', hlistedNodes, hlisted], by rw [hedges, hedges', hlistedEdges, hlisted']⟩

/-- **A load** none of whose calls fails succeeds where graph and store are in step, and leaves both as they
are. -/
theorem InStep.load (keeps : Keeps nodes edges P Q) (h : s.InStep nodes edges)
    (hcalls : ∀ call ∈ s.calls .load, call.2 = true) :
    s.load.1 = true ∧ s.load.2.graph = s.graph ∧ s.load.2.InStep nodes edges := by
  obtain ⟨hdone, hgraph⟩ := load_of_held keeps h.wellFormed h.nodes h.edges hcalls
  have hsame : s.load.2.graph = s.graph := hgraph
  obtain ⟨hnodes, hedges⟩ := held_load_of_clean keeps.logged (t := s.logged) hcalls
  -- a watched store ends up as the plain one does
  have hstore : s.logged.load.2.store.store = s.load.2.store := (s.perform_logged .load).2.store
  rw [hstore] at hnodes hedges
  refine ⟨hdone, hsame, ?_, ?_, ?_⟩
  · rw [hsame]
    exact h.wellFormed
  · rw [hsame, ← h.nodes]
    exact hnodes
  · rw [hsame, ← h.edges]
    exact hedges

/-! ### The removal -/

/-- A load, or the addition of a node of a given identifier. -/
inductive Regains (P : Node → Prop) (id : NodeId) : Operation → Prop
  /-- The node is added, in some form. -/
  | added (node : Node) (same : node.id = id) (brings : P node.clamped) : Regains P id (.addNode node)
  /-- The graph is loaded. -/
  | loaded : Regains P id .load

/-- The addition of a node asks for that node to be saved, if for anything. -/
theorem brings_addNode {g : Hypergraph} {node : Node} (brings : P node.clamped) :
    ∀ r ∈ Operation.writes g (.addNode node), r.Brings P Q := by
  intro r hr
  rw [Operation.writes] at hr
  unfold Hypergraph.addNode at hr
  split at hr
  · cases hr
  · obtain ⟨id, hid, hsaved⟩ := List.mem_filterMap.1 hr
    obtain rfl := List.mem_singleton.1 hid
    rw [Hypergraph.nodes_putNode, Table.find?_insert_self, Option.map_some] at hsaved
    cases hsaved
    exact brings

/-- The removal of a node asks for nothing to be saved. -/
theorem brings_removeNode {g : Hypergraph} {id : NodeId} :
    ∀ r ∈ Operation.writes g (.removeNode id), r.Brings P Q := by
  intro r hr
  rw [Operation.writes] at hr
  split at hr
  · rcases List.mem_append.1 hr with hr | hr
    · obtain ⟨key, -, rfl⟩ := List.mem_map.1 hr
      trivial
    · obtain rfl := List.mem_singleton.1 hr
      trivial
  · cases hr

/-- Additions of a node and loads keep graph and store in step and bring no edge. -/
theorem InStep.regains (keeps : Keeps nodes edges P Q) (h : s.InStep nodes edges) {id : NodeId}
    {ops : List Operation} (hops : ∀ op ∈ ops, Regains P id op) (hcalls : s.Unfailing ops) :
    (s.performAll ops).2.InStep nodes edges ∧ (s.performAll ops).2.graph.edges = s.graph.edges := by
  induction ops generalizing s with
  | nil => exact ⟨h, rfl⟩
  | cons op ops ih =>
    rw [List.forall_mem_cons] at hops
    obtain ⟨hfirst, hrest⟩ := hcalls
    rw [state_performAll_cons]
    have hstep : (s.perform op).2.InStep nodes edges ∧ (s.perform op).2.graph.edges = s.graph.edges := by
      cases hops.1 with
      | added node same brings =>
        refine ⟨(h.perform keeps rfl (brings_addNode brings) hfirst).1, ?_⟩
        rw [s.perform_mirroring rfl, graph_settle]
        exact s.graph.edges_addNode node
      | loaded =>
        obtain ⟨-, hgraph, hload⟩ := h.load keeps hfirst
        exact ⟨hload, congrArg Hypergraph.edges hgraph⟩
    obtain ⟨hinStep, hedges⟩ := ih hstep.1 hops.2 hrest
    exact ⟨hinStep, hedges.trans hstep.2⟩

/-- **A removal is exact.** Let the graph be well formed and the store hold it and nothing else, and let no
call fail. The removal of a stored node removes from the graph and from the store that node and the edges that
have it as a member, whose identifiers it lists in ascending order, and leaves every other node and edge as it
is in both places, and the sequence and the count of failures. Afterwards the node is a member of no edge, and
other nodes are connected exactly if an edge without it joins them. The node can be added again. However often
that is done, and however often the graph is loaded in between, no edge comes back, to the graph or to the
store. -/
theorem removeNode_exact (keeps : Keeps nodes edges P Q) (h : s.InStep nodes edges) {id : NodeId}
    (stored : s.graph.hasNode id = true) (hcalls : s.Unfailing [.removeNode id]) :
    ∃ gone s', (s.graph.removeNode id).1 = some gone ∧ s.removeNode id = (true, s') ∧
      s.graph.Cascaded id gone s'.graph ∧
      (∀ key, (nodes s'.store).find? key = if key = id then none else (nodes s.store).find? key) ∧
      (∀ key, (edges s'.store).find? key = if key ∈ gone then none else (edges s.store).find? key) ∧
      s'.mirrorFailures = s.mirrorFailures ∧
      (∀ key edge, s'.graph.edges.find? key = some edge → id ∉ edge.members) ∧
      (∀ u v, v ∈ s'.graph.connected u ↔
        v ≠ u ∧ ∃ key edge, s.graph.edges.find? key = some edge ∧ id ∉ edge.members ∧
          u ∈ edge.members ∧ v ∈ edge.members) ∧
      (∀ node, node.id = id → (s'.addNode node).1 = true) ∧
      ∀ ops, (∀ op ∈ ops, Regains P id op) → s'.Unfailing ops →
        (s'.performAll ops).2.graph.edges = s'.graph.edges ∧
          edges (s'.performAll ops).2.store = edges s'.store := by
  obtain ⟨hgone, cascaded⟩ := Hypergraph.cascaded_removeNode h.wellFormed stored
  obtain ⟨hinStep, hfailures⟩ := h.perform keeps rfl brings_removeNode hcalls.1
  have hremoved : s.removeNode id = (true, (s.perform (.removeNode id)).2) := by
    change _ = (true, (s.removeNode id).2)
    rw [removeNode_eq, hgone]
    rfl
  have hgraph : (s.perform (.removeNode id)).2.graph = (s.graph.removeNode id).2 := by
    rw [s.perform_mirroring rfl, graph_settle]
    rfl
  rw [← hgraph] at cascaded
  refine ⟨_, _, hgone, hremoved, cascaded, fun key => ?_, fun key => ?_, hfailures, fun key edge hedge => ?_,
    fun u v => cascaded.mem_connected_iff, fun node hnode => ?_, fun ops hops hunfailing => ?_⟩
  · -- what the store holds is what the graph has, before and after
    rw [hinStep.nodes, h.nodes, Hypergraph.heldNodes, Hypergraph.heldNodes, Table.find?_mapValues,
      Table.find?_mapValues, cascaded.nodes]
    split <;> rfl
  · rw [hinStep.edges, h.edges, Hypergraph.heldEdges, Hypergraph.heldEdges, Table.find?_mapValues,
      Table.find?_mapValues, cascaded.edges]
    split <;> rfl
  · exact (cascaded.find?_edges_iff.1 hedge).2
  · have hfree : (s.perform (.removeNode id)).2.graph.hasNode node.id = false := by
      rw [hnode]
      exact cascaded.hasNode_eq_false
    rw [addNode_eq]
    exact congrArg Prod.fst (if_neg (Bool.eq_false_iff.1 hfree))
  · obtain ⟨hend, hedges⟩ := hinStep.regains keeps hops hunfailing
    refine ⟨hedges, ?_⟩
    rw [hend.edges, hinStep.edges, Hypergraph.heldEdges, Hypergraph.heldEdges, hedges]

/-- A history that leaves three nodes, an edge of all of them, two edges of two and one of none. -/
def woven : List Operation :=
  [.addNode { id := "a" }, .addNode { id := "b" }, .addNode { id := "c" },
    .addEdge { id := "all", members := NameSet.ofNames ["a", "b", "c"] },
    .addEdge { id := "ab", members := NameSet.ofNames ["a", "b"] },
    .addEdge { id := "ac", members := NameSet.ofNames ["a", "c"] }, .addEdge { id := "none" }]

/-- `removeNode_exact` over a store of bytes: two of four edges go with the node, and the load that follows its
return brings back the other two. -/
theorem removeNode_exact_woven :
    let s := ((ofStore ({} : Store.Blobs)).performAll woven).2
    s.InStep Store.Blobs.heldNodes Store.Blobs.heldEdges ∧ s.graph.hasNode "b" = true ∧
      ∃ s', s.removeNode "b" = (true, s') ∧ (s.graph.removeNode "b").1 = some ["ab", "all"] ∧
        s'.graph.connected "a" = NameSet.ofNames ["c"] ∧
        (s'.performAll [.addNode { id := "b" }, .load]).2.graph.edges.keys = ["ac", "none"] := by
  intro s
  have wellFormed : s.graph.WellFormed := wellFormed_performAll Hypergraph.wellFormed_empty fun g hg => by
    simp [woven] at hg
  have inStep : s.InStep Store.Blobs.heldNodes Store.Blobs.heldEdges :=
    ⟨wellFormed, by decide +kernel, by decide +kernel⟩
  have stored : s.graph.hasNode "b" = true := by decide +kernel
  obtain ⟨_, s', -, hremoved, -, -, -, -, -, -, -, hregains⟩ :=
    removeNode_exact Store.Blobs.keeps inStep stored ⟨by decide +kernel, trivial⟩
  have hs' : s' = (s.removeNode "b").2 := by rw [hremoved]
  have hfits : Codec.node.ReadsBack ({ id := "b" } : Node).clamped :=
    Codec.readsBack_node (by decide : Node.Fits { id := "b" })
  have hops : ∀ op ∈ [Operation.addNode { id := "b" }, .load], Regains Codec.node.ReadsBack "b" op :=
    List.forall_mem_cons.2 ⟨.added _ rfl hfits, List.forall_mem_singleton.2 .loaded⟩
  have hunfailing : s'.Unfailing [.addNode { id := "b" }, .load] := by
    rw [hs']
    exact ⟨by decide +kernel, by decide +kernel, trivial⟩
  refine ⟨inStep, stored, s', hremoved, by decide +kernel, ?_, ?_⟩
  · rw [hs']
    decide +kernel
  · rw [(hregains _ hops hunfailing).1, hs']
    decide +kernel

end Substrate

end ResonantGraph
