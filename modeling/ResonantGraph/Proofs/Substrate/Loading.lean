import ResonantGraph.Proofs.Hypergraph.WellFormed
import ResonantGraph.Proofs.Substrate.Effect
import ResonantGraph.Store.Faulty

/-!
# What a load takes

Nothing is assumed of a store. It may list what it does not hold, list an identifier twice, give out
an element under an identifier that is not the element's own, fail any call, and change with every
call. A load asks it for two listings and then for each of the listed elements, and what it gives out
(`Store.GivesOut`) is a list of nodes and a list of edges, in the order of the listings.

Of these the live graph becomes the largest consistent part (`Hypergraph.LargestPart`): of several nodes
with one identifier the first, clamped, and of several edges with one identifier the first whose
members are all among these nodes. No graph that is made up of what was given out has a node or an
edge more (`Hypergraph.LargestPart.covers`). `Substrate.load_largest` says so of every store and every
live graph, together with what happens where a listing fails.
-/

namespace ResonantGraph

/-! ### What a store gives out -/

namespace Store

variable {σ α : Type}

/-- A store that is asked for what is under each of some identifiers gives out an element. The calls
that come before may have changed the store. -/
def GivesOut (call : String → Call σ (Option α)) (ids : List String) (s : σ) (v : α) : Prop :=
  ∃ before id after, ids = before ++ id :: after ∧
    (call id (loadEach call before s).2).1 = .ok (some v)

/-- The first call gives something out, or a later one does. -/
theorem mem_loadEach_cons {call : String → Call σ (Option α)} {id : String} {ids : List String}
    {s : σ} {v : α} :
    v ∈ (loadEach call (id :: ids) s).1 ↔
      (call id s).1 = .ok (some v) ∨ v ∈ (loadEach call ids (call id s).2).1 := by
  rw [loadEach]
  rcases call id s with ⟨_ | _ | w, s⟩
  · simp
  · simp
  · simp [eq_comm]

/-- Whatever the calls answer, the store is asked for one element after the other. -/
theorem loadEach_cons_snd (call : String → Call σ (Option α)) (id : String) (ids : List String)
    (s : σ) : (loadEach call (id :: ids) s).2 = (loadEach call ids (call id s).2).2 := by
  rw [loadEach]
  rcases call id s with ⟨_ | _ | w, s⟩ <;> rfl

/-- What is collected by loading is what the store gives out. -/
theorem mem_loadEach {call : String → Call σ (Option α)} {ids : List String} {s : σ} {v : α} :
    v ∈ (loadEach call ids s).1 ↔ GivesOut call ids s v := by
  unfold GivesOut
  induction ids generalizing s with
  | nil =>
    refine iff_of_false List.not_mem_nil ?_
    rintro ⟨before, id, after, hids, -⟩
    exact List.append_ne_nil_of_right_ne_nil before (List.cons_ne_nil id after) hids.symm
  | cons id ids ih =>
    rw [mem_loadEach_cons, ih]
    constructor
    · rintro (hfirst | ⟨before, id', after, rfl, hlater⟩)
      · exact ⟨[], id, ids, rfl, hfirst⟩
      · -- the first call comes before the others
        refine ⟨id :: before, id', after, rfl, ?_⟩
        rw [loadEach_cons_snd]
        exact hlater
    · rintro ⟨_ | ⟨first, before⟩, id', after, hids, hgiven⟩
      · obtain ⟨rfl, rfl⟩ := List.cons.inj hids
        exact .inl hgiven
      · obtain ⟨rfl, rfl⟩ := List.cons.inj hids
        rw [loadEach_cons_snd] at hgiven
        exact .inr ⟨before, id', after, rfl, hgiven⟩

end Store

/-! ### The largest consistent part -/

namespace Hypergraph

variable {nodes : List Node} {edges : List Edge} {g : Hypergraph}

/-- A graph holds of some nodes and edges, in the order in which they came, as much as goes
together. -/
structure LargestPart (nodes : List Node) (edges : List Edge) (g : Hypergraph) : Prop where
  /-- Of several nodes with one identifier the first is there, clamped. -/
  find?_nodes : ∀ id, g.nodes.find? id = (nodes.find? fun node => node.id = id).map Node.clamped
  /-- Of several edges with one identifier the first is there whose members are all stored. -/
  find?_edges : ∀ id, g.edges.find? id =
    edges.find? fun edge => decide (edge.id = id) && edge.members.names.all g.hasNode

/-- Adding nodes and then edges to an emptied graph leaves the largest part of them. -/
theorem largestPart_applyAll (g : Hypergraph) (nodes : List Node) (edges : List Edge) :
    LargestPart nodes edges
      ((g.clear.applyAll (nodes.map .addNode)).applyAll (edges.map .addEdge)) where
  find?_nodes := by
    intro id
    rw [(nodes_addEdges ..).1, find?_nodes_addNodes, nodes_clear, Table.find?_empty, Option.none_or]
  find?_edges := by
    intro id
    rw [find?_edges_addEdges, edges_addNodes, edges_clear, Table.find?_empty, Option.none_or]
    -- the edges leave the nodes alone, so it does not matter when members are looked for
    have hnodes := (nodes_addEdges (g.clear.applyAll (nodes.map .addNode)) edges).1
    congr 1
    funext edge
    congr 1
    rw [Bool.eq_iff_iff, Option.isNone_iff_eq_none, missingMember?_eq_none_iff, List.all_eq_true]
    unfold hasNode
    rw [hnodes]
    simp only [NameSet.mem_names]

theorem LargestPart.hasNode_iff (h : LargestPart nodes edges g) (id : NodeId) :
    g.hasNode id = true ↔ ∃ node ∈ nodes, node.id = id := by
  unfold hasNode Table.contains
  rw [h.find?_nodes, Option.isSome_map, List.find?_isSome]
  simp only [decide_eq_true_eq]

theorem LargestPart.hasEdge_iff (h : LargestPart nodes edges g) (id : EdgeId) :
    g.hasEdge id = true ↔
      ∃ edge ∈ edges, edge.id = id ∧ ∀ member ∈ edge.members, g.hasNode member = true := by
  unfold hasEdge Table.contains
  rw [h.find?_edges, List.find?_isSome]
  simp only [Bool.and_eq_true, decide_eq_true_eq, List.all_eq_true, NameSet.mem_names]

/-- The largest part is determined by what was given out. -/
theorem LargestPart.unique {g' : Hypergraph} (h : LargestPart nodes edges g)
    (h' : LargestPart nodes edges g') : g.nodes = g'.nodes ∧ g.edges = g'.edges := by
  have hnodes : g.nodes = g'.nodes :=
    Table.ext_find? fun id => (h.find?_nodes id).trans (h'.find?_nodes id).symm
  refine ⟨hnodes, Table.ext_find? fun id => ?_⟩
  -- the same members are stored in both
  rw [h.find?_edges, h'.find?_edges]
  unfold hasNode
  rw [hnodes]

/-- A well-formed graph is the largest part of its elements, in whatever order and however often they are
given out. -/
theorem WellFormed.largestPart (h : g.WellFormed)
    (hnodes : ∀ node, node ∈ nodes ↔ node ∈ g.nodes.values)
    (hedges : ∀ edge, edge ∈ edges ↔ edge ∈ g.edges.values) : LargestPart nodes edges g where
  find?_nodes := by
    intro id
    have hfind := Table.find?_listing h.node_id hnodes (fun _ => true) id
    have htrue : (g.nodes.find? id).filter (fun _ => true) = g.nodes.find? id := by
      cases g.nodes.find? id <;> rfl
    simp only [Bool.and_true, htrue] at hfind
    rw [hfind]
    cases hid : g.nodes.find? id with
    | none => rfl
    | some node => rw [Option.map_some, Node.clamped_eq_self_iff.2 (h.clamped id node hid)]
  find?_edges := by
    intro id
    rw [Table.find?_listing h.edge_id hedges]
    cases hid : g.edges.find? id with
    | none => rfl
    | some edge =>
      have hall : edge.members.names.all g.hasNode = true := h.members.all_contains hid
      rw [Option.filter_some, if_pos hall]

/-- A graph without dangling edges is made up of some nodes and edges: each of its nodes goes back to one
of them with the same identifier, and each of its edges is one of them under its own identifier. -/
structure MadeUpOf (nodes : List Node) (edges : List Edge) (g : Hypergraph) : Prop where
  /-- Every member of every edge is stored. -/
  members : g.MembersStored
  /-- The nodes are among the given ones, activations aside. -/
  node : ∀ id, g.hasNode id = true → ∃ node ∈ nodes, node.id = id
  /-- The edges are among the given ones. -/
  edge : ∀ id edge, g.edges.find? id = some edge → edge ∈ edges ∧ edge.id = id

/-- **Nothing that goes together is left out** of the largest part. -/
theorem LargestPart.covers (h : LargestPart nodes edges g) {part : Hypergraph}
    (hpart : part.MadeUpOf nodes edges) :
    (∀ id, part.hasNode id = true → g.hasNode id = true) ∧
      ∀ id, part.hasEdge id = true → g.hasEdge id = true := by
  have hnodes : ∀ id, part.hasNode id = true → g.hasNode id = true := fun id hid =>
    (h.hasNode_iff id).2 (hpart.node id hid)
  refine ⟨hnodes, fun id hid => ?_⟩
  obtain ⟨edge, hedge⟩ := Table.contains_iff.1 hid
  obtain ⟨hmem, hown⟩ := hpart.edge id edge hedge
  -- the members are nodes of the part, so they are nodes of the whole
  exact (h.hasEdge_iff id).2
    ⟨edge, hmem, hown, fun member hmember => hnodes member (hpart.members id edge hedge member hmember)⟩

end Hypergraph

/-! ### Loading -/

namespace Substrate

variable {σ : Type} [Store σ]

/-- A load by two listings fills the emptied graph with what is loaded by them. -/
theorem load_of_listed {s : Substrate σ} {ids : List NodeId} {ids' : List EdgeId}
    (hids : (Store.listNodes s.store).1 = .ok ids)
    (hids' : (Store.listEdges (Store.listNodes s.store).2).1 = .ok ids') :
    let nodes := Store.loadEach Store.loadNode ids (Store.listEdges (Store.listNodes s.store).2).2
    let edges := Store.loadEach Store.loadEdge ids' nodes.2
    s.load = (true,
      { s with
        graph := (s.graph.clear.applyAll (nodes.1.map .addNode)).applyAll (edges.1.map .addEdge)
        store := edges.2 }) := by
  rw [load_eq]
  dsimp only
  split
  · next found found' hfound hfound' =>
    cases hids.symm.trans hfound
    cases hids'.symm.trans hfound'
    rfl
  · next hnone => exact absurd hids' (hnone ids ids' hids)

/-- What was loaded by two listings is the largest consistent part of what was given out, and the sequence
goes on. -/
theorem largestPart_load {s : Substrate σ} {ids : List NodeId} {ids' : List EdgeId}
    (hids : (Store.listNodes s.store).1 = .ok ids)
    (hids' : (Store.listEdges (Store.listNodes s.store).2).1 = .ok ids') :
    let nodes := Store.loadEach Store.loadNode ids (Store.listEdges (Store.listNodes s.store).2).2
    let edges := Store.loadEach Store.loadEdge ids' nodes.2
    s.load.2.graph.LargestPart nodes.1 edges.1 ∧ s.load.2.graph.sequence = s.graph.sequence := by
  rw [load_of_listed hids hids']
  refine ⟨Hypergraph.largestPart_applyAll .., ?_⟩
  dsimp only
  rw [(Hypergraph.nodes_addEdges ..).2, Hypergraph.sequence_addNodes, Hypergraph.sequence_clear]

/-- **A load takes the largest consistent part of a store**, whatever the store does. Where a listing fails
it says so and leaves the live graph alone. Otherwise it succeeds and keeps the sequence; a node is in the
graph exactly if the store gives out one with its identifier, and an edge exactly if the store gives out
one with its identifier whose members are all nodes of the graph; the first of its kind counts; and no
graph that is made up of what the store gives out has a node or an edge more. -/
theorem load_largest (s : Substrate σ) :
    let nodeIds := Store.listNodes s.store
    let edgeIds := Store.listEdges nodeIds.2
    ((Store.succeeded nodeIds.1 && Store.succeeded edgeIds.1) = false →
      s.load.1 = false ∧ s.load.2.graph = s.graph) ∧
    ∀ ids ids', nodeIds.1 = .ok ids → edgeIds.1 = .ok ids' →
      let nodes := Store.loadEach Store.loadNode ids edgeIds.2
      let edges := Store.loadEach Store.loadEdge ids' nodes.2
      let loaded := s.load.2.graph
      s.load.1 = true ∧ loaded.sequence = s.graph.sequence ∧
      (∀ id, loaded.hasNode id = true ↔
        ∃ node, Store.GivesOut Store.loadNode ids edgeIds.2 node ∧ node.id = id) ∧
      (∀ id, loaded.hasEdge id = true ↔
        ∃ edge, Store.GivesOut Store.loadEdge ids' nodes.2 edge ∧ edge.id = id ∧
          ∀ member ∈ edge.members, loaded.hasNode member = true) ∧
      loaded.LargestPart nodes.1 edges.1 ∧
      ∀ part : Hypergraph, part.MadeUpOf nodes.1 edges.1 →
        (∀ id, part.hasNode id = true → loaded.hasNode id = true) ∧
          ∀ id, part.hasEdge id = true → loaded.hasEdge id = true := by
  intro nodeIds edgeIds
  refine ⟨fun hfailed => ?_, fun ids ids' hids hids' => ?_⟩
  · rw [load_eq]
    -- one of the listings is a failure, so there is nothing to go by
    have hnone : ∀ ids ids', nodeIds.1 = .ok ids → edgeIds.1 = .ok ids' → False := by
      intro ids ids' hids hids'
      rw [hids, hids'] at hfailed
      cases hfailed
    dsimp only
    split
    · next ids ids' hids hids' => exact absurd (hnone ids ids' hids hids') not_false
    · exact ⟨rfl, rfl⟩
  · intro nodes edges loaded
    obtain ⟨largest, hsequence⟩ := largestPart_load hids hids'
    refine ⟨by rw [load_of_listed hids hids'], hsequence, fun id => ?_, fun id => ?_, largest,
      fun part hpart => largest.covers hpart⟩
    · rw [largest.hasNode_iff]
      exact exists_congr fun node => and_congr_left' Store.mem_loadEach
    · rw [largest.hasEdge_iff]
      exact exists_congr fun edge => and_congr_left' Store.mem_loadEach

/-- A store that holds a node twice and another under a foreign identifier, fails to load a third, and
holds an edge that joins this one. -/
def unruly : Store.Faulty where
  tables :=
    { nodes := Table.ofList
        [("a", { id := "a" }), ("b", { id := "a", label := "again" }), ("c", { id := "c" }),
          ("d", { id := "e" })]
      edges := Table.ofList
        [("x", { id := "y", members := NameSet.ofNames ["a", "e"] }),
          ("z", { id := "z", members := NameSet.ofNames ["a", "c"] })] }
  refused := ["load_node:c"]

/-- `load_largest` on an unruly store and a graph that is not empty: the first of the nodes with one
identifier is there, the misfiled node and the edge that joins the two are, and neither the dangling edge
nor what was there before. Where the edges cannot be listed, what was there before stays. -/
theorem load_largest_unruly :
    let old := Hypergraph.apply ∅ (.addNode { id := "old" })
    let loaded := ({ graph := old, store := unruly } : Substrate Store.Faulty).load.2.graph
    loaded.nodes.find? "a" = some { id := "a" } ∧ loaded.hasNode "e" = true ∧
      loaded.hasEdge "y" = true ∧ loaded.hasEdge "z" = false ∧ loaded.hasNode "old" = false ∧
      ({ graph := old, store := { unruly with refused := ["list_edge_ids"] } } :
        Substrate Store.Faulty).load.2.graph = old := by
  intro old loaded
  have taken := (load_largest ({ graph := old, store := unruly } : Substrate Store.Faulty)).2
    ["a", "b", "c", "d"] ["x", "z"] (by rfl) (by rfl)
  have kept := (load_largest ({ graph := old, store := { unruly with refused := ["list_edge_ids"] } } :
    Substrate Store.Faulty)).1 (by rfl)
  have largest : loaded.LargestPart [{ id := "a" }, { id := "a", label := "again" }, { id := "e" }]
      [{ id := "y", members := NameSet.ofNames ["a", "e"] },
        { id := "z", members := NameSet.ofNames ["a", "c"] }] := taken.2.2.2.2.1
  clear_value loaded
  have a : loaded.nodes.find? "a" = some { id := "a" } := (largest.find?_nodes "a").trans (by rfl)
  have e : loaded.nodes.find? "e" = some { id := "e" } := (largest.find?_nodes "e").trans (by rfl)
  have c : loaded.hasNode "c" = false :=
    Table.contains_eq_false_iff.2 ((largest.find?_nodes "c").trans (by rfl))
  have old : loaded.hasNode "old" = false :=
    Table.contains_eq_false_iff.2 ((largest.find?_nodes "old").trans (by rfl))
  refine ⟨a, Table.contains_iff.2 ⟨_, e⟩, (largest.hasEdge_iff "y").2 ?_, ?_, old, kept.2⟩
  · refine ⟨_, List.mem_cons_self, rfl, fun member hmember => ?_⟩
    rw [NameSet.mem_ofNames, List.mem_cons, List.mem_singleton] at hmember
    rcases hmember with rfl | rfl
    · exact Table.contains_iff.2 ⟨_, a⟩
    · exact Table.contains_iff.2 ⟨_, e⟩
  · -- the one edge with this identifier joins a node that failed to load
    rw [← Bool.not_eq_true, largest.hasEdge_iff]
    rintro ⟨edge, hedge, hid, hmembers⟩
    rw [List.mem_cons, List.mem_singleton] at hedge
    rcases hedge with rfl | rfl
    · exact absurd hid (by decide)
    · exact Bool.false_ne_true
        (c.symm.trans (hmembers "c" (NameSet.mem_ofNames.2 (List.mem_cons_of_mem _ List.mem_cons_self))))

end Substrate

end ResonantGraph
