import ResonantGraph.Proofs.Codec.RoundTrip
import ResonantGraph.Proofs.Hypergraph.Search
import ResonantGraph.Proofs.Store.Kept

/-!
# What a propagation changes

A propagation sets the activation of its source, raises that of every node in reach once, and leaves all
else in the graph as it was (`Hypergraph.Spread`). Every node whose activation it sets is then saved. A store
that is a map as far as its calls succeed holds, after calls that all succeed, these nodes as the graph has
them and under every other identifier what it held before (`Store.Keeps.held_saveNodes`).

A client may have a hook in place, which is run after the change and may do with the substrate and the rest
of the world what it likes (`Substrate.propagateTelling`). `Substrate.propagate_exact` puts this together.
-/

namespace ResonantGraph

/-! ### The graph -/

namespace Hypergraph

/-- The difference that a propagation makes to a graph, given the nodes in reach. -/
structure Spread (g : Hypergraph) (source : NodeId) (reached : NameSet) (initial : Binary64)
    (g' : Hypergraph) : Prop where
  /-- The source has the initial activation, clamped. -/
  atSource : ∀ node, g.nodes.find? source = some node →
    g'.nodes.find? source = some (node.setActivation initial.clamp)
  /-- A node in reach has gained the share of it, clamped. -/
  inReach : ∀ id ∈ reached, ∀ node, g.nodes.find? id = some node →
    g'.nodes.find? id = some (node.setActivation (node.activation + initial * retention).clamp)
  /-- Every other node is what it was, and none is new. -/
  elsewhere : ∀ id, id ≠ source → id ∉ reached → g'.nodes.find? id = g.nodes.find? id
  /-- The edges are what they were. -/
  edges : g'.edges = g.edges
  /-- The sequence stands where it stood. -/
  sequence : g'.sequence = g.sequence

variable {g : Hypergraph} {source : NodeId}

theorem reached_propagate (h : g.hasNode source = true) (initial : Binary64) :
    (g.propagate source initial).1 = some (g.reachable source propagationHops) := by
  unfold propagate
  rw [h]
  rfl

theorem spread_propagate (h : g.hasNode source = true) (initial : Binary64) :
    g.Spread source (g.reachable source propagationHops) initial (g.propagate source initial).2 where
  atSource node hnode := by
    rw [nodes_propagate h, hnode, Option.map_some, spreadTo, if_pos rfl]
  inReach id hid node hnode := by
    have hne : id ≠ source := (mem_reachable_iff.1 hid).2.1
    rw [nodes_propagate h, hnode, Option.map_some, spreadTo, if_neg hne, if_pos hid]
  elsewhere id hne hid := by
    have hsame : spreadTo source (g.reachable source propagationHops) initial id = fun node => node := by
      funext node
      rw [spreadTo, if_neg hne, if_neg hid]
    rw [nodes_propagate h, hsame, Option.map_id']
  edges := edges_propagate ..
  sequence := sequence_propagate ..

/-- What a propagation leaves under an identifier is what was there, up to an activation. -/
theorem exists_setActivation_of_find?_propagate (h : g.hasNode source = true) {initial : Binary64} {id : NodeId}
    {node' : Node} (hnode' : (g.propagate source initial).2.nodes.find? id = some node') :
    ∃ node level, g.nodes.find? id = some node ∧ node' = node.setActivation level := by
  rw [nodes_propagate h, Option.map_eq_some_iff] at hnode'
  obtain ⟨node, hnode, rfl⟩ := hnode'
  unfold spreadTo
  split
  · exact ⟨node, _, hnode, rfl⟩
  split
  · exact ⟨node, _, hnode, rfl⟩
  · exact ⟨node, node.activation, hnode, rfl⟩

end Hypergraph

/-! ### The store -/

namespace Store

variable {σ : Type} [Store σ]

theorem attemptAll_serve (requests : List Request) (s : σ) :
    attemptAll (requests.map serve) s = ((record requests s).all (·.2), serveAll requests s) := by
  induction requests generalizing s with
  | nil => rfl
  | cons r requests ih =>
    change (succeeded (serve r s).1 && (attemptAll (requests.map serve) (serve r s).2).1,
      (attemptAll (requests.map serve) (serve r s).2).2) = _
    rw [ih]
    rfl

theorem refusals_eq_zero {record : List (Request × Bool)} (h : ∀ call ∈ record, call.2 = true) :
    refusals record = 0 := by
  refine List.countP_eq_zero.2 fun call hcall => ?_
  rw [h call hcall]
  exact Bool.false_ne_true

variable {nodes : σ → Table (Option Node)} {edges : σ → Table (Option Edge)} {P : Node → Prop}
  {Q : Edge → Prop}

theorem Keeps.writes_serve (keeps : Keeps nodes edges P Q) {node : Node} (hnode : P node) :
    Writes nodes edges (node.id, some (some node)) (serve (.saveNode node)) := by
  intro s hdone
  exact keeps.saveNode node hnode s ((succeeded_replyWith ..).symm.trans hdone)

/-- **Saved nodes.** If nodes of a graph are saved and no call fails, a store has these as the graph has them,
and all else as it was. -/
theorem Keeps.held_saveNodes (keeps : Keeps nodes edges P Q) {g : Hypergraph}
    (filed : ∀ id node, g.nodes.find? id = some node → node.id = id)
    (hP : ∀ id node, g.nodes.find? id = some node → P node) {ids : List NodeId} {s : σ}
    (hstored : ∀ id ∈ ids, g.hasNode id = true)
    (hdone : ∀ call ∈ record (g.saveNodes ids) s, call.2 = true) :
    (∀ id, (nodes (serveAll (g.saveNodes ids) s)).find? id =
      if id ∈ ids then (g.nodes.find? id).map some else (nodes s).find? id) ∧
    edges (serveAll (g.saveNodes ids) s) = edges s := by
  have hrequests : (g.saveNodes ids).map serve =
      (ids.filterMap g.nodes.find?).map fun node => serve (σ := σ) (.saveNode node) := by
    unfold Hypergraph.saveNodes
    rw [← List.map_filterMap, List.map_map]
    rfl
  have hsaved : ∀ node ∈ ids.filterMap g.nodes.find?,
      Writes nodes edges (node.id, some (some node)) (serve (.saveNode node)) := by
    intro node hnode
    obtain ⟨id, -, hid⟩ := List.mem_filterMap.1 hnode
    exact keeps.writes_serve (hP id node hid)
  have hall : (attemptAll ((g.saveNodes ids).map serve) s).1 = true := by
    rw [attemptAll_serve]
    exact List.all_eq_true.2 hdone
  have hafter : (attemptAll ((g.saveNodes ids).map serve) s).2 = serveAll (g.saveNodes ids) s := by
    rw [attemptAll_serve]
  rw [hrequests] at hall hafter
  obtain ⟨hnodes, hedges⟩ := attemptAll_writes hsaved hall
  rw [hafter] at hnodes hedges
  refine ⟨fun id => ?_, hedges⟩
  rw [hnodes]
  split
  · next hid =>
    -- the node is saved, and whatever is written to its name is the node
    obtain ⟨node, hnode⟩ := Table.contains_iff.1 (hstored id hid)
    have hwritten : ∃ w ∈ (ids.filterMap g.nodes.find?).map fun node => (node.id, some (some node)),
        w.1 = id :=
      ⟨_, List.mem_map_of_mem (List.mem_filterMap.2 ⟨id, hid, hnode⟩), filed id node hnode⟩
    obtain ⟨other, hother, heq⟩ := List.mem_map.1 (Table.mem_of_find?_writeAll (t := nodes s) hwritten)
    obtain ⟨id', -, hid'⟩ := List.mem_filterMap.1 hother
    obtain ⟨rfl, hfound⟩ := Prod.mk.inj heq
    rw [filed id' other hid', hid', Option.map_some]
    rw [filed id' other hid'] at hfound
    exact hfound.symm
  · next hid =>
    refine Table.find?_writeAll_of_forall_ne fun w hw hkey => hid ?_
    obtain ⟨node, hnode, rfl⟩ := List.mem_map.1 hw
    obtain ⟨id', hmem, hid'⟩ := List.mem_filterMap.1 hnode
    rw [← hkey, filed id' node hid']
    exact hmem

end Store

/-! ### The substrate -/

namespace Substrate

variable {σ ω : Type} [Store σ]

/-- Spreads activation and then, unless there is no such source, runs a hook on what was done. -/
def propagateTelling (hook : Propagation → Substrate σ × ω → Substrate σ × ω) (source : NodeId)
    (initial : Binary64) (s : Substrate σ) (world : ω) : Substrate σ × ω :=
  match s.propagate source initial with
  | (some propagation, s) => hook propagation (s, world)
  | (none, s) => (s, world)

/-- A propagation from nowhere does nothing. -/
theorem propagate_of_absent (s : Substrate σ) {source : NodeId} (h : s.graph.hasNode source = false)
    (initial : Binary64) : s.propagate source initial = (none, s) := by
  unfold propagate Hypergraph.propagate
  rw [h]
  rfl

/-- A propagation from a node asks for the source and what it reaches to be saved. -/
theorem writes_propagate {g : Hypergraph} {source : NodeId} (h : g.hasNode source = true) (initial : Binary64) :
    Operation.writes g (.propagate source initial) =
      (g.propagate source initial).2.saveNodes
        (source :: (g.reachable source Hypergraph.propagationHops).names) := by
  rw [Operation.writes, Hypergraph.reached_propagate h]

theorem propagate_of_stored (s : Substrate σ) {source : NodeId} (h : s.graph.hasNode source = true)
    (initial : Binary64) :
    s.propagate source initial =
      (some { source, reached := s.graph.reachable source Hypergraph.propagationHops, initial },
        s.settle (s.graph.propagate source initial).2
          (Operation.writes s.graph (.propagate source initial))) := by
  rw [propagate_eq, Hypergraph.reached_propagate h]
  rfl

/-- **The store after a propagation** none of whose calls fails has the source and the nodes in reach as the
graph has them, and is otherwise what it was; and no failure is counted. -/
theorem held_propagate {nodes : σ → Table (Option Node)} {edges : σ → Table (Option Edge)} {P : Node → Prop}
    {Q : Edge → Prop} (keeps : Store.Keeps nodes edges P Q) {s : Substrate σ} (h : s.graph.WellFormed)
    {source : NodeId} (hstored : s.graph.hasNode source = true) {initial : Binary64}
    (hP : ∀ id node (level : Binary64), s.graph.nodes.find? id = some node → P (node.setActivation level))
    (hcalls : ∀ call ∈ s.calls (.propagate source initial), call.2 = true) :
    let reached := s.graph.reachable source Hypergraph.propagationHops
    let s' := s.settle (s.graph.propagate source initial).2
      (Operation.writes s.graph (.propagate source initial))
    (∀ id, (nodes s'.store).find? id =
      if id = source ∨ id ∈ reached then (s'.graph.nodes.find? id).map some else (nodes s.store).find? id) ∧
    edges s'.store = edges s.store ∧ s'.mirrorFailures = s.mirrorFailures := by
  intro reached s'
  rw [s.calls_of_mirroring rfl] at hcalls
  have wellFormed : (s.graph.propagate source initial).2.WellFormed :=
    h.applyAll [.propagate source initial]
  have hP' : ∀ id node, (s.graph.propagate source initial).2.nodes.find? id = some node → P node := by
    intro id node' hnode'
    obtain ⟨node, level, hnode, rfl⟩ := Hypergraph.exists_setActivation_of_find?_propagate hstored hnode'
    exact hP id node level hnode
  have hkept : ∀ id ∈ source :: reached.names, (s.graph.propagate source initial).2.hasNode id = true := by
    intro id hid
    rw [Hypergraph.hasNode_propagate]
    rcases List.mem_cons.1 hid with rfl | hid
    · exact hstored
    · obtain ⟨-, -, hwithin⟩ := Hypergraph.mem_reachable_iff.1 (NameSet.mem_names.1 hid)
      exact h.members.hasNode_of_within hstored hwithin
  have hsaves := hcalls
  rw [writes_propagate hstored] at hsaves
  obtain ⟨hnodes, hedges⟩ := keeps.held_saveNodes wellFormed.node_id hP' hkept hsaves
  rw [← writes_propagate hstored] at hnodes hedges
  refine ⟨fun id => ?_, ?_, ?_⟩
  · rw [store_settle, graph_settle, hnodes]
    simp only [List.mem_cons, NameSet.mem_names]
  · rw [store_settle, hedges]
  · rw [mirrorFailures_settle, Store.refusals_eq_zero hcalls]
    exact UInt64.add_zero _

/-- **Propagation changes exactly what it should.** Let the graph be well formed. A propagation from a source
that is not stored does nothing at all and does not run the hook. From one that is, it sets the activation of
the source, raises once that of each other node that is at most two shared edges away, and changes nothing
else in the graph; the hook is then run once, on the changed substrate, and is told the source, these nodes
and the initial activation as it was given. Where no call on the store fails, and the store is a map as far as
its calls succeed, it holds these nodes as the graph now has them and is otherwise what it was, and no failure
is counted. -/
theorem propagate_exact {s : Substrate σ} (h : s.graph.WellFormed) (source : NodeId) (initial : Binary64) :
    (s.graph.hasNode source = false →
      s.propagate source initial = (none, s) ∧
        ∀ (hook : Propagation → Substrate σ × ω → Substrate σ × ω) (world : ω),
          s.propagateTelling hook source initial world = (s, world)) ∧
    (s.graph.hasNode source = true →
      ∃ (reached : NameSet) (s' : Substrate σ),
        s.propagate source initial = (some { source, reached, initial }, s') ∧
        (∀ (hook : Propagation → Substrate σ × ω → Substrate σ × ω) (world : ω),
          s.propagateTelling hook source initial world = hook { source, reached, initial } (s', world)) ∧
        (∀ id, id ∈ reached ↔ s.graph.hasNode id = true ∧ id ≠ source ∧ s.graph.Within 2 source id) ∧
        s.graph.Spread source reached initial s'.graph ∧
        ∀ {nodes : σ → Table (Option Node)} {edges : σ → Table (Option Edge)} {P : Node → Prop}
          {Q : Edge → Prop}, Store.Keeps nodes edges P Q →
          (∀ id node (level : Binary64), s.graph.nodes.find? id = some node →
            P (node.setActivation level)) →
          (∀ call ∈ s.calls (.propagate source initial), call.2 = true) →
          (∀ id, (nodes s'.store).find? id =
            if id = source ∨ id ∈ reached then (s'.graph.nodes.find? id).map some
            else (nodes s.store).find? id) ∧
          edges s'.store = edges s.store ∧ s'.mirrorFailures = s.mirrorFailures) := by
  refine ⟨fun habsent => ?_, fun hstored => ?_⟩
  · have hnone := s.propagate_of_absent habsent initial
    refine ⟨hnone, fun hook world => ?_⟩
    rw [propagateTelling, hnone]
  have hsome := s.propagate_of_stored hstored initial
  refine ⟨s.graph.reachable source Hypergraph.propagationHops, _, hsome, fun hook world => ?_, fun id => ?_,
    ?_, fun keeps hP hcalls => held_propagate keeps h hstored hP hcalls⟩
  · rw [propagateTelling, hsome]
  · rw [Hypergraph.mem_reachable_iff]
    constructor
    · rintro ⟨-, hne, hwithin⟩
      exact ⟨h.members.hasNode_of_within hstored hwithin, hne, hwithin⟩
    · rintro ⟨-, hne, hwithin⟩
      exact ⟨hstored, hne, hwithin⟩
  · rw [graph_settle]
    exact Hypergraph.spread_propagate hstored initial

/-- Four nodes in a row over a store of bytes, which has the nodes, an older one under the name of the last, and
bytes that are no node. -/
def chained : Substrate Store.Blobs where
  graph :=
    Hypergraph.applyAll ∅
      [.addNode { id := "a" }, .addNode { id := "b" }, .addNode { id := "c" }, .addNode { id := "d" },
        .addEdge { id := "ab", members := NameSet.ofNames ["a", "b"] },
        .addEdge { id := "bc", members := NameSet.ofNames ["b", "c"] },
        .addEdge { id := "cd", members := NameSet.ofNames ["c", "d"] }]
  store :=
    { nodes := Table.ofList
        [("a", Codec.node.write { id := "a" }), ("b", Codec.node.write { id := "b" }),
          ("d", Codec.node.write { id := "d", label := "old" }), ("z", [0xff])] }

/-- `propagate_exact` on a chain, with an initial activation that is no number: the source is at zero, the node
two steps away has gained a share of no number and is saved for the first time, the node behind it stays as it
is in the graph and in the store, and so do the bytes that are no node. -/
theorem propagate_exact_chained :
    chained.graph.WellFormed ∧ chained.graph.hasNode "a" = true ∧
      ∃ s', chained.propagate "a" .nan =
          (some { source := "a", reached := NameSet.ofNames ["b", "c"], initial := .nan }, s') ∧
        s'.graph.nodes.find? "a" = some ({ id := "a" } : Node) ∧
        s'.graph.nodes.find? "d" = some ({ id := "d" } : Node) ∧
        s'.store.heldNodes.find? "c" = (s'.graph.nodes.find? "c").map some ∧
        s'.store.heldNodes.find? "d" = some (some { id := "d", label := "old" }) ∧
        s'.store.heldNodes.find? "z" = some none ∧ s'.mirrorFailures = 0 := by
  have wellFormed : chained.graph.WellFormed := Hypergraph.wellFormed_empty.applyAll _
  have hstored : chained.graph.hasNode "a" = true := by decide
  have fits (id : NodeId) (node : Node) (level : Binary64) (h : chained.graph.nodes.find? id = some node) :
      Codec.node.ReadsBack (node.setActivation level) := by
    have all : ∀ node ∈ chained.graph.nodes.values, node.Fits := by decide +kernel
    exact Codec.readsBack_node ((all node (Table.mem_values_iff.2 ⟨id, h⟩)).setActivation level)
  have hcalls : ∀ call ∈ chained.calls (.propagate "a" .nan), call.2 = true := by decide +kernel
  obtain ⟨-, hsome⟩ := propagate_exact (ω := Unit) wellFormed "a" .nan
  obtain ⟨reached, s', hdone, -, -, hspread, hstore⟩ := hsome hstored
  obtain ⟨hheld, -, hfailures⟩ := hstore Store.Blobs.keeps fits hcalls
  have hreached : reached = NameSet.ofNames ["b", "c"] := by
    have hfirst : (chained.propagate "a" .nan).1 =
        some { source := "a", reached := NameSet.ofNames ["b", "c"], initial := .nan } := by rfl
    rw [hdone] at hfirst
    cases hfirst
    rfl
  subst hreached
  refine ⟨wellFormed, hstored, s', hdone, ?_, ?_, ?_, ?_, ?_, hfailures⟩
  · exact hspread.atSource _ rfl
  · exact hspread.elsewhere "d" (by decide) (by decide)
  · exact (hheld "c").trans (if_pos (by decide))
  · rw [hheld, if_neg (by decide)]
    decide +kernel
  · rw [hheld, if_neg (by decide)]
    decide +kernel

end Substrate

end ResonantGraph
