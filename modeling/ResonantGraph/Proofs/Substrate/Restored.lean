import ResonantGraph.Proofs.Store.Kept
import ResonantGraph.Proofs.Substrate.Loading

/-!
# Restoring brings the store in line

A restore puts a graph in place and goes on to make the store agree with it: it lists what is stored and
removes what the graph does not have, and then it saves all that the graph has. Any of these calls may
fail, and the verdict says whether one did (`Substrate.clean_restore`).

Where none did, nothing is left of what was stored before, not even what could never be read. The names of
the graph are all covered by the saves, the other names by the removals, and so the store holds the graph
(`Substrate.held_restore`). A load from a store that holds a well-formed graph, none of whose calls fails,
gives that graph, in whatever order and however often its elements are listed
(`Substrate.load_of_held`). `Substrate.restore_synchronises` is both, of every store.
-/

namespace ResonantGraph

open Store (Keeps Logged)

namespace Hypergraph

/-- The nodes of a graph as a store holds them. -/
def heldNodes (g : Hypergraph) : Table (Option Node) := g.nodes.mapValues fun _ => some

/-- The edges of a graph as a store holds them. -/
def heldEdges (g : Hypergraph) : Table (Option Edge) := g.edges.mapValues fun _ => some

end Hypergraph

namespace Store

variable {σ : Type} [Store σ]

/-- What a store lists and what it loads, as far as it answers, is what a graph has. -/
structure Presents (g : Hypergraph) (s : σ) : Prop where
  /-- Exactly the nodes of the graph are listed. -/
  listNodes : ∀ ids, (listNodes s).1 = .ok ids → ∀ id, id ∈ ids ↔ g.hasNode id = true
  /-- Exactly the edges of the graph are listed. -/
  listEdges : ∀ ids, (listEdges s).1 = .ok ids → ∀ id, id ∈ ids ↔ g.hasEdge id = true
  /-- A node loads as it is in the graph. -/
  loadNode : ∀ id found, (loadNode id s).1 = .ok found → found = g.nodes.find? id
  /-- An edge loads as it is in the graph. -/
  loadEdge : ∀ id found, (loadEdge id s).1 = .ok found → found = g.edges.find? id

variable {nodes : σ → Table (Option Node)} {edges : σ → Table (Option Edge)} {P : Node → Prop}
  {Q : Edge → Prop} {g : Hypergraph} {s : σ}

theorem Finds.eq_of_mapValues {α : Type} {t : Table α} {id : String} {found : Option α}
    (h : Finds id found (t.mapValues fun _ => some)) : found = t.find? id := by
  unfold Finds at h
  rw [Table.find?_mapValues] at h
  exact (Option.map_injective (fun _ _ => Option.some.inj) h).symm

theorem Names.mem_iff_of_mapValues {α : Type} {t : Table α} {ids : List String}
    (h : Names ids (t.mapValues fun _ => some)) (id : String) : id ∈ ids ↔ t.contains id = true := by
  rw [h id, Table.contains_mapValues]

/-- A store that holds a graph presents it. -/
theorem Keeps.presents (h : Keeps nodes edges P Q) (hnodes : nodes s = g.heldNodes)
    (hedges : edges s = g.heldEdges) : Presents g s where
  listNodes ids hids := by
    have names := (h.listNodes s ids hids).1
    rw [hnodes] at names
    exact names.mem_iff_of_mapValues
  listEdges ids hids := by
    have names := (h.listEdges s ids hids).1
    rw [hedges] at names
    exact names.mem_iff_of_mapValues
  loadNode id found hfound := by
    have finds := (h.loadNode id s found hfound).1
    rw [hnodes] at finds
    exact finds.eq_of_mapValues
  loadEdge id found hfound := by
    have finds := (h.loadEdge id s found hfound).1
    rw [hedges] at finds
    exact finds.eq_of_mapValues

end Store

namespace Substrate

variable {σ : Type} [Store σ]

/-! ### What a restore says -/

/-- A restore keeps the log of a watched store clean exactly if its verdict is `true`. -/
theorem clean_restore (t : Substrate (Logged σ)) (g : Hypergraph) :
    (t.restore g).2.store.Clean ↔ t.store.Clean ∧ (t.restore g).1 = true := by
  have saves (node : Node) : Logged.Noted (Store.saveNode node : Store.Call (Logged σ) Unit) :=
    Logged.noted_noted _ _
  have saves' (edge : Edge) : Logged.Noted (Store.saveEdge edge : Store.Call (Logged σ) Unit) :=
    Logged.noted_noted _ _
  have removes (id : NodeId) : Logged.Noted (Store.removeNode id : Store.Call (Logged σ) Bool) :=
    Logged.noted_noted _ _
  have removes' (id : EdgeId) : Logged.Noted (Store.removeEdge id : Store.Call (Logged σ) Bool) :=
    Logged.noted_noted _ _
  have lists : Logged.Noted (Store.listNodes : Store.Call (Logged σ) (List NodeId)) :=
    Logged.noted_noted _ _
  have lists' : Logged.Noted (Store.listEdges : Store.Call (Logged σ) (List EdgeId)) :=
    Logged.noted_noted _ _
  unfold restore saveCalls
  dsimp only
  rw [Store.attemptAll_append]
  dsimp only
  -- the saves come last, then the removal of nodes, then that of edges
  rw [Logged.clean_attemptAll saves', Logged.clean_attemptAll saves, Logged.clean_prune lists removes,
    Logged.clean_prune lists' removes']
  simp only [Bool.and_eq_true, and_assoc]

/-- The verdict of a restore is `true` exactly if none of its calls has failed. -/
theorem restore_iff_calls (s : Substrate σ) (g : Hypergraph) :
    (s.restore g).1 = true ↔ ∀ call ∈ s.calls (.restore g), call.2 = true := by
  have hsame : (s.logged.restore g).1 = (s.restore g).1 :=
    Answer.flag.inj (s.perform_logged (.restore g)).1
  have hclean : (∀ call ∈ s.calls (.restore g), call.2 = true) ↔
      s.logged.store.Clean ∧ (s.logged.restore g).1 = true :=
    clean_restore s.logged g
  rw [hclean, hsame]
  -- nothing is on the log before the restore
  exact (and_iff_right fun entry hentry => by cases hentry).symm

/-! ### What a restore leaves -/

section Kept

variable {nodes : σ → Table (Option Node)} {edges : σ → Table (Option Edge)} {P : Node → Prop}
  {Q : Edge → Prop} {g : Hypergraph}

/-- What pruning has left carries names of the graph only, so the graph covers it. -/
theorem filter_mergeWith_mapValues {α : Type} (t : Table (Option α)) (u : Table α) :
    (t.filter fun key _ => u.contains key).mergeWith (u.mapValues fun _ => some) =
      u.mapValues fun _ => some := by
  refine Table.mergeWith_eq_right fun key hkey => ?_
  have hnone : u.contains key = false := by
    rw [← Table.contains_mapValues u fun _ => some]
    exact Table.contains_eq_false_iff.2 hkey
  rw [Table.find?_filter, hnone]
  cases t.find? key <;> rfl

/-- A restore without a failed call leaves the graph in the store and nothing else. -/
theorem held_restore (keeps : Keeps nodes edges P Q) (hg : g.WellFormed)
    (every : g.Every (fun _ => P) fun _ => Q) {s : Substrate σ} (hdone : (s.restore g).1 = true) :
    nodes (s.restore g).2.store = g.heldNodes ∧ edges (s.restore g).2.store = g.heldEdges := by
  have saves : ∀ node ∈ g.nodes.values,
      Store.Writes nodes edges (node.id, some (some node)) (Store.saveNode node) := by
    intro node hnode
    obtain ⟨id, hid⟩ := Table.mem_values_iff.1 hnode
    exact keeps.saveNode node (every.nodes id node hid)
  have saves' : ∀ edge ∈ g.edges.values,
      Store.Writes edges nodes (edge.id, some (some edge)) (Store.saveEdge edge) := by
    intro edge hedge
    obtain ⟨id, hid⟩ := Table.mem_values_iff.1 hedge
    exact keeps.saveEdge edge (every.edges id edge hid)
  unfold restore saveCalls at hdone ⊢
  dsimp only at hdone ⊢
  rw [Store.attemptAll_append] at hdone ⊢
  dsimp only at hdone ⊢
  simp only [Bool.and_eq_true] at hdone
  obtain ⟨⟨hpruned, hpruned'⟩, hsaved, hsaved'⟩ := hdone
  -- four passes, of which each changes one of the tables
  obtain ⟨hedges₁, hnodes₁⟩ := Store.prune_filter keeps.listEdges keeps.removeEdge hpruned
  obtain ⟨hnodes₂, hedges₂⟩ := Store.prune_filter keeps.listNodes keeps.removeNode hpruned'
  obtain ⟨hnodes₃, hedges₃⟩ := Store.attemptAll_save saves hg.node_id hsaved
  obtain ⟨hedges₄, hnodes₄⟩ := Store.attemptAll_save saves' hg.edge_id hsaved'
  constructor
  · rw [hnodes₄, hnodes₃, hnodes₂]
    exact filter_mergeWith_mapValues _ g.nodes
  · rw [hedges₄, hedges₃, hedges₂, hedges₁]
    exact filter_mergeWith_mapValues _ g.edges

/-! ### Loading it again -/

/-- Where no call of a load has failed, there are two listings. -/
theorem exists_listings_of_clean {t : Substrate (Logged σ)} (hclean : t.load.2.store.Clean) :
    ∃ ids ids', (Store.listNodes t.store).1 = .ok ids ∧
      (Store.listEdges (Store.listNodes t.store).2).1 = .ok ids' := by
  have lists : Logged.Noted (Store.listNodes : Store.Call (Logged σ) (List NodeId)) :=
    Logged.noted_noted _ _
  have lists' : Logged.Noted (Store.listEdges : Store.Call (Logged σ) (List EdgeId)) :=
    Logged.noted_noted _ _
  rw [load_eq] at hclean
  dsimp only at hclean
  split at hclean
  · next ids ids' hids hids' => exact ⟨ids, ids', hids, hids'⟩
  · -- the load ended with the listings, and both are on the clean log
    obtain ⟨hfirst, hsecond⟩ := (lists' _).1 hclean
    obtain ⟨-, hfirst⟩ := (lists _).1 hfirst
    cases hids : (Store.listNodes t.store).1 with
    | error e => rw [hids] at hfirst; cases hfirst
    | ok ids =>
      cases hids' : (Store.listEdges (Store.listNodes t.store).2).1 with
      | error e => rw [hids'] at hsecond; cases hsecond
      | ok ids' => exact ⟨ids, ids', rfl, rfl⟩

theorem mem_filterMap_held {α : Type} {t : Table α} {ids : List String}
    (names : Store.Names ids (t.mapValues fun _ => some)) (v : α) :
    v ∈ ids.filterMap (fun id => ((t.mapValues fun _ => some).find? id).join) ↔ v ∈ t.values := by
  rw [List.mem_filterMap, Table.mem_values_iff]
  have hjoin (id : String) : ((t.mapValues fun _ => some).find? id).join = t.find? id := by
    rw [Table.find?_mapValues]
    cases t.find? id <;> rfl
  simp only [hjoin]
  -- what is found is listed
  refine exists_congr fun id => and_iff_right_of_imp fun hid => ?_
  exact (names.mem_iff_of_mapValues id).2 (Table.contains_iff.2 ⟨v, hid⟩)

/-- A load from a watched store that holds a well-formed graph and fails no call gives the graph. -/
theorem load_logged_of_held {nodes : Logged σ → Table (Option Node)}
    {edges : Logged σ → Table (Option Edge)} (keeps : Keeps nodes edges P Q) (hg : g.WellFormed)
    {t : Substrate (Logged σ)} (hnodes : nodes t.store = g.heldNodes)
    (hedges : edges t.store = g.heldEdges) (hclean : t.load.2.store.Clean) :
    t.load.1 = true ∧ t.load.2.graph = { g with sequence := t.graph.sequence } := by
  have loads (id : NodeId) : Logged.Noted (Store.loadNode id : Store.Call (Logged σ) (Option Node)) :=
    Logged.noted_noted _ _
  have loads' (id : EdgeId) : Logged.Noted (Store.loadEdge id : Store.Call (Logged σ) (Option Edge)) :=
    Logged.noted_noted _ _
  obtain ⟨ids, ids', hids, hids'⟩ := exists_listings_of_clean hclean
  obtain ⟨names, hlisted, hlisted'⟩ := keeps.listNodes t.store ids hids
  obtain ⟨names', hlistedEdges, hlistedNodes⟩ := keeps.listEdges _ ids' hids'
  obtain ⟨largest, hsequence⟩ := largestPart_load hids hids'
  rw [load_of_listed hids hids'] at hclean
  dsimp only at hclean
  -- the edges are loaded last, so what was loaded before was loaded without a failure too
  obtain ⟨hloaded', -, -, hclean⟩ := Logged.loadEach_of_clean loads' keeps.loadEdge hclean
  obtain ⟨hloaded, hkept, hkept', -⟩ := Logged.loadEach_of_clean loads keeps.loadNode hclean
  have part : g.LargestPart
      (Store.loadEach Store.loadNode ids (Store.listEdges (Store.listNodes t.store).2).2).1
      (Store.loadEach Store.loadEdge ids' (Store.loadEach Store.loadNode ids
        (Store.listEdges (Store.listNodes t.store).2).2).2).1 := by
    rw [hloaded, hloaded', hkept', hlistedEdges, hlistedNodes, hlisted, hlisted', hnodes, hedges]
    refine hg.largestPart (mem_filterMap_held ?_) (mem_filterMap_held ?_)
    · rw [hnodes] at names
      exact names
    · rw [hlisted', hedges] at names'
      exact names'
  obtain ⟨hn, he⟩ := largest.unique part
  refine ⟨by rw [load_of_listed hids hids'], ?_⟩
  generalize t.load.2.graph = loaded at hn he hsequence ⊢
  cases loaded
  dsimp only at hn he hsequence ⊢
  rw [hn, he, hsequence]

theorem load_of_held (keeps : Keeps nodes edges P Q) (hg : g.WellFormed) {t : Substrate σ}
    (hnodes : nodes t.store = g.heldNodes) (hedges : edges t.store = g.heldEdges)
    (hcalls : ∀ call ∈ t.calls .load, call.2 = true) :
    t.load.1 = true ∧ t.load.2.graph = { g with sequence := t.graph.sequence } := by
  obtain ⟨hanswer, hrelated⟩ := t.perform_logged .load
  have hsame : t.logged.load.1 = t.load.1 := Answer.flag.inj hanswer
  have hgraph : t.logged.load.2.graph = t.load.2.graph := hrelated.graph
  rw [← hsame, ← hgraph]
  exact load_logged_of_held keeps.logged hg (t := t.logged) hnodes hedges hcalls

end Kept

/-- **A restore synchronises the store**, whatever the store held and whichever calls fail. The live graph
is the one that was put in place, the count of failures stays, and the verdict is `true` exactly if none
of the calls has failed. Where it is, a store that is a map as far as its calls succeed holds the elements
of the graph under their identifiers and nothing else; it lists and loads just these; and a load that
follows, none of whose calls fails, succeeds and gives the graph. -/
theorem restore_synchronises (s : Substrate σ) {g : Hypergraph} (hg : g.WellFormed) :
    let restored := s.restore g
    restored.2.graph = g ∧ restored.2.mirrorFailures = s.mirrorFailures ∧
    (restored.1 = true ↔ ∀ call ∈ s.calls (.restore g), call.2 = true) ∧
    ∀ {nodes : σ → Table (Option Node)} {edges : σ → Table (Option Edge)} {P : Node → Prop}
      {Q : Edge → Prop}, Keeps nodes edges P Q → g.Every (fun _ => P) (fun _ => Q) →
      restored.1 = true →
      nodes restored.2.store = g.heldNodes ∧ edges restored.2.store = g.heldEdges ∧
      Store.Presents g restored.2.store ∧
      ((∀ call ∈ restored.2.calls .load, call.2 = true) →
        restored.2.load.1 = true ∧ restored.2.load.2.graph = g) := by
  intro restored
  refine ⟨rfl, rfl, s.restore_iff_calls g, ?_⟩
  intro nodes edges P Q keeps every hdone
  obtain ⟨hnodes, hedges⟩ := held_restore keeps hg every hdone
  refine ⟨hnodes, hedges, keeps.presents hnodes hedges, fun hcalls => ?_⟩
  -- the sequence of the live graph is that of the graph in place
  exact load_of_held keeps hg hnodes hedges hcalls

/-- Two nodes, an edge and a drawn number. -/
def replaced : Hypergraph :=
  Hypergraph.applyAll ∅
    [.addNode { id := "a" }, .addNode { id := "b" },
      .addEdge { id := "e", members := NameSet.ofNames ["a", "b"] }, .nextSequence]

/-- A store of bytes with a node that is due to go, bytes that are no node under a name that is due to
stay, and bytes that are no edge. -/
def cluttered : Substrate Store.Blobs where
  graph := Hypergraph.apply ∅ (.addNode { id := "old" })
  store :=
    { nodes := Table.ofList [("b", [0xff]), ("old", Codec.node.write { id := "old" })]
      edges := Table.ofList [("x", [0x01])] }
  mirrorFailures := 3

/-- `restore_synchronises` on a cluttered store of bytes. -/
theorem restore_synchronises_cluttered :
    (cluttered.restore replaced).1 = true ∧
      Store.Presents replaced (cluttered.restore replaced).2.store ∧
      (cluttered.restore replaced).2.load.1 = true ∧
      (cluttered.restore replaced).2.load.2.graph = replaced := by
  have wellFormed : replaced.WellFormed := Hypergraph.wellFormed_empty.applyAll _
  have every : replaced.Every (fun _ => Node.Fits) fun _ => Edge.Fits := by
    refine Hypergraph.Every.empty.applyAll (fun _ _ _ h => h.setActivation _) fun c hc => ?_
    simp only [List.mem_cons, List.not_mem_nil, or_false] at hc
    rcases hc with rfl | rfl | rfl | rfl
    · exact (by decide : Node.Fits { id := "a" })
    · exact (by decide : Node.Fits { id := "b" })
    · exact (by decide : Edge.Fits { id := "e", members := NameSet.ofNames ["a", "b"] })
    · trivial
  obtain ⟨-, -, -, synchronised⟩ := restore_synchronises cluttered wellFormed
  have hdone : (cluttered.restore replaced).1 = true := by rfl
  obtain ⟨-, -, presents, loads⟩ := synchronised Store.Blobs.keeps
    ⟨fun id node h => Codec.readsBack_node (every.nodes id node h),
      fun id edge h => Codec.readsBack_edge (every.edges id edge h)⟩ hdone
  have hcalls : ∀ call ∈ (cluttered.restore replaced).2.calls .load, call.2 = true := by
    decide +kernel
  exact ⟨hdone, presents, loads hcalls⟩

end Substrate

end ResonantGraph
