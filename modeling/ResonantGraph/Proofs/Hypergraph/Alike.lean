import ResonantGraph.Hypergraph.Metrics
import ResonantGraph.Proofs.Hypergraph.WellFormed
import Mathlib.Data.List.Nodup

/-!
# Graphs that are alike up to numbers

Some edges have identifiers that end in a number, which says when they were added and nothing else. Two
graphs are *alike* if they have the same nodes and, those numbers apart, the same edges
(`Hypergraph.Alike`). They may keep their edges in different orders.

Whatever looks at the members of edges and not at their identifiers finds the same in graphs that are
alike: who is joined to whom (`Alike.connected`), what is in reach (`Alike.reachable`), and the figures
about a node (`Alike.nodeMetrics`). A change that adds nodes or spreads activation keeps graphs alike, and
so does one that adds edges which are the same but for their numbers, if neither edge is refused
(`Alike.addEdge`).
-/

namespace ResonantGraph

namespace Table

variable {α : Type}

theorem nodup_entries (t : Table α) : t.entries.Nodup := by
  have hkeys : t.keys.Nodup := t.nodup_keys
  exact List.Nodup.of_map _ hkeys

/-- A new entry comes in somewhere among the others. -/
theorem values_insert_perm {t : Table α} {name : String} (h : t.contains name = false) (value : α) :
    (t.insert name value).values.Perm (value :: t.values) := by
  have habsent := contains_eq_false_iff.1 h
  have hnew : ((name, value) :: t.entries).Nodup := by
    refine List.nodup_cons.2 ⟨fun hmem => ?_, t.nodup_entries⟩
    rw [mem_entries_iff, habsent] at hmem
    cases hmem
  have hentries : (t.insert name value).entries.Perm ((name, value) :: t.entries) := by
    refine (List.perm_ext_iff_of_nodup (nodup_entries _) hnew).2 fun e => ?_
    obtain ⟨key, v⟩ := e
    rw [mem_entries_iff, find?_insert, List.mem_cons, mem_entries_iff, Prod.mk.injEq]
    by_cases hkey : name = key
    · subst hkey
      rw [if_pos rfl, habsent, Option.some.injEq]
      constructor
      · exact fun heq => .inl ⟨rfl, heq.symm⟩
      · rintro (⟨-, rfl⟩ | hnone)
        · rfl
        · cases hnone
    · rw [if_neg hkey]
      exact ⟨.inr, fun hor => hor.resolve_left fun heq => hkey heq.1.symm⟩
  exact hentries.map _

end Table

/-- A set of different names is as large as their list. -/
theorem NameSet.size_ofNames {l : List String} (h : l.Nodup) : (ofNames l).size = l.length := by
  have hperm : (ofNames l).names.Perm l :=
    (List.perm_ext_iff_of_nodup (nodup_names _) h).2 fun name => by rw [mem_names, mem_ofNames]
  have hsize : (ofNames l).names.length = (ofNames l).size := List.length_map ..
  rw [← hsize, hperm.length_eq]

/-! ### Edges without their numbers -/

/-- The types of edges that have a number at the end of their identifiers. -/
def numberedTypes : List String := ["contains_words", "attribute_cluster", "similarity"]

/-- An identifier without the digits at its end. -/
def withoutNumber (id : String) : String :=
  String.ofList (id.toList.reverse.dropWhile Char.isDigit).reverse

/-- An edge without the number of its identifier, if it is of a type that has one. -/
def Edge.unnumbered (edge : Edge) : Edge :=
  if ∃ type ∈ numberedTypes, edge.attributes.find? "type" = some type then
    { edge with id := withoutNumber edge.id }
  else edge

@[simp] theorem Edge.members_unnumbered (edge : Edge) : edge.unnumbered.members = edge.members := by
  unfold unnumbered
  split <;> rfl

/-- Of a name that digits follow, the name is left. -/
theorem withoutNumber_append {id name : String} {digits : List Char} {c : Char} {front : List Char}
    (hid : id.toList = name.toList ++ digits) (hname : name.toList = front ++ [c])
    (hc : c.isDigit = false) (hdigits : ∀ d ∈ digits, d.isDigit = true) : withoutNumber id = name := by
  have hreverse : id.toList.reverse = digits.reverse ++ (c :: front.reverse) := by
    rw [hid, hname, List.reverse_append, List.reverse_append]
    rfl
  have hdrop : id.toList.reverse.dropWhile Char.isDigit = c :: front.reverse := by
    rw [hreverse, List.dropWhile_append_of_pos fun d hd => hdigits d (List.mem_reverse.1 hd),
      List.dropWhile_cons_of_neg (by rw [hc]; exact Bool.false_ne_true)]
  have hback : (c :: front.reverse).reverse = name.toList := by
    rw [List.reverse_cons, List.reverse_reverse, hname]
  unfold withoutNumber
  rw [hdrop, hback, String.ofList_toList]

namespace Hypergraph

/-- The same nodes, and the same edges but for the numbers of identifiers. -/
structure Alike (g g' : Hypergraph) : Prop where
  /-- The nodes are the same. -/
  nodes : g'.nodes = g.nodes
  /-- The edges are, in some order, the same but for their numbers. -/
  edges : (g'.edges.values.map Edge.unnumbered).Perm (g.edges.values.map Edge.unnumbered)

namespace Alike

variable {g g' : Hypergraph}

theorem refl (g : Hypergraph) : g.Alike g := ⟨rfl, .refl _⟩

theorem symm (h : g.Alike g') : g'.Alike g := ⟨h.nodes.symm, h.edges.symm⟩

/-! ### What looks at members only -/

theorem hasNode (h : g.Alike g') (id : NodeId) : g'.hasNode id = g.hasNode id := by
  unfold Hypergraph.hasNode
  rw [h.nodes]

theorem size_edges (h : g.Alike g') : g'.edges.size = g.edges.size := by
  have hlength := h.edges.length_eq
  rw [List.length_map, List.length_map] at hlength
  have hsize (t : Table Edge) : t.values.length = t.size := List.length_map ..
  rw [← hsize, ← hsize, hlength]

theorem exists_members (h : g.Alike g') {p : NameSet → Prop}
    (hp : ∃ key edge, g.edges.find? key = some edge ∧ p edge.members) :
    ∃ key edge, g'.edges.find? key = some edge ∧ p edge.members := by
  obtain ⟨key, edge, hedge, hmembers⟩ := hp
  have hmem : edge.unnumbered ∈ g'.edges.values.map Edge.unnumbered := by
    rw [h.edges.mem_iff]
    exact List.mem_map_of_mem (Table.mem_values_iff.2 ⟨key, hedge⟩)
  obtain ⟨edge', hedge', heq⟩ := List.mem_map.1 hmem
  obtain ⟨key', hkey'⟩ := Table.mem_values_iff.1 hedge'
  refine ⟨key', edge', hkey', ?_⟩
  rwa [← Edge.members_unnumbered, heq, Edge.members_unnumbered]

theorem connected (h : g.Alike g') (id : NodeId) : g'.connected id = g.connected id := by
  refine NameSet.ext_mem fun other => ?_
  rw [mem_connected, mem_connected]
  refine and_congr_right fun _ => ⟨fun hjoined => ?_, fun hjoined => ?_⟩
  · exact h.symm.exists_members (p := fun members => id ∈ members ∧ other ∈ members) hjoined
  · exact h.exists_members (p := fun members => id ∈ members ∧ other ∈ members) hjoined

theorem searchFrom (h : g.Alike g') (rounds : Nat) (seen last : NameSet) :
    g'.searchFrom rounds seen last = g.searchFrom rounds seen last := by
  have hround (ids : NameSet) : g'.connectedToAny ids = g.connectedToAny ids := by
    unfold connectedToAny
    rw [funext h.connected]
  induction rounds generalizing seen last with
  | zero => rfl
  | succ rounds ih =>
    unfold Hypergraph.searchFrom
    dsimp only
    rw [hround]
    split
    · rfl
    · exact ih _ _

theorem reachable (h : g.Alike g') (source : NodeId) (hops : Nat) :
    g'.reachable source hops = g.reachable source hops := by
  unfold Hypergraph.reachable
  dsimp only
  rw [h.hasNode, h.searchFrom]

/-! ### Changes that keep graphs alike -/

theorem addNode (h : g.Alike g') (node : Node) : (g.addNode node).2.Alike (g'.addNode node).2 where
  nodes := by
    unfold Hypergraph.addNode
    rw [h.hasNode]
    split
    · exact h.nodes
    · rw [nodes_putNode, nodes_putNode, h.nodes]
  edges := by
    rw [edges_addNode, edges_addNode]
    exact h.edges

theorem propagate (h : g.Alike g') (source : NodeId) (initial : Binary64) :
    (g.propagate source initial).2.Alike (g'.propagate source initial).2 where
  nodes := by
    unfold Hypergraph.propagate
    rw [h.hasNode, h.reachable]
    split
    · exact congrArg (Table.mapValues · _) h.nodes
    · exact h.nodes
  edges := by
    rw [edges_propagate, edges_propagate]
    exact h.edges

/-- Two edges that are the same but for their numbers come in on both sides, if there is room. -/
theorem addEdge (h : g.Alike g') {edge edge' : Edge} (hedge : edge.unnumbered = edge'.unnumbered)
    (vacant : g.hasEdge edge.id = false) (vacant' : g'.hasEdge edge'.id = false) :
    (g.addEdge edge).2.Alike (g'.addEdge edge').2 := by
  have hmembers : edge'.members = edge.members := by
    rw [← Edge.members_unnumbered edge', ← hedge, Edge.members_unnumbered]
  have hmissing : g'.missingMember? edge' = g.missingMember? edge := by
    unfold missingMember?
    rw [hmembers, funext h.hasNode]
  unfold Hypergraph.addEdge putEdge
  rw [vacant, vacant', hmissing, if_neg Bool.false_ne_true, if_neg Bool.false_ne_true]
  cases g.missingMember? edge with
  | some id => exact h
  | none =>
    refine ⟨h.nodes, ?_⟩
    have hnew := (Table.values_insert_perm vacant edge).map Edge.unnumbered
    have hnew' := (Table.values_insert_perm vacant' edge').map Edge.unnumbered
    refine hnew'.trans (.trans ?_ hnew.symm)
    rw [List.map_cons, List.map_cons, hedge]
    exact h.edges.cons _

/-! ### Figures -/

/-- Where edges are filed under their own identifiers, a node has as many incident identifiers as there
are edges that join it. -/
theorem size_incident (hg : g.WellFormed) (id : NodeId) :
    (g.incident id).size =
      ((g.edges.values.map Edge.unnumbered).filter fun edge => id ∈ edge.members).length := by
  have hids : ((g.edgesAt id).map (·.id)).Nodup :=
    (Table.nodup_map_values hg.edge_id).sublist (List.filter_sublist.map _)
  unfold incident
  rw [NameSet.size_ofNames hids, List.length_map, List.filter_map, List.length_map]
  have hsame : (fun edge : Edge => decide (id ∈ edge.members)) ∘ Edge.unnumbered =
      fun edge => decide (id ∈ edge.members) :=
    funext fun edge => by rw [Function.comp_apply, Edge.members_unnumbered]
  rw [hsame]
  rfl

theorem incident_size (h : g.Alike g') (hg : g.WellFormed) (hg' : g'.WellFormed) (id : NodeId) :
    (g'.incident id).size = (g.incident id).size := by
  rw [size_incident hg, size_incident hg']
  exact (h.edges.filter _).length_eq

theorem clusteringCoefficient (h : g.Alike g') (id : NodeId) :
    g'.clusteringCoefficient id = g.clusteringCoefficient id := by
  have hclosed (ids : List NodeId) : g'.closedPairs ids = g.closedPairs ids := by
    induction ids with
    | nil => rfl
    | cons u rest ih => rw [closedPairs, closedPairs, h.connected, ih]
  unfold Hypergraph.clusteringCoefficient
  rw [h.connected]
  dsimp only
  rw [hclosed]

theorem density (h : g.Alike g') : g'.density = g.density := by
  unfold Hypergraph.density
  rw [h.nodes, h.size_edges]

/-- **The figures about a node are the same** in well-formed graphs that are alike. -/
theorem nodeMetrics (h : g.Alike g') (hg : g.WellFormed) (hg' : g'.WellFormed) (id : NodeId) :
    g'.nodeMetrics id = g.nodeMetrics id := by
  have hactivation : g'.activation id = g.activation id := by
    unfold activation
    rw [h.nodes]
  unfold Hypergraph.nodeMetrics
  dsimp only
  rw [h.connected, h.incident_size hg hg', h.clusteringCoefficient, hactivation]

end Alike

end Hypergraph

end ResonantGraph
