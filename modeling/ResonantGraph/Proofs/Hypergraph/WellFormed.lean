import ResonantGraph.Proofs.Hypergraph.Change

/-!
# Well-formed graphs

A graph is well formed when its entries are filed under their own identifiers, every member of every
edge is a stored node, and every activation is clamped. Changes keep it so, whatever they bring in
(`WellFormed.applyAll`), and every well-formed graph can be built up from the empty one: nodes first,
then edges, then numbers of the sequence (`exists_applyAll_eq`).

The second half rests on what adding a list of elements comes to. Of several nodes with one
identifier the first is taken (`find?_nodes_addNodes`), and of several edges with one identifier the
first whose members are stored (`find?_edges_addEdges`).
-/

namespace ResonantGraph

namespace Table

variable {α : Type}

/-- Looking among the values of a table for the one with a given identifier is a lookup, where the
values are filed under their own identifiers. It does not matter how they are listed. -/
theorem find?_listing {t : Table α} {idOf : α → String}
    (filed : ∀ key v, t.find? key = some v → idOf v = key) {l : List α}
    (hl : ∀ v, v ∈ l ↔ v ∈ t.values) (p : α → Bool) (id : String) :
    (l.find? fun v => decide (idOf v = id) && p v) = (t.find? id).filter p := by
  have lookup {v : α} (hv : v ∈ l) : t.find? (idOf v) = some v := by
    obtain ⟨key, hkey⟩ := mem_values_iff.1 ((hl v).1 hv)
    rw [filed key v hkey]
    exact hkey
  cases h : l.find? fun v => decide (idOf v = id) && p v with
  | some v =>
    -- what is found carries the identifier, so it is filed under it
    have hp := List.find?_some h
    rw [Bool.and_eq_true, decide_eq_true_eq] at hp
    rw [← hp.1, lookup (List.mem_of_find?_eq_some h), Option.filter_some, if_pos hp.2]
  | none =>
    -- what is filed under the identifier is among the values, so it would have been found
    rw [List.find?_eq_none] at h
    symm
    rw [Option.filter_eq_none_iff]
    intro v hv hp
    refine h v ((hl v).2 (mem_values_iff.2 ⟨id, hv⟩)) ?_
    rw [filed id v hv, decide_eq_true rfl, hp]
    rfl

/-- The values of a table are a listing of them. -/
theorem find?_values {t : Table α} {idOf : α → String}
    (filed : ∀ key v, t.find? key = some v → idOf v = key) (p : α → Bool) (id : String) :
    (t.values.find? fun v => decide (idOf v = id) && p v) = (t.find? id).filter p :=
  find?_listing filed (fun _ => Iff.rfl) p id

/-- Values that are filed under their own identifiers have different ones. -/
theorem nodup_map_values {t : Table α} {idOf : α → String}
    (filed : ∀ key v, t.find? key = some v → idOf v = key) : (t.values.map idOf).Nodup := by
  have hkeys : t.values.map idOf = t.keys := by
    unfold values keys
    rw [List.map_map]
    exact List.map_congr_left fun e he => filed e.1 e.2 (mem_entries_iff.1 he)
  rw [hkeys]
  exact t.nodup_keys

end Table

/-- One step and then some are as many steps and one. -/
theorem add_one_add_ofNat (x : UInt64) (n : Nat) :
    x + 1 + UInt64.ofNat n = x + UInt64.ofNat (n + 1) :=
  calc x + 1 + UInt64.ofNat n
      _ = x + (UInt64.ofNat n + 1) := by rw [UInt64.add_assoc, UInt64.add_comm 1]
      _ = x + UInt64.ofNat (n + 1) := by rw [UInt64.ofNat_add]; rfl

namespace Hypergraph

variable {g : Hypergraph}

/-! ### Well-formedness -/

/-- Entries are filed under their own identifiers, members are stored and activations clamped. -/
structure WellFormed (g : Hypergraph) : Prop where
  /-- A node is filed under its own identifier. -/
  node_id : ∀ key node, g.nodes.find? key = some node → node.id = key
  /-- An edge is filed under its own identifier. -/
  edge_id : ∀ key edge, g.edges.find? key = some edge → edge.id = key
  /-- Every member of every edge is a stored node. -/
  members : g.MembersStored
  /-- No activation is below zero or no number. -/
  clamped : ∀ key node, g.nodes.find? key = some node → node.activation.clamp = node.activation

theorem WellFormed.every (h : g.WellFormed) :
    g.Every (fun key node => node.id = key ∧ node.activation.clamp = node.activation)
      fun key edge => edge.id = key where
  nodes := fun key node hn => ⟨h.node_id key node hn, h.clamped key node hn⟩
  edges := h.edge_id

theorem wellFormed_empty : WellFormed ∅ where
  node_id := fun _ _ h => by cases h
  edge_id := fun _ _ h => by cases h
  members := membersStored_empty
  clamped := fun _ _ h => by cases h

/-- **Changes keep a graph well formed.** -/
theorem WellFormed.applyAll (h : g.WellFormed) (cs : List Change) : (g.applyAll cs).WellFormed := by
  have brings : ∀ c ∈ cs, c.Brings
      (fun key node => node.id = key ∧ node.activation.clamp = node.activation)
      fun key edge => edge.id = key := by
    intro c _
    cases c <;> first | exact ⟨rfl, Binary64.clamp_clamp _⟩ | exact rfl | exact trivial
  have every := h.every.applyAll
    (fun _ node level hn => ⟨hn.1, Binary64.clamp_clamp level⟩) brings
  exact {
    node_id := fun key node hn => (every.nodes key node hn).1
    edge_id := every.edges
    members := h.members.applyAll (fun key edge he _ => h.edge_id key edge he) cs
    clamped := fun key node hn => (every.nodes key node hn).2 }

theorem hasNode_propagate (g : Hypergraph) (source : NodeId) (initial : Binary64) (id : NodeId) :
    (g.propagate source initial).2.hasNode id = g.hasNode id := by
  unfold propagate
  split
  · unfold hasNode Table.contains
    rw [Table.find?_mapValues, Option.isSome_map]
  · rfl

/-- Nodes are listed with their own identifiers, which are those that they are filed under. -/
theorem WellFormed.mem_nodesWithAttribute {g : Hypergraph} (h : g.WellFormed) {key value : String} {id : NodeId} :
    id ∈ g.nodesWithAttribute key value ↔
      ∃ node, g.nodes.find? id = some node ∧ node.attributes.find? key = some value := by
  unfold nodesWithAttribute
  rw [List.mem_map]
  constructor
  · rintro ⟨node, hnode, rfl⟩
    obtain ⟨hvalue, hattribute⟩ := List.mem_filter.1 hnode
    obtain ⟨name, hname⟩ := Table.mem_values_iff.1 hvalue
    exact ⟨node, by rw [h.node_id name node hname, hname], of_decide_eq_true hattribute⟩
  · rintro ⟨node, hnode, hattribute⟩
    exact ⟨node, List.mem_filter.2 ⟨Table.mem_values_iff.2 ⟨id, hnode⟩, decide_eq_true hattribute⟩,
      h.node_id id node hnode⟩

/-- No node is listed twice. -/
theorem WellFormed.nodup_nodesWithAttribute {g : Hypergraph} (h : g.WellFormed) (key value : String) :
    (g.nodesWithAttribute key value).Nodup :=
  (Table.nodup_map_values h.node_id).sublist (List.filter_sublist.map _)

/-! ### Adding lists of elements -/

theorem find?_nodes_addNode (g : Hypergraph) (node : Node) (id : NodeId) :
    (g.addNode node).2.nodes.find? id =
      (g.nodes.find? id).or (if node.id = id then some node.clamped else none) := by
  unfold addNode hasNode
  cases h : g.nodes.contains node.id with
  | true =>
    -- the identifier is taken, by the node that is found under it
    obtain ⟨old, hold⟩ := Table.contains_iff.1 h
    by_cases hid : node.id = id
    · subst hid; simp [hold]
    · simp [hid]
  | false =>
    have hnone := Table.contains_eq_false_iff.1 h
    rw [if_neg Bool.false_ne_true, nodes_putNode, Table.find?_insert]
    by_cases hid : node.id = id
    · subst hid; simp [hnone]
    · simp [hid]

theorem edges_addNode (g : Hypergraph) (node : Node) : (g.addNode node).2.edges = g.edges := by
  unfold addNode
  split <;> rfl

theorem sequence_addNode (g : Hypergraph) (node : Node) :
    (g.addNode node).2.sequence = g.sequence := by
  unfold addNode
  split <;> rfl

/-- Of several nodes with one identifier the first is added, unless the identifier is taken. -/
theorem find?_nodes_addNodes (g : Hypergraph) (nodes : List Node) (id : NodeId) :
    (g.applyAll (nodes.map .addNode)).nodes.find? id =
      (g.nodes.find? id).or ((nodes.find? fun node => node.id = id).map Node.clamped) := by
  induction nodes generalizing g with
  | nil => simp
  | cons node nodes ih =>
    rw [List.map_cons, applyAll_cons, ih]
    change ((g.addNode node).2.nodes.find? id).or _ = _
    rw [find?_nodes_addNode, Option.or_assoc, List.find?_cons]
    by_cases hid : node.id = id <;> simp [hid]

theorem edges_addNodes (g : Hypergraph) (nodes : List Node) :
    (g.applyAll (nodes.map .addNode)).edges = g.edges := by
  induction nodes generalizing g with
  | nil => rfl
  | cons node nodes ih => exact (ih (g.addNode node).2).trans (g.edges_addNode node)

theorem sequence_addNodes (g : Hypergraph) (nodes : List Node) :
    (g.applyAll (nodes.map .addNode)).sequence = g.sequence := by
  induction nodes generalizing g with
  | nil => rfl
  | cons node nodes ih => exact (ih (g.addNode node).2).trans (g.sequence_addNode node)

/-- Adding an edge leaves the nodes and the sequence alone. -/
theorem nodes_addEdge (g : Hypergraph) (edge : Edge) :
    (g.addEdge edge).2.nodes = g.nodes ∧ (g.addEdge edge).2.sequence = g.sequence := by
  unfold addEdge
  split
  · exact ⟨rfl, rfl⟩
  · rcases g.putEdge_cases edge with h | ⟨-, h⟩ <;> rw [h] <;> exact ⟨rfl, rfl⟩

theorem nodes_addEdges (g : Hypergraph) (edges : List Edge) :
    (g.applyAll (edges.map .addEdge)).nodes = g.nodes ∧
      (g.applyAll (edges.map .addEdge)).sequence = g.sequence := by
  induction edges generalizing g with
  | nil => exact ⟨rfl, rfl⟩
  | cons edge edges ih =>
    obtain ⟨hnodes, hsequence⟩ := ih (g.addEdge edge).2
    exact ⟨hnodes.trans (g.nodes_addEdge edge).1, hsequence.trans (g.nodes_addEdge edge).2⟩

theorem missingMember?_congr {g g' : Hypergraph} (h : g.nodes = g'.nodes) (edge : Edge) :
    g.missingMember? edge = g'.missingMember? edge := by
  unfold missingMember? hasNode
  rw [h]

theorem find?_edges_addEdge (g : Hypergraph) (edge : Edge) (id : EdgeId) :
    (g.addEdge edge).2.edges.find? id =
      (g.edges.find? id).or
        (if edge.id = id ∧ g.missingMember? edge = none then some edge else none) := by
  unfold addEdge hasEdge
  cases h : g.edges.contains edge.id with
  | true =>
    -- the identifier is taken, by the edge that is found under it
    obtain ⟨old, hold⟩ := Table.contains_iff.1 h
    by_cases hid : edge.id = id
    · subst hid; simp [hold]
    · simp [hid]
  | false =>
    have hnone := Table.contains_eq_false_iff.1 h
    rw [if_neg Bool.false_ne_true]
    unfold putEdge
    cases g.missingMember? edge with
    | some missing => simp
    | none =>
      rw [Table.find?_insert]
      by_cases hid : edge.id = id
      · subst hid; simp [hnone]
      · simp [hid]

/-- Of several edges with one identifier the first whose members are stored is added, unless the
identifier is taken. -/
theorem find?_edges_addEdges (g : Hypergraph) (edges : List Edge) (id : EdgeId) :
    (g.applyAll (edges.map .addEdge)).edges.find? id =
      (g.edges.find? id).or
        (edges.find? fun edge => decide (edge.id = id) && (g.missingMember? edge).isNone) := by
  induction edges generalizing g with
  | nil => simp
  | cons edge edges ih =>
    rw [List.map_cons, applyAll_cons, ih]
    -- the nodes do not change on the way, so it does not matter when members are looked for
    have hmissing (e : Edge) : (g.addEdge edge).2.missingMember? e = g.missingMember? e :=
      missingMember?_congr (g.nodes_addEdge edge).1 e
    change ((g.addEdge edge).2.edges.find? id).or
      (edges.find? fun e => decide (e.id = id) && ((g.addEdge edge).2.missingMember? e).isNone) = _
    simp only [hmissing]
    rw [find?_edges_addEdge, Option.or_assoc, List.find?_cons]
    cases g.missingMember? edge <;> by_cases hid : edge.id = id <;> simp [hid]

/-! ### Building a graph up -/

/-- What filling the empty graph from two tables comes to. -/
theorem addValues_eq (g : Hypergraph) {nodes : Table Node} {edges : Table Edge}
    (node_id : ∀ key node, nodes.find? key = some node → node.id = key)
    (edge_id : ∀ key edge, edges.find? key = some edge → edge.id = key) :
    (g.clear.applyAll (nodes.values.map .addNode)).applyAll (edges.values.map .addEdge) =
      { nodes := nodes.mapValues fun _ node => node.clamped
        edges := edges.filter fun _ edge => edge.members.names.all nodes.contains
        sequence := g.sequence } := by
  have hnodes : (g.clear.applyAll (nodes.values.map .addNode)).nodes =
      nodes.mapValues fun _ node => node.clamped := by
    refine Table.ext_find? fun id => ?_
    have hfind := Table.find?_values node_id (fun _ => true) id
    have htrue : (nodes.find? id).filter (fun _ => true) = nodes.find? id := by
      cases nodes.find? id <;> rfl
    simp only [Bool.and_true, htrue] at hfind
    rw [find?_nodes_addNodes, Table.find?_mapValues, hfind]
    rfl
  -- whether the members of an edge are stored shows in the table of nodes, filled or not
  have hstored (edge : Edge) :
      ((g.clear.applyAll (nodes.values.map .addNode)).missingMember? edge).isNone =
        edge.members.names.all nodes.contains := by
    rw [Bool.eq_iff_iff, Option.isNone_iff_eq_none, missingMember?_eq_none_iff, List.all_eq_true]
    unfold hasNode Table.contains
    rw [hnodes]
    simp only [NameSet.mem_names, Table.find?_mapValues, Option.isSome_map]
  have hedges : ((g.clear.applyAll (nodes.values.map .addNode)).applyAll
      (edges.values.map .addEdge)).edges =
      edges.filter fun _ edge => edge.members.names.all nodes.contains := by
    refine Table.ext_find? fun id => ?_
    rw [find?_edges_addEdges, Table.find?_filter, edges_addNodes]
    simp only [hstored]
    rw [Table.find?_values edge_id, edges_clear, Table.find?_empty, Option.none_or]
  -- the edges leave the nodes alone, and nothing draws from the sequence
  have hrest := (g.clear.applyAll (nodes.values.map .addNode)).nodes_addEdges edges.values
  rw [sequence_addNodes, hnodes] at hrest
  generalize (g.clear.applyAll (nodes.values.map .addNode)).applyAll
    (edges.values.map .addEdge) = filled at hedges hrest ⊢
  cases filled
  simp_all

theorem MembersStored.all_contains (h : g.MembersStored) {id : EdgeId} {edge : Edge}
    (hedge : g.edges.find? id = some edge) :
    edge.members.names.all g.nodes.contains = true := by
  rw [List.all_eq_true]
  exact fun member hmember => h id edge hedge member (NameSet.mem_names.1 hmember)

theorem WellFormed.mapValues_clamped (h : g.WellFormed) :
    (g.nodes.mapValues fun _ node => node.clamped) = g.nodes := by
  refine Table.ext_find? fun id => ?_
  rw [Table.find?_mapValues]
  cases hid : g.nodes.find? id with
  | none => rfl
  | some node => rw [Option.map_some, Node.clamped_eq_self_iff.2 (h.clamped id node hid)]

/-- The elements of a well-formed graph, added one after the other, make up its tables. -/
theorem WellFormed.addValues (h : g.WellFormed) (g' : Hypergraph) :
    (g'.clear.applyAll (g.nodes.values.map .addNode)).applyAll (g.edges.values.map .addEdge) =
      { g with sequence := g'.sequence } := by
  have hedges : (g.edges.filter fun _ edge => edge.members.names.all g.nodes.contains) =
      g.edges := by
    refine Table.ext_find? fun id => ?_
    rw [Table.find?_filter]
    cases hid : g.edges.find? id with
    | none => rfl
    | some edge =>
      rw [Option.filter_some, if_pos (h.members.all_contains hid)]
  rw [addValues_eq g' h.node_id h.edge_id, h.mapValues_clamped, hedges]

theorem applyAll_nextSequence (g : Hypergraph) (n : Nat)
    (h : g.sequence.toNat + n < UInt64.size) :
    g.applyAll (List.replicate n .nextSequence) =
      { g with sequence := g.sequence + UInt64.ofNat n } := by
  induction n generalizing g with
  | zero =>
    have hzero : g.sequence + UInt64.ofNat 0 = g.sequence := UInt64.add_zero _
    rw [hzero]
    rfl
  | succ n ih =>
    -- short of the greatest word, drawing a number adds one
    have hlast : g.sequence ≠ -1 := by
      intro hlast
      have hword : g.sequence.toNat = UInt64.size - 1 := by rw [hlast]; rfl
      omega
    have hnext : g.apply .nextSequence = { g with sequence := g.sequence + 1 } := by
      change { g with sequence := if g.sequence = -1 then g.sequence else g.sequence + 1 } = _
      rw [if_neg hlast]
    have hroom : (g.sequence + 1).toNat = g.sequence.toNat + 1 := by
      have hlt : g.sequence.toNat + 1 < UInt64.size := by omega
      rw [UInt64.toNat_add, UInt64.toNat_one]
      exact Nat.mod_eq_of_lt hlt
    rw [List.replicate_succ, applyAll_cons, hnext, ih _ (by dsimp only; omega)]
    dsimp only
    rw [add_one_add_ofNat]

/-- Every well-formed graph is what some changes make of the empty one. -/
theorem WellFormed.exists_applyAll_eq (h : g.WellFormed) : ∃ cs, Hypergraph.applyAll ∅ cs = g := by
  refine ⟨g.nodes.values.map .addNode ++ g.edges.values.map .addEdge ++
    List.replicate g.sequence.toNat .nextSequence, ?_⟩
  -- the sequence of the empty graph starts at zero, so as many draws lead to any word
  have hword : (0 : UInt64).toNat + g.sequence.toNat < UInt64.size := by
    rw [UInt64.toNat_zero, Nat.zero_add]
    exact g.sequence.toNat_lt
  rw [applyAll_append, applyAll_append, show (∅ : Hypergraph) = clear ∅ from rfl, h.addValues ∅,
    applyAll_nextSequence _ _ hword]
  change { g with sequence := 0 + UInt64.ofNat g.sequence.toNat } = g
  rw [UInt64.zero_add, UInt64.ofNat_toNat]

end Hypergraph

end ResonantGraph
