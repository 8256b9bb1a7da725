import ResonantGraph.Proofs.Mapper.Origin

/-!
# The structure that records leave

Of records that do not name their flows, each adds nodes and edges of its own, whatever was mapped before:
the content, its words and those of its attributes that have no node at the beginning, and what joins these.
Nodes that two records have in common are words, and are the same for both. So what is there after several
records can be listed, nodes by `Mapper.nodes_mapAll` and edges by `Mapper.structuralEdges_mapAll`, and does
not depend on their order (`Mapper.sameStructure_mapAll`).

This leaves out activations, the numbers of identifiers, and the edges among similar contents, which do
depend on the order.
-/

namespace ResonantGraph

open Operation (nextAll edgesOf nodesOf)

/-- Where entries are told apart by their keys, it does not matter how they are listed. -/
theorem find?_key_perm {α : Type} {key : α → String} {l l' : List α} (h : l.Perm l')
    (apart : ∀ a ∈ l, ∀ b ∈ l, key a = key b → a = b) (id : String) :
    (l.find? fun a => key a = id) = l'.find? fun a => key a = id := by
  have apart' : ∀ a ∈ l', ∀ b ∈ l', key a = key b → a = b := by
    intro a ha b hb
    exact apart a (h.mem_iff.2 ha) b (h.mem_iff.2 hb)
  ext a
  rw [find?_key_eq_some_iff apart, find?_key_eq_some_iff apart', h.mem_iff]

/-! ### Structure -/

/-- The types of edges that join the content of a record to what it brings. -/
def structuralTypes : List String := ["contains_words", "has_attribute", "attribute_cluster"]

/-- Whether an edge is of one of these types. -/
def Edge.isStructural (edge : Edge) : Bool :=
  structuralTypes.any fun type => edge.attributes.find? "type" = some type

namespace Hypergraph

/-- The edges of these types, without their numbers. -/
def structuralEdges (g : Hypergraph) : List Edge :=
  (g.edges.values.filter Edge.isStructural).map Edge.unnumbered

/-- Two graphs have the same nodes, activations aside, and the same structural edges, numbers aside. -/
structure SameStructure (g g' : Hypergraph) : Prop where
  /-- The nodes are the same at rest. -/
  nodes : (g'.nodes.mapValues fun _ => Node.atRest) = g.nodes.mapValues fun _ => Node.atRest
  /-- The structural edges are the same in some order. -/
  edges : g'.structuralEdges.Perm g.structuralEdges

end Hypergraph

namespace Mapper

variable {m : Mapper} {g : Hypergraph} {record other : Record} {records records' : List Record}
  {identity : Identity}

/-! ### Records to come -/

/-- Records that a graph is yet to take in: none names its flow, no two have one flow, and no content of
theirs is there. The graph is as records without names of flows leave it. -/
structure Awaits (g : Hypergraph) (records : List Record) : Prop where
  /-- The graph is well formed. -/
  wellFormed : g.WellFormed
  /-- Its edges belong to flows that are named like those of the records. -/
  charted : Charted 21 g
  /-- No record names its flow. -/
  unnamed : ∀ record ∈ records, record.uuid? = none
  /-- The flows are different. -/
  distinct : (records.map flowOf).Nodup
  /-- The contents are new. -/
  new : ∀ record ∈ records, g.hasNode (contentId (flowOf record)) = false

theorem Awaits.perm (h : Awaits g records) (hperm : records.Perm records') : Awaits g records' where
  wellFormed := h.wellFormed
  charted := h.charted
  unnamed record hrecord := h.unnamed record (hperm.mem_iff.2 hrecord)
  distinct := (hperm.map flowOf).nodup_iff.1 h.distinct
  new record hrecord := h.new record (hperm.mem_iff.2 hrecord)

/-- A unit that has just been set up awaits any records of different flows. -/
theorem awaits_seeded {σ : Type} {p : Processor σ} (h : g.Bare)
    (unnamed : ∀ record ∈ records, record.uuid? = none) (distinct : (records.map flowOf).Nodup) :
    Awaits (p.seeded g) records where
  wellFormed := Processor.wellFormed_seeded h
  charted id hid := by
    unfold Hypergraph.hasEdge at hid
    rw [Processor.edges_seeded h] at hid
    cases hid
  unnamed
  distinct
  new record _ := by
    rw [← Bool.not_eq_true, Processor.hasNode_seeded h, List.mem_singleton]
    exact (rootId_ne_contentId _ _).symm

theorem Awaits.charted_length (h : Awaits g records) (hmem : record ∈ records) :
    Charted (flowOf record).length g := by
  rw [length_flowOf_unnamed (h.unnamed record hmem)]
  exact h.charted

/-- Contents and attributes of one flow are not among the nodes of another. -/
theorem notMem_idsOf (hunnamed : record.uuid? = none) (hunnamed' : other.uuid? = none)
    (hne : flowOf other ≠ flowOf record) :
    contentId (flowOf record) ∉ m.idsOf other ∧
      ∀ name, attributeId (flowOf record) name ∉ m.idsOf other := by
  constructor
  · rw [contentId_mem_idsOf_iff hne]
    rintro (⟨hflow, -⟩ | ⟨a, -, hid⟩)
    · exact flowOf_ne_word hunnamed hflow
    · exact attributeId_ne_contentId_flowOf hunnamed _ _ hid
  · intro name hid
    rcases List.mem_append.1 hid with hcontent | hattribute
    · rcases List.mem_cons.1 hcontent with heq | hword
      · exact attributeId_ne_contentId_flowOf hunnamed' _ _ heq
      · obtain ⟨word, hmem, heq⟩ := List.mem_map.1 hword
        exact attributeId_ne_wordId (lowLine_notMem_of_mem_wordsOf hmem) heq.symm
    · obtain ⟨a, -, heq⟩ := List.mem_map.1 hattribute
      have hlength : (flowOf other).length = (flowOf record).length := by
        rw [length_flowOf_unnamed hunnamed, length_flowOf_unnamed hunnamed']
      exact hne (attributeId_inj hlength heq).1

section Cons

variable (h : Awaits g (record :: records))

include h

theorem Awaits.flow_ne (hother : other ∈ records) : flowOf record ≠ flowOf other := by
  have hnodup := h.distinct
  rw [List.map_cons, List.nodup_cons] at hnodup
  intro heq
  rw [heq] at hnodup
  exact hnodup.1 (List.mem_map_of_mem hother)

theorem Awaits.notMem_head (hother : other ∈ records) :
    contentId (flowOf other) ∉ m.idsOf record ∧
      ∀ name, attributeId (flowOf other) name ∉ m.idsOf record :=
  notMem_idsOf (h.unnamed other (List.mem_cons_of_mem _ hother)) (h.unnamed record List.mem_cons_self)
    (h.flow_ne hother)

/-- **One record leaves the others to come.** -/
theorem Awaits.next : Awaits (nextAll g (m.script g record identity)) records where
  wellFormed := wellFormed_nextAll h.wellFormed _ adds_script
  charted := by
    have hcharted : Charted (flowOf record).length (nextAll g (m.script g record identity)) :=
      (h.charted_length List.mem_cons_self).nextAll_script
    rwa [length_flowOf_unnamed (h.unnamed record List.mem_cons_self)] at hcharted
  unnamed := (List.forall_mem_cons.1 h.unnamed).2
  distinct := (List.nodup_cons.1 h.distinct).2
  new other hother := by
    -- a content that is there now was there before or came with the record, and it did neither
    rw [← Bool.not_eq_true, hasNode_script_iff]
    rintro (hold | ⟨-, hid⟩)
    · rw [h.new other (List.mem_cons_of_mem _ hother)] at hold
      cases hold
    · exact (h.notMem_head hother).1 hid

/-- It does not make attributes of the others old. -/
theorem Awaits.attributesNew_next (hother : other ∈ records) :
    attributesNew (nextAll g (m.script g record identity)) other = attributesNew g other := by
  unfold attributesNew newAttributes
  refine List.filter_congr fun a _ => congrArg _ (Bool.eq_iff_iff.2 ?_)
  rw [hasNode_script_iff, or_iff_left]
  rintro ⟨-, hid⟩
  exact (h.notMem_head hother).2 a.1 hid

end Cons

/-! ### Nodes -/

/-- The nodes that a record brings to a graph. -/
def nodesAt (m : Mapper) (identity : Identity) (g : Hypergraph) (record : Record) : List Node :=
  contentNode (flowOf record) record.content identity :: (m.wordsOf record).map wordNode ++
    (attributesNew g record).map fun a => attributeNode (flowOf record) a.1 a.2

/-- **The nodes after records**: those that were there and those that the records bring. -/
theorem nodes_mapAll (h : Awaits g records) (id : NodeId) :
    ((m.mapAll identity g records).nodes.find? id).map Node.atRest =
      ((g.nodes.find? id).map Node.atRest).or
        (((records.flatMap (m.nodesAt identity g)).find? fun node => node.id = id).map Node.atRest) := by
  induction records generalizing g with
  | nil => simp [mapAll]
  | cons record records ih =>
    have adds : ∀ op ∈ m.script g record identity, op.adds = true := adds_script
    have hnodes : nodesOf (m.script g record identity) = m.nodesAt identity g record :=
      nodesOf_script (h.new record List.mem_cons_self)
    -- the others bring what they would have brought at the beginning
    have hrest : records.flatMap (m.nodesAt identity (nextAll g (m.script g record identity))) =
        records.flatMap (m.nodesAt identity g) := by
      refine List.flatMap_congr fun other hother => ?_
      unfold nodesAt
      rw [h.attributesNew_next hother]
    rw [mapAll_cons, ih h.next, Operation.atRest_nextAll adds, hnodes, hrest, List.flatMap_cons,
      List.find?_append, Option.map_or, Option.or_assoc]

theorem mem_nodesAt {node : Node} :
    node ∈ m.nodesAt identity g record ↔
      node = contentNode (flowOf record) record.content identity ∨
        (∃ word ∈ m.wordsOf record, wordNode word = node) ∨
        ∃ a ∈ attributesNew g record, attributeNode (flowOf record) a.1 a.2 = node := by
  unfold nodesAt
  rw [List.mem_append, List.mem_cons, List.mem_map, List.mem_map, or_assoc]

/-- **Nodes that records bring under one identifier are the same.** -/
theorem Awaits.nodes_apart (h : Awaits g records) :
    ∀ node ∈ records.flatMap (m.nodesAt identity g), ∀ node' ∈ records.flatMap (m.nodesAt identity g),
      node.id = node'.id → node = node' := by
  intro node hnode node' hnode' hid
  obtain ⟨record, hrecord, hnode⟩ := List.mem_flatMap.1 hnode
  obtain ⟨other, hother, hnode'⟩ := List.mem_flatMap.1 hnode'
  have hunnamed := h.unnamed record hrecord
  have hunnamed' := h.unnamed other hother
  have same (hflow : flowOf record = flowOf other) : record = other :=
    List.inj_on_of_nodup_map h.distinct hrecord hother hflow
  -- by what the two are; different kinds have different identifiers
  rcases mem_nodesAt.1 hnode with rfl | ⟨word, hword, rfl⟩ | ⟨a, ha, rfl⟩ <;>
    rcases mem_nodesAt.1 hnode' with rfl | ⟨word', hword', rfl⟩ | ⟨a', ha', rfl⟩
  · rw [same (contentId_injective hid)]
  · exact absurd hid.symm (wordId_ne_contentId_flowOf hunnamed word')
  · exact absurd hid.symm (attributeId_ne_contentId_flowOf hunnamed _ _)
  · exact absurd hid (wordId_ne_contentId_flowOf hunnamed' word)
  · rw [wordId_injective hid]
  · exact absurd hid.symm (attributeId_ne_wordId (lowLine_notMem_of_mem_wordsOf hword))
  · exact absurd hid (attributeId_ne_contentId_flowOf hunnamed' _ _)
  · exact absurd hid (attributeId_ne_wordId (lowLine_notMem_of_mem_wordsOf hword'))
  · have hlength : (flowOf record).length = (flowOf other).length := by
      rw [length_flowOf_unnamed hunnamed, length_flowOf_unnamed hunnamed']
    obtain ⟨hflow, hname⟩ := attributeId_inj hlength hid
    obtain rfl := same hflow
    have hmapped := List.mem_of_mem_filter ha
    rw [List.inj_on_of_nodup_map (distinct_mappedAttributes record) hmapped
      (List.mem_of_mem_filter ha') hname]

/-! ### Edges -/

/-- The structural edges that a record brings to a graph, without their numbers. -/
def structureAt (m : Mapper) (g : Hypergraph) (record : Record) : List Edge :=
  (wordEdges (flowOf record) (m.wordsOf record) 0 ++
    attributeEdges (flowOf record) (attributesNew g record) 0).map Edge.unnumbered

theorem unnumbered_wordEdges (flow : String) (words : List String) (n n' : UInt64) :
    (wordEdges flow words n).map Edge.unnumbered = (wordEdges flow words n').map Edge.unnumbered := by
  have hedge : (wordsEdge flow n words).unnumbered = (wordsEdge flow n' words).unnumbered :=
    unnumbered_congr (show "contains_words" ∈ numberedTypes by decide) (by rfl) rfl
  unfold wordEdges
  split
  · rfl
  · rw [List.map_singleton, List.map_singleton, hedge]

theorem unnumbered_attributeEdges (flow : String) (attributes : List (String × String)) (n n' : UInt64) :
    (attributeEdges flow attributes n).map Edge.unnumbered =
      (attributeEdges flow attributes n').map Edge.unnumbered := by
  have hedge : (clusterEdge flow n (attributeIds flow attributes)).unnumbered =
      (clusterEdge flow n' (attributeIds flow attributes)).unnumbered :=
    unnumbered_congr (show "attribute_cluster" ∈ numberedTypes by decide) (by rfl) rfl
  unfold attributeEdges
  rw [List.map_append, List.map_append]
  split
  · rfl
  · rw [List.map_singleton, List.map_singleton, hedge]

theorem filter_wordEdges (flow : String) (words : List String) (n : UInt64) :
    (wordEdges flow words n).filter Edge.isStructural = wordEdges flow words n := by
  have hedge : (wordsEdge flow n words).isStructural = true := by rfl
  unfold wordEdges
  split
  · rfl
  · rw [List.filter_singleton, hedge]
    rfl

theorem filter_attributeEdges (flow : String) (attributes : List (String × String)) (n : UInt64) :
    (attributeEdges flow attributes n).filter Edge.isStructural = attributeEdges flow attributes n := by
  have heach (name : String) : (attributeEdge flow name).isStructural = true := by
    unfold attributeEdge Edge.isStructural Table.ofList
    simp only [Table.find?_insertAll]
    rfl
  have hedge : (clusterEdge flow n (attributeIds flow attributes)).isStructural = true := by rfl
  unfold attributeEdges
  refine List.filter_eq_self.2 fun edge hmem => ?_
  rcases List.mem_append.1 hmem with hattribute | hcluster
  · obtain ⟨a, -, rfl⟩ := List.mem_map.1 hattribute
    exact heach a.1
  · split at hcluster
    · cases hcluster
    · rw [List.mem_singleton.1 hcluster, hedge]

theorem filter_similarityEdges (flow : String) (others : List NodeId) (n : UInt64) :
    (similarityEdges flow others n).filter Edge.isStructural = [] := by
  have hedge : (similarityEdge flow n others).isStructural = false := by rfl
  unfold similarityEdges
  split
  · rfl
  · rw [List.filter_singleton, hedge]
    rfl

/-- What a record adds to the structural edges. -/
theorem structuralEdges_script (h : Awaits g records) (hrecord : record ∈ records) :
    (nextAll g (m.script g record identity)).structuralEdges.Perm
      (m.structureAt g record ++ g.structuralEdges) := by
  have new := h.new record hrecord
  have hvalues : (nextAll g (m.script g record identity)).edges.values.Perm
      (edgesOf (m.script g record identity) ++ g.edges.values) :=
    Operation.values_edges_nextAll adds_script (supplied_script h.wellFormed)
      (h.charted_length hrecord).fresh
  have hscript : ((edgesOf (m.script g record identity)).filter Edge.isStructural).map Edge.unnumbered =
      m.structureAt g record := by
    unfold structureAt
    -- the edge among similar contents is left out, and the numbers of the others do not count
    rw [script_new new, Operation.edgesOf_append, edgesOf_elementsScript, edgesOf_similarityScript,
      List.filter_append, List.filter_append, filter_wordEdges, filter_attributeEdges,
      filter_similarityEdges, List.append_nil, List.map_append, List.map_append,
      unnumbered_wordEdges _ _ _ 0, unnumbered_attributeEdges _ _ _ 0]
  have hkept := (hvalues.filter Edge.isStructural).map Edge.unnumbered
  rw [List.filter_append, List.map_append, hscript] at hkept
  exact hkept

/-- **The structural edges after records**: those that were there and those that the records bring. -/
theorem structuralEdges_mapAll (h : Awaits g records) :
    (m.mapAll identity g records).structuralEdges.Perm
      (records.flatMap (m.structureAt g) ++ g.structuralEdges) := by
  induction records generalizing g with
  | nil => exact .refl _
  | cons record records ih =>
    have hrest : records.flatMap (m.structureAt (nextAll g (m.script g record identity))) =
        records.flatMap (m.structureAt g) := by
      refine List.flatMap_congr fun other hother => ?_
      unfold structureAt
      rw [h.attributesNew_next hother]
    have hfirst : (nextAll g (m.script g record identity)).structuralEdges.Perm
        (m.structureAt g record ++ g.structuralEdges) := structuralEdges_script h List.mem_cons_self
    have hnext : Awaits (nextAll g (m.script g record identity)) records := h.next
    have hothers := ih hnext
    rw [hrest] at hothers
    -- what the first record brings stands behind what the others bring
    rw [mapAll_cons, List.flatMap_cons, List.append_assoc]
    calc (m.mapAll identity (nextAll g (m.script g record identity)) records).structuralEdges
        _ |>.Perm (records.flatMap (m.structureAt g) ++
            (nextAll g (m.script g record identity)).structuralEdges) := hothers
        _ |>.Perm (records.flatMap (m.structureAt g) ++ (m.structureAt g record ++ g.structuralEdges)) :=
          .append_left _ hfirst
        _ |>.Perm (m.structureAt g record ++ (records.flatMap (m.structureAt g) ++ g.structuralEdges)) :=
          List.perm_append_comm_assoc ..

/-! ### Orders -/

/-- **The order of records does not matter** for the structure that they leave. -/
theorem sameStructure_mapAll (h : Awaits g records) (hperm : records.Perm records') :
    (m.mapAll identity g records).SameStructure (m.mapAll identity g records') where
  nodes := by
    refine Table.ext_find? fun id => ?_
    have hlist : (records'.flatMap (m.nodesAt identity g)).Perm (records.flatMap (m.nodesAt identity g)) :=
      hperm.symm.flatMap_right _
    rw [Table.find?_mapValues, Table.find?_mapValues, nodes_mapAll h, nodes_mapAll (h.perm hperm),
      find?_key_perm hlist (h.perm hperm).nodes_apart]
  edges := by
    have hlist : (records'.flatMap (m.structureAt g)).Perm (records.flatMap (m.structureAt g)) :=
      hperm.symm.flatMap_right _
    calc (m.mapAll identity g records').structuralEdges
        _ |>.Perm (records'.flatMap (m.structureAt g) ++ g.structuralEdges) :=
          structuralEdges_mapAll (h.perm hperm)
        _ |>.Perm (records.flatMap (m.structureAt g) ++ g.structuralEdges) := .append_right _ hlist
        _ |>.Perm (m.mapAll identity g records).structuralEdges := (structuralEdges_mapAll h).symm

end Mapper

end ResonantGraph
