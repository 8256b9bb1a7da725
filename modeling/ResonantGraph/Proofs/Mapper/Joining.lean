import ResonantGraph.Proofs.Mapper.Records

/-!
# What a new content is joined to

A record whose content is new is to be joined to all its words and attributes. The edges that are to do so
all have the content as a member, and no other edge has (`Mapper.exists_edge_script_iff`). Each of them is
added unless its identifier is taken. That need not come from the mapper: whoever shares the substrate may
have used any identifier. It can also be another flow whose name and attributes run into the same
identifier.

An attribute has a second condition. If its node is there, left over from an earlier content of the flow
that was removed since, it is passed over, and so is the edge that would join the content to it. Words that
are there are joined. `Mapper.process_joins` says for each word and attribute when it is joined to the
content.
-/

namespace ResonantGraph

open Operation (nextAll edgesOf)

/-! ### Edges of a type -/

namespace Hypergraph

/-- An edge of a given type has two nodes among its members. -/
def JoinedBy (type : String) (g : Hypergraph) (u v : NodeId) : Prop :=
  ∃ id edge, g.edges.find? id = some edge ∧ u ∈ edge.members ∧
    (edge.attributes.find? "type" = some type ∧ v ∈ edge.members)

theorem hasNode_removeNode (g : Hypergraph) (id : NodeId) : (g.removeNode id).2.hasNode id = false := by
  unfold removeNode
  split
  · unfold hasNode Table.contains
    rw [Table.find?_erase, if_pos rfl]
    rfl
  · next absent => exact Bool.eq_false_iff.2 absent

theorem Grows.joinedBy {g g' : Hypergraph} (h : g.Grows g') {type : String} {u v : NodeId}
    (huv : g.JoinedBy type u v) : g'.JoinedBy type u v := by
  obtain ⟨id, edge, hedge, hrest⟩ := huv
  exact ⟨id, edge, h.edges id edge hedge, hrest⟩

end Hypergraph

namespace Mapper

variable {m : Mapper} {g : Hypergraph} {record : Record} {identity : Identity}

/-! ### Edges at a new content -/

/-- An edge of a script is there in the end if its identifier was vacant. -/
theorem find?_edges_script (h : g.WellFormed) {edge : Edge}
    (hedge : edge ∈ edgesOf (m.script g record identity)) (vacant : g.hasEdge edge.id = false) :
    (nextAll g (m.script g record identity)).edges.find? edge.id = some edge := by
  obtain ⟨slots, hslots, hfills⟩ := fills_script m g record identity
  have hnone : g.edges.find? edge.id = none := Table.contains_eq_false_iff.1 vacant
  rw [Operation.find?_edges_nextAll adds_script (supplied_script h), hnone, Option.none_or]
  -- no two edges of a script share an identifier
  have apart := List.inj_on_of_nodup_map (hfills.distinct hslots)
  exact (find?_key_eq_some_iff fun a ha b hb => apart ha hb).2 ⟨hedge, rfl⟩

/-- **The edges at a new content** are those of its script whose identifiers were vacant. -/
theorem exists_edge_script_iff (h : g.WellFormed) (new : g.hasNode (contentId (flowOf record)) = false)
    (q : Edge → Prop) :
    (∃ key edge, (nextAll g (m.script g record identity)).edges.find? key = some edge ∧
        contentId (flowOf record) ∈ edge.members ∧ q edge) ↔
      ∃ edge ∈ edgesOf (m.script g record identity), g.hasEdge edge.id = false ∧ q edge := by
  constructor
  · rintro ⟨key, edge, hedge, hmember, hq⟩
    rw [Operation.find?_edges_nextAll adds_script (supplied_script h)] at hedge
    cases hold : g.edges.find? key with
    | some old =>
      -- the members of this edge were stored, but the content was not
      rw [hold, Option.some_or, Option.some.injEq] at hedge
      rw [hedge] at hold
      rw [h.members key edge hold _ hmember] at new
      cases new
    | none =>
      rw [hold, Option.none_or] at hedge
      have hid := List.find?_some hedge
      refine ⟨edge, List.mem_of_find?_eq_some hedge, ?_, hq⟩
      rw [of_decide_eq_true hid]
      exact Table.contains_eq_false_iff.2 hold
  · rintro ⟨edge, hedge, vacant, hq⟩
    exact ⟨edge.id, edge, find?_edges_script h hedge vacant, contentId_mem_members new hedge, hq⟩

/-- What a new content is joined to. -/
theorem mem_connected_script (h : g.WellFormed) (new : g.hasNode (contentId (flowOf record)) = false)
    {id : NodeId} :
    id ∈ (nextAll g (m.script g record identity)).connected (contentId (flowOf record)) ↔
      id ≠ contentId (flowOf record) ∧
        ∃ edge ∈ edgesOf (m.script g record identity), g.hasEdge edge.id = false ∧ id ∈ edge.members := by
  rw [Hypergraph.mem_connected, exists_edge_script_iff h new (id ∈ ·.members)]

/-- What a new content is joined to by edges of a type. -/
theorem joinedBy_script_iff (h : g.WellFormed) (new : g.hasNode (contentId (flowOf record)) = false)
    {type : String} {id : NodeId} :
    (nextAll g (m.script g record identity)).JoinedBy type (contentId (flowOf record)) id ↔
      ∃ edge ∈ edgesOf (m.script g record identity), g.hasEdge edge.id = false ∧
        (edge.attributes.find? "type" = some type ∧ id ∈ edge.members) :=
  exists_edge_script_iff h new fun edge => edge.attributes.find? "type" = some type ∧ id ∈ edge.members

/-! ### Words and attributes -/

theorem members_wordEdges {flow : String} {words : List String} {n : UInt64} {edge : Edge} {id : NodeId}
    (h : edge ∈ wordEdges flow words n) (hid : id ∈ edge.members) :
    id = contentId flow ∨ ∃ word ∈ words, wordId word = id := by
  unfold wordEdges at h
  split at h
  · cases h
  · rw [List.mem_singleton.1 h] at hid
    exact mem_members_wordsEdge.1 hid

theorem members_attributeEdges {flow : String} {attributes : List (String × String)} {n : UInt64}
    {edge : Edge} {id : NodeId} (h : edge ∈ attributeEdges flow attributes n) (hid : id ∈ edge.members) :
    id = contentId flow ∨ ∃ a ∈ attributes, attributeId flow a.1 = id := by
  rcases List.mem_append.1 h with heach | hcluster
  · obtain ⟨a, ha, rfl⟩ := List.mem_map.1 heach
    rcases mem_members_attributeEdge.1 hid with hcontent | hattribute
    · exact .inl hcontent
    · exact .inr ⟨a, ha, hattribute.symm⟩
  · split at hcluster
    · cases hcluster
    · rw [List.mem_singleton.1 hcluster] at hid
      exact mem_members_clusterEdge.1 hid

theorem type_similarityEdges {flow : String} {others : List NodeId} {n : UInt64} {edge : Edge}
    (h : edge ∈ similarityEdges flow others n) : edge.attributes.find? "type" = some "similarity" := by
  unfold similarityEdges at h
  split at h
  · cases h
  · rw [List.mem_singleton.1 h]
    rfl

/-- **Which words a new content is joined to.** All of them if the edge to the words is added, unless one
of them has the identifier of the content. -/
theorem mem_connected_word (h : g.WellFormed) (new : g.hasNode (contentId (flowOf record)) = false)
    {word : String} (hword : word ∈ m.wordsOf record) :
    wordId word ∈ (nextAll g (m.script g record identity)).connected (contentId (flowOf record)) ↔
      wordId word ≠ contentId (flowOf record) ∧
        (g.hasEdge (wordsEdge (flowOf record) g.sequence (m.wordsOf record)).id = false ∨
          (nextAll g (m.script g record identity)).JoinedBy "similarity"
            (contentId (flowOf record)) (wordId word)) := by
  rw [mem_connected_script h new, joinedBy_script_iff h new]
  -- of all edges at the content, those to its words and to similar contents can join a word
  refine and_congr_right fun hne => ⟨?_, ?_⟩
  · rintro ⟨edge, hedge, vacant, hmember⟩
    rcases (mem_edgesOf_script new).1 hedge with hwords | hattributes | hsimilar
    · unfold wordEdges at hwords
      split at hwords
      · cases hwords
      · rw [List.mem_singleton.1 hwords] at vacant
        exact .inl vacant
    · -- an attribute has an identifier that no word has
      rcases members_attributeEdges hattributes hmember with hcontent | ⟨a, -, hattribute⟩
      · exact absurd hcontent hne
      · exact absurd hattribute (attributeId_ne_wordId (lowLine_notMem_of_mem_wordsOf hword))
    · exact .inr ⟨edge, hedge, vacant, type_similarityEdges hsimilar, hmember⟩
  · rintro (vacant | ⟨edge, hedge, vacant, -, hmember⟩)
    · refine ⟨wordsEdge (flowOf record) g.sequence (m.wordsOf record), ?_, vacant, ?_⟩
      · refine (mem_edgesOf_script new).2 (.inl ?_)
        unfold wordEdges
        rw [if_neg (List.ne_nil_of_mem hword)]
        exact List.mem_singleton.2 rfl
      · exact mem_members_wordsEdge.2 (.inr ⟨word, hword, rfl⟩)
    · exact ⟨edge, hedge, vacant, hmember⟩

/-- **Which attributes a new content is joined to.** Only those whose nodes come in with it, if their edges
are added. An attribute that was there is joined if it passes for a similar content. -/
theorem mem_connected_attribute (h : g.WellFormed)
    (new : g.hasNode (contentId (flowOf record)) = false) {a : String × String}
    (ha : a ∈ mappedAttributes record) :
    attributeId (flowOf record) a.1 ∈
        (nextAll g (m.script g record identity)).connected (contentId (flowOf record)) ↔
      (g.hasNode (attributeId (flowOf record) a.1) = false ∧
          (g.hasEdge (attributeEdge (flowOf record) a.1).id = false ∨
            (nextAll g (m.script g record identity)).JoinedBy "attribute_cluster"
              (contentId (flowOf record)) (attributeId (flowOf record) a.1))) ∨
        (nextAll g (m.script g record identity)).JoinedBy "similarity"
          (contentId (flowOf record)) (attributeId (flowOf record) a.1) := by
  have hne : attributeId (flowOf record) a.1 ≠ contentId (flowOf record) := attributeId_ne_contentId rfl
  rw [mem_connected_script h new, joinedBy_script_iff h new, joinedBy_script_iff h new]
  -- by the edge that joins it; from right to left the edge is at hand
  constructor
  · rintro ⟨-, edge, hedge, vacant, hmember⟩
    rcases (mem_edgesOf_script new).1 hedge with hwords | hattributes | hsimilar
    · rcases members_wordEdges hwords hmember with hcontent | ⟨word, hword, hid⟩
      · exact absurd hcontent hne
      · exact absurd hid.symm (attributeId_ne_wordId (lowLine_notMem_of_mem_wordsOf hword))
    · -- whatever joins an attribute does so because it is new
      rcases members_attributeEdges hattributes hmember with hcontent | ⟨b, hb, hid⟩
      · exact absurd hcontent hne
      have hname : b.1 = a.1 := attributeId_injective hid
      have habsent : g.hasNode (attributeId (flowOf record) a.1) = false := by
        have hnew := (List.mem_filter.1 hb).2
        rwa [hname, Bool.not_eq_true'] at hnew
      refine .inl ⟨habsent, ?_⟩
      rcases List.mem_append.1 hattributes with heach | hcluster
      · obtain ⟨c, -, rfl⟩ := List.mem_map.1 heach
        rcases mem_members_attributeEdge.1 hmember with hcontent | hid'
        · exact absurd hcontent hne
        · rw [← attributeId_injective hid'] at vacant
          exact .inl vacant
      · refine .inr ⟨edge, hedge, vacant, ?_, hmember⟩
        split at hcluster
        · cases hcluster
        · rw [List.mem_singleton.1 hcluster]
          rfl
    · exact .inr ⟨edge, hedge, vacant, type_similarityEdges hsimilar, hmember⟩
  · rintro (⟨hnew, vacant | ⟨edge, hedge, vacant, -, hmember⟩⟩ | ⟨edge, hedge, vacant, -, hmember⟩)
    · have hmem : a ∈ attributesNew g record := List.mem_filter.2 ⟨ha, by rw [hnew]; rfl⟩
      refine ⟨hne, attributeEdge (flowOf record) a.1, ?_, vacant, ?_⟩
      · exact (mem_edgesOf_script new).2 (.inr (.inl (List.mem_append_left _ (List.mem_map_of_mem hmem))))
      · exact mem_members_attributeEdge.2 (.inr rfl)
    · exact ⟨hne, edge, hedge, vacant, hmember⟩
    · exact ⟨hne, edge, hedge, vacant, hmember⟩

/-! ### Units -/

section Process

variable {σ : Type} [Store σ] {p : Processor σ}

/-- **What a record is joined to** when a unit with a mapper finds no content of its flow in a well-formed
graph. The unit succeeds and the content is there. A word is joined to it unless it has the identifier of
the content, or the identifier of the edge to the words was taken. An attribute that was there is not joined
to it, and any other is, unless the identifier of its edge was taken. The edge among similar contents can
make up for either. -/
theorem process_joins (hp : p.handler = m.handler) (record : Record) (kernel : Kernel) {s : Substrate σ}
    (h : s.graph.WellFormed) (new : s.graph.hasNode (contentId (flowOf record)) = false) :
    ∃ outcome kernel' s', p.process record { kernel, substrate := some s } =
        (.ok outcome, { kernel := kernel', substrate := some s' }) ∧
      s'.graph.hasNode (contentId (flowOf record)) = true ∧
      (∀ word ∈ m.wordsOf record,
        (wordId word ∈ s'.graph.connected (contentId (flowOf record)) ↔
          wordId word ≠ contentId (flowOf record) ∧
            (s.graph.hasEdge (wordsEdge (flowOf record) s.graph.sequence (m.wordsOf record)).id = false ∨
              s'.graph.JoinedBy "similarity" (contentId (flowOf record)) (wordId word)))) ∧
      ∀ a ∈ mappedAttributes record,
        (attributeId (flowOf record) a.1 ∈ s'.graph.connected (contentId (flowOf record)) ↔
          (s.graph.hasNode (attributeId (flowOf record) a.1) = false ∧
              (s.graph.hasEdge (attributeEdge (flowOf record) a.1).id = false ∨
                s'.graph.JoinedBy "attribute_cluster" (contentId (flowOf record))
                  (attributeId (flowOf record) a.1))) ∨
            s'.graph.JoinedBy "similarity" (contentId (flowOf record))
              (attributeId (flowOf record) a.1)) := by
  obtain ⟨outcome, kernel', s', hprocess, -, hgraph, -⟩ := process_ok hp record kernel h
  refine ⟨outcome, kernel', s', hprocess, ?_⟩
  rw [hgraph]
  exact ⟨hasNode_script, fun word hword => mem_connected_word h new hword,
    fun a ha => mem_connected_attribute h new ha⟩

end Process

/-- What is left of a record in a graph when its content is removed. -/
@[irreducible]
def remains (m : Mapper) (record : Record) : Hypergraph :=
  ((m.mapAll {} ∅ [record]).removeNode (contentId (flowOf record))).2

theorem reached_remains (m : Mapper) (record : Record) : (m.remains record).Reached := by
  unfold remains
  exact .change (.removeNode _) (wellFormed_mapAll Hypergraph.wellFormed_empty [record]).reached

theorem new_remains (m : Mapper) (record : Record) :
    (m.remains record).hasNode (contentId (flowOf record)) = false := by
  unfold remains
  exact Hypergraph.hasNode_removeNode ..

/-- `process_joins` where words and an attribute are left over. -/
theorem process_joins_remains :
    let m : Mapper := ({} : Settings).mapper
    let p : Processor Store.Tables := { name := "mapper", handler := m.handler }
    let record : Record := namedRecord "f" "alpha bravo"
    (m.remains record).WellFormed ∧ (m.remains record).hasNode "f_content" = false ∧
      ∃ outcome kernel' s',
        p.process record { substrate := some { Substrate.ofStore {} with graph := m.remains record } } =
          (.ok outcome, { kernel := kernel', substrate := some s' }) ∧
        "word_alpha" ∈ s'.graph.connected "f_content" ∧ "word_bravo" ∈ s'.graph.connected "f_content" := by
  intro m p record
  have hwf := (reached_remains m record).wellFormed
  have new := new_remains m record
  obtain ⟨outcome, kernel', s', hprocess, -, hwords, -⟩ := process_joins (p := p) (m := m) rfl record {}
    (s := { Substrate.ofStore {} with graph := m.remains record }) hwf new
  have vacant : (m.remains record).hasEdge
      (wordsEdge (flowOf record) (m.remains record).sequence (m.wordsOf record)).id = false := by
    decide +kernel
  have halpha := (hwords "alpha" (by decide +kernel)).2 ⟨by decide, .inl vacant⟩
  have hbravo := (hwords "bravo" (by decide +kernel)).2 ⟨by decide, .inl vacant⟩
  have hcontent : contentId (flowOf record) = "f_content" := by decide +kernel
  rw [hcontent] at new halpha hbravo
  exact ⟨hwf, new, outcome, kernel', s', hprocess, halpha, hbravo⟩

/-- Not every attribute is joined to the content of its record: where one is left over from a content that
was removed, it stays without an edge. -/
theorem exists_unjoined_attribute :
    ¬ ∀ (m : Mapper) (p : Processor Store.Tables) (record : Record) (kernel : Kernel)
      (s : Substrate Store.Tables), p.handler = m.handler → s.graph.Reached →
      s.graph.hasNode (contentId (flowOf record)) = false →
      ∃ outcome kernel' s', p.process record { kernel, substrate := some s } =
          (.ok outcome, { kernel := kernel', substrate := some s' }) ∧
        (∀ word ∈ m.wordsOf record, wordId word ∈ s'.graph.connected (contentId (flowOf record))) ∧
        ∀ a ∈ mappedAttributes record,
          attributeId (flowOf record) a.1 ∈ s'.graph.connected (contentId (flowOf record)) := by
  intro hall
  let m : Mapper := ({} : Settings).mapper
  let p : Processor Store.Tables := { name := "mapper", handler := m.handler }
  let record : Record := namedRecord "f" "alpha bravo"
  let s : Substrate Store.Tables := { Substrate.ofStore {} with graph := m.remains record }
  obtain ⟨outcome, kernel', s', hprocess, -, hattributes⟩ :=
    hall m p record {} s rfl (reached_remains m record) (new_remains m record)
  obtain ⟨_, _, t, hprocess', -, hgraph, -⟩ := process_ok (p := p) (m := m) rfl record {}
    (s := s) (reached_remains m record).wellFormed
  -- there is but one result of processing the record
  rw [hprocess'] at hprocess
  cases hprocess
  have hjoined := hattributes ("uuid", "f") (by decide +kernel)
  rw [hgraph] at hjoined
  revert hjoined
  decide +kernel

end Mapper

end ResonantGraph
