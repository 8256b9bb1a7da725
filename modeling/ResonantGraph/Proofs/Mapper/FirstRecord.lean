import ResonantGraph.Proofs.Mapper.Laying
import ResonantGraph.Proofs.Mapper.Records
import ResonantGraph.Proofs.Substrate.Propagation

/-!
# The first record of a flow

A flow that is named by the fingerprint of a content is *untouched* by a graph if no node and no edge begins with
its name and a low line (`Mapper.Untouched`). Then none of the elements of the flow is there, and its record
adds them all, words aside that other contents have brought. Nothing is refused, and no identifier is used twice,
though all of them share one space of names and the numbers in them may have come to their end.

What has become of the graph then is `Mapper.Founded`. It goes by way of the graph in which all but the edge
among similar contents is laid out: activation spreads over this one, and in this one the similar contents are
those that share enough connected nodes with the new one. `Mapper.handle_first_record` says that handling a
record does this, over any store, and what it reports.
-/

namespace ResonantGraph

open Operation (nextAll nodesOf edgesOf)
open ResonantGraph.Hypergraph (sequenceAfter)

namespace Mapper

variable {m : Mapper} {g : Hypergraph} {record : Record} {identity : Identity} {flow : String}

/-! ### Flows that are not there yet -/

/-- Nothing in a graph is named as the elements of a flow are. -/
structure Untouched (g : Hypergraph) (flow : String) : Prop where
  /-- No node begins with the flow and a low line. -/
  nodes : ∀ id, g.hasNode id = true → Memory.beginsWith id (flow ++ "_") = false
  /-- Nor does an edge. -/
  edges : ∀ id, g.hasEdge id = true → Memory.beginsWith id (flow ++ "_") = false

theorem beginsWith_flow {id : String} {rest : List Char} (h : id.toList = flow.toList ++ '_' :: rest) :
    Memory.beginsWith id (flow ++ "_") = true := by
  unfold Memory.beginsWith
  rw [h, String.toList_append, List.isPrefixOf_iff_prefix]
  exact ⟨rest, List.append_assoc ..⟩

namespace Untouched

variable (h : Untouched g flow)

include h

theorem hasNode_eq_false {id : NodeId} (hid : Memory.beginsWith id (flow ++ "_") = true) :
    g.hasNode id = false := by
  rw [← Bool.not_eq_true]
  intro hstored
  rw [h.nodes id hstored] at hid
  cases hid

theorem vacant_content : g.hasNode (contentId flow) = false :=
  h.hasNode_eq_false (beginsWith_flow (toList_contentId flow))

theorem vacant_attribute (name : String) : g.hasNode (attributeId flow name) = false :=
  h.hasNode_eq_false (beginsWith_flow (toList_attributeId flow name))

theorem vacant_edge (slot : Slot) (n : UInt64) : g.hasEdge (slot.edgeId flow n) = false := by
  have hstart : slot.start.toList = '_' :: slot.start.toList.tail := by
    cases slot <;> simp [Slot.start]
  have hid := Slot.toList_edgeId flow n slot
  rw [hstart, List.cons_append] at hid
  rw [← Bool.not_eq_true]
  intro hstored
  have hbegins := beginsWith_flow hid
  rw [h.edges _ hstored] at hbegins
  cases hbegins

end Untouched

/-- All attributes that are to be mapped are new. -/
theorem Untouched.attributesNew_eq (h : Untouched g (flowOf record)) :
    attributesNew g record = mappedAttributes record := by
  unfold attributesNew newAttributes
  refine List.filter_eq_self.2 fun a _ => ?_
  rw [h.vacant_attribute]
  rfl

/-- No edge of the script is refused. -/
theorem Untouched.fresh (h : Untouched g (flowOf record)) : Operation.Fresh g (m.script g record identity) := by
  obtain ⟨slots, hslots, hfills⟩ := fills_script m g record identity
  refine ⟨hfills.distinct hslots, fun edge hedge => ?_⟩
  obtain ⟨slot, -, n, hid⟩ := hfills.exists_slot hedge
  rw [hid]
  exact h.vacant_edge slot n

section Counting

variable (h : Untouched g (flowOf record))

include h

theorem nodesOf_layScript : nodesOf (m.layScript g record identity) = m.elementNodes identity record := by
  unfold layScript elementNodes
  rw [Operation.nodesOf_append, nodesOf_contentScript, nodesOf_attributesScript, h.attributesNew_eq]

theorem edgesOf_layScript :
    edgesOf (m.layScript g record identity) = m.elementEdges record g.sequence := by
  have hcontent : edgesOf (m.contentScript g record identity) =
      wordEdges (flowOf record) (m.wordsOf record) g.sequence := by
    unfold contentScript
    rw [Operation.edgesOf_addNode, edgesOf_wordsScript]
  unfold layScript elementEdges
  rw [Operation.edgesOf_append, hcontent, edgesOf_attributesScript, h.attributesNew_eq,
    sequence_contentScript]

theorem draws_layScript :
    (m.layScript g record identity).countP Operation.draws = m.wordDraws record + clusterDraws record := by
  unfold layScript clusterDraws
  rw [List.countP_append, draws_contentScript, draws_attributesScript, h.attributesNew_eq]

theorem edgesOf_elementsScript_of_untouched :
    edgesOf (m.elementsScript g record identity) = m.elementEdges record g.sequence := by
  have hspread : edgesOf [.propagate (contentId (flowOf record)) mappedActivation] = [] := rfl
  rw [elementsScript_eq, Operation.edgesOf_append, edgesOf_layScript h, hspread, List.append_nil]

theorem sequence_elementsScript :
    (nextAll g (m.elementsScript g record identity)).sequence =
      sequenceAfter g.sequence (m.wordDraws record + clusterDraws record) := by
  have hspread : [Operation.propagate (contentId (flowOf record)) mappedActivation].countP Operation.draws = 0 :=
    rfl
  rw [Operation.sequence_nextAll adds_elementsScript, elementsScript_eq, List.countP_append,
    draws_layScript h, hspread, Nat.add_zero]

theorem edgesOf_script :
    edgesOf (m.script g record identity) =
      m.recordEdges record (m.similarOf g record identity) g.sequence := by
  unfold recordEdges
  rw [script_new h.vacant_content, Operation.edgesOf_append, edgesOf_similarityScript,
    sequence_elementsScript h, edgesOf_elementsScript_of_untouched h]

theorem sequence_script :
    (nextAll g (m.script g record identity)).sequence =
      sequenceAfter g.sequence (m.recordDraws record (m.similarOf g record identity)) := by
  rw [script_new h.vacant_content, Operation.nextAll_append,
    Operation.sequence_nextAll adds_similarityScript, sequence_elementsScript h, draws_similarityScript,
    Hypergraph.sequenceAfter_add, recordDraws]

end Counting

/-- The nodes of a record have identifiers of their own, if it does not name its flow. -/
theorem nodup_elementNodes (unnamed : record.uuid? = none) :
    ((m.elementNodes identity record).map (·.id)).Nodup := by
  have hwords : ((m.wordsOf record).map wordId).Nodup :=
    List.Nodup.map (fun _ _ => wordId_injective) (NameSet.nodup_names _)
  have hattributes : (((mappedAttributes record).map Prod.fst).map (attributeId (flowOf record))).Nodup :=
    List.Nodup.map (fun _ _ => attributeId_injective) (distinct_mappedAttributes record)
  have hids : (m.elementNodes identity record).map (·.id) =
      (contentId (flowOf record) :: (m.wordsOf record).map wordId) ++
        ((mappedAttributes record).map Prod.fst).map (attributeId (flowOf record)) := by
    unfold elementNodes
    rw [List.map_append, List.map_cons, List.map_map, List.map_map, List.map_map]
    rfl
  rw [hids, List.nodup_append, List.nodup_cons]
  refine ⟨⟨fun hword => ?_, hwords⟩, hattributes, fun id hid id' hid' heq => ?_⟩
  · obtain ⟨word, -, hid⟩ := List.mem_map.1 hword
    exact wordId_ne_contentId_flowOf unnamed word hid
  · subst heq
    obtain ⟨name, -, rfl⟩ := List.mem_map.1 hid'
    rcases List.mem_cons.1 hid with heq | hword
    · exact attributeId_ne_contentId rfl heq
    · obtain ⟨word, hmem, heq⟩ := List.mem_map.1 hword
      exact attributeId_ne_wordId (lowLine_notMem_of_mem_wordsOf hmem) heq.symm

/-! ### Similar contents -/

/-- A node of the type of contents shares at least a number of connected nodes with a content. -/
structure Similar (g : Hypergraph) (flow : String) (shared : Nat) (id : NodeId) : Prop where
  /-- It is not the content itself. -/
  other : id ≠ contentId flow
  /-- It has the type of contents. -/
  content : ∃ node, g.nodes.find? id = some node ∧ node.attributes.find? "type" = some "content"
  /-- There are so many nodes that are connected to both. -/
  shares : shared ≤ ((g.connected (contentId flow)).names.filter (· ∈ g.connected id)).length

theorem mem_similarTo (h : g.WellFormed) {id : NodeId} :
    id ∈ m.similarTo g flow ↔ Similar g flow m.similarityMinShared id := by
  have hcommon : NameSet.common (g.connected (contentId flow)).names (g.connected id).names =
      (g.connected (contentId flow)).names.filter (· ∈ g.connected id) := by
    rw [NameSet.common_eq_filter (NameSet.names_ascending _) (NameSet.names_ascending _)]
    refine List.filter_congr fun name _ => ?_
    rw [List.contains_eq_mem, decide_eq_decide, NameSet.mem_names]
  unfold similarTo
  rw [List.mem_filter, h.mem_nodesWithAttribute, Bool.and_eq_true, decide_eq_true_iff, decide_eq_true_iff,
    hcommon]
  exact ⟨fun ⟨hcontent, hother, hshares⟩ => ⟨hother, hcontent, hshares⟩,
    fun ⟨hother, hcontent, hshares⟩ => ⟨hcontent, hother, hshares⟩⟩

/-- Activation spreads over nodes, and leaves their attributes. -/
theorem attributes_propagate (g : Hypergraph) (source : NodeId) (initial : Binary64) (id : NodeId) :
    ((g.propagate source initial).2.nodes.find? id).map (·.attributes) =
      (g.nodes.find? id).map (·.attributes) := by
  cases h : g.hasNode source with
  | true =>
    have hspread (reached : NameSet) (node : Node) :
        (Hypergraph.spreadTo source reached initial id node).attributes = node.attributes := by
      rcases Hypergraph.spreadTo_cases source reached initial id node with heq | ⟨level, heq⟩
      · rw [heq]
      · rw [heq]
        rfl
    rw [Hypergraph.nodes_propagate h, Option.map_map]
    congr 1
    exact funext (hspread _)
  | false =>
    have hnone : g.propagate source initial = (none, g) := if_neg (Bool.eq_false_iff.1 h)
    rw [hnone]

/-- Similarity does not look at activations. -/
theorem similar_propagate_iff {source : NodeId} {initial : Binary64} {shared : Nat} {id : NodeId} :
    Similar (g.propagate source initial).2 flow shared id ↔ Similar g flow shared id := by
  have hconnected (id : NodeId) : (g.propagate source initial).2.connected id = g.connected id := by
    unfold Hypergraph.connected Hypergraph.edgesAt
    rw [Hypergraph.edges_propagate]
  have hcontent (g : Hypergraph) :
      (∃ node, g.nodes.find? id = some node ∧ node.attributes.find? "type" = some "content") ↔
        ∃ attributes, (g.nodes.find? id).map (·.attributes) = some attributes ∧
          attributes.find? "type" = some "content" := by
    simp only [Option.map_eq_some_iff, exists_exists_and_eq_and]
  constructor
  · rintro ⟨hother, htype, hshares⟩
    rw [hcontent, attributes_propagate, ← hcontent] at htype
    rw [hconnected, hconnected] at hshares
    exact ⟨hother, htype, hshares⟩
  · rintro ⟨hother, htype, hshares⟩
    rw [hcontent, ← attributes_propagate g source initial, ← hcontent] at htype
    rw [← hconnected (contentId flow), ← hconnected id] at hshares
    exact ⟨hother, htype, hshares⟩

/-! ### What is added -/

/-- A graph after the first record of a flow, by way of the graph in which its content, words and attributes are
laid out and activation has not spread yet, and of the contents that the record turns out to be similar to. -/
structure Founded (m : Mapper) (identity : Identity) (record : Record) (g laid : Hypergraph)
    (others : List NodeId) (g' : Hypergraph) : Prop where
  /-- The nodes that belong to the record have different identifiers. -/
  nodesApart : ((m.elementNodes identity record).map (·.id)).Nodup
  /-- None of them was there, but for words. -/
  nodesNew : ∀ node ∈ m.elementNodes identity record, g.hasNode node.id = true →
    ∃ word ∈ m.wordsOf record, node = wordNode word
  /-- Laid out are the nodes that were there, as they were, and those of the record that were not. -/
  laidNodes : ∀ id, laid.nodes.find? id =
    (g.nodes.find? id).or ((m.elementNodes identity record).find? fun node => node.id = id)
  /-- Laid out are the edges that were there, and those to words and attributes. -/
  laidEdges : ∀ id, laid.edges.find? id =
    (g.edges.find? id).or ((m.elementEdges record g.sequence).find? fun edge => edge.id = id)
  /-- Activation has spread once from the content over what was laid out, and no other node has changed. -/
  nodes : g'.nodes = (laid.propagate (contentId (flowOf record)) mappedActivation).2.nodes
  /-- No similar content is listed twice. -/
  othersApart : others.Nodup
  /-- The similar contents are those that share enough connected nodes in what was laid out. -/
  similar : ∀ id, id ∈ others ↔ Similar laid (flowOf record) m.similarityMinShared id
  /-- The edges that belong to the record have different identifiers. -/
  edgesApart : ((m.recordEdges record others g.sequence).map (·.id)).Nodup
  /-- None of them was there. -/
  edgesNew : ∀ edge ∈ m.recordEdges record others g.sequence, g.hasEdge edge.id = false
  /-- The edges are those that were there, and all of the record. -/
  edges : ∀ id, g'.edges.find? id =
    (g.edges.find? id).or ((m.recordEdges record others g.sequence).find? fun edge => edge.id = id)
  /-- The sequence has moved by as many numbers as edges have taken. -/
  sequence : g'.sequence = sequenceAfter g.sequence (m.recordDraws record others)

theorem nodes_similarityScript (g : Hypergraph) (others : List NodeId) (n : UInt64) :
    (nextAll g (similarityScript flow others n)).nodes = g.nodes := by
  unfold similarityScript
  split
  · rfl
  · exact Operation.nodes_next_addEdge g.nextSequence.2 _

/-- Of the nodes of a first record only words can be there. -/
theorem Untouched.exists_word (h : Untouched g (flowOf record)) {node : Node}
    (hnode : node ∈ m.elementNodes identity record) (hstored : g.hasNode node.id = true) :
    ∃ word ∈ m.wordsOf record, node = wordNode word := by
  rcases List.mem_append.1 hnode with hcontent | hattribute
  · rcases List.mem_cons.1 hcontent with rfl | hword
    · exact absurd hstored (Bool.eq_false_iff.1 h.vacant_content)
    · obtain ⟨word, hmem, rfl⟩ := List.mem_map.1 hword
      exact ⟨word, hmem, rfl⟩
  · obtain ⟨a, -, rfl⟩ := List.mem_map.1 hattribute
    exact absurd hstored (Bool.eq_false_iff.1 (h.vacant_attribute a.1))

/-- **The script of a first record** adds what belongs to the record, and nothing else. -/
theorem founded_script (h : g.WellFormed) (unnamed : record.uuid? = none)
    (untouched : Untouched g (flowOf record)) :
    m.Founded identity record g (nextAll g (m.layScript g record identity)) (m.similarOf g record identity)
      (nextAll g (m.script g record identity)) := by
  have new := untouched.vacant_content
  have fresh : Operation.Fresh g (m.script g record identity) := untouched.fresh
  have hspread : nextAll g (m.elementsScript g record identity) =
      ((nextAll g (m.layScript g record identity)).propagate (contentId (flowOf record))
        mappedActivation).2 := by
    rw [elementsScript_eq, Operation.nextAll_append]
    rfl
  have hwellFormed : (nextAll g (m.elementsScript g record identity)).WellFormed :=
    wellFormed_nextAll h _ adds_elementsScript
  exact {
    nodesApart := nodup_elementNodes unnamed
    nodesNew := fun node hnode hstored => untouched.exists_word hnode hstored
    laidNodes := by
      intro id
      rw [Operation.find?_nodes_nextAll lays_layScript, nodesOf_layScript untouched,
        map_clamped_find?_elementNodes]
    laidEdges := by
      intro id
      -- spreading activation leaves the edges
      have adds : ∀ op ∈ m.elementsScript g record identity, op.adds = true := adds_elementsScript
      have hedges := Operation.find?_edges_nextAll adds supplied_elementsScript id
      rw [hspread, Hypergraph.edges_propagate, edgesOf_elementsScript_of_untouched untouched] at hedges
      exact hedges
    nodes := by
      rw [script_new new, Operation.nextAll_append, nodes_similarityScript, hspread]
    othersApart := by
      rw [similarOf_new new]
      exact (hwellFormed.nodup_nodesWithAttribute _ _).sublist List.filter_sublist
    similar := by
      intro id
      rw [similarOf_new new, mem_similarTo hwellFormed, hspread, similar_propagate_iff]
    edgesApart := by
      rw [← edgesOf_script untouched]
      exact fresh.distinct
    edgesNew := by
      rw [← edgesOf_script untouched]
      exact fresh.vacant
    edges := by
      intro id
      rw [Operation.find?_edges_nextAll adds_script (supplied_script h), edgesOf_script untouched]
    sequence := sequence_script untouched }

theorem hasNode_layScript :
    (nextAll g (m.layScript g record identity)).hasNode (contentId (flowOf record)) = true := by
  unfold layScript
  rw [Operation.nextAll_append]
  exact Operation.hasNode_nextAll adds_attributesScript hasNode_contentScript

/-- A first record tells a hook of one propagation. -/
theorem hookCalls_script (untouched : Untouched g (flowOf record)) :
    hookCalls (Operation.answerAll g (m.script g record identity)) =
      [{ source := contentId (flowOf record)
         reached := (nextAll g (m.layScript g record identity)).reachable (contentId (flowOf record))
          Hypergraph.propagationHops
         initial := mappedActivation }] := by
  have hcontent : (nextAll g (m.layScript g record identity)).hasNode (contentId (flowOf record)) = true :=
    hasNode_layScript
  have hspread := Hypergraph.reached_propagate hcontent mappedActivation
  rw [script_new untouched.vacant_content, Operation.hookCalls_answerAll_append, elementsScript_eq,
    Operation.hookCalls_answerAll_append, Operation.hookCalls_answerAll_of_lays lays_layScript,
    Operation.hookCalls_answerAll_of_lays lays_similarityScript, List.append_nil, List.nil_append]
  rw [Operation.answerAll, Operation.answer, hspread]
  rfl

theorem flowId_metadata (flow : String) (figures : Metrics) (focus : NodeMetrics) (similar : Nat) :
    (metadata flow figures focus similar).find? "hypergraph.flow_id" = some flow := by
  unfold metadata Table.ofList
  dsimp only
  rw [Table.find?_insertAll]
  split <;> rfl

/-- A report names the flow. -/
theorem flowId_report {similar : Nat} {outcome : Outcome} (h : m.report g flow similar = .ok outcome) :
    outcome.metadata.find? "hypergraph.flow_id" = some flow := by
  unfold report at h
  dsimp only at h
  split at h
  · cases h
  · next focus _ =>
    rw [← Except.ok.inj h, flowId_metadata]

section Handling

variable {σ : Type} [Store σ]

/-- **The first record of a flow adds exactly its structure**, over any store. Let the graph be well formed, let
the record not name its flow, and let no node or edge be named as those of the flow are. Then handling the record
succeeds, and the graph is founded on it: its content, those of its words that were not there and its
attributes have come in, with the edges that belong to it, and the sequence has moved by the numbers that were
used. Activation has spread once, from the content, before the edge among similar contents was there, and a hook
is told just this. The report is that of the graph in the end, with the number of similar contents. -/
theorem handle_first_record (m : Mapper) (name : String) (record : Record) (kernel : Kernel) {s : Substrate σ}
    (h : s.graph.WellFormed) (unnamed : record.uuid? = none) (untouched : Untouched s.graph (flowOf record)) :
    ∃ (laid : Hypergraph) (others : List NodeId) (outcome : Outcome) (s' : Substrate σ),
      m.handler.handle name record { kernel, substrate := some s } =
        (.ok outcome, { kernel := (kernel.signal record.content).2, substrate := some s' }) ∧
      m.Founded kernel.identity record s.graph laid others s'.graph ∧
      s' = (s.performAll (m.script s.graph record kernel.identity)).2 ∧
      hookCalls (s.performAll (m.script s.graph record kernel.identity)).1 =
        [{ source := contentId (flowOf record)
           reached := laid.reachable (contentId (flowOf record)) Hypergraph.propagationHops
           initial := mappedActivation }] ∧
      m.report s'.graph (flowOf record) others.length = .ok outcome ∧
      outcome.metadata.find? "hypergraph.flow_id" = some (flowOf record) ∧
      outcome.metadata.find? "hypergraph.similar_content_count" = some (toString others.length) := by
  have hgraph : (s.performAll (m.script s.graph record kernel.identity)).2.graph =
      nextAll s.graph (m.script s.graph record kernel.identity) := s.graph_performAll adds_script
  have noLoad : ∀ op ∈ m.script s.graph record kernel.identity, op ≠ .load := by
    rintro op hop rfl
    cases adds_script _ hop
  have hcontent : (nextAll s.graph (m.script s.graph record kernel.identity)).hasNode
      (contentId (flowOf record)) = true := hasNode_script
  obtain ⟨outcome, hreport, hcount⟩ := report_ok (m := m) hcontent
    (m.similarOf s.graph record kernel.identity).length
  refine ⟨nextAll s.graph (m.layScript s.graph record kernel.identity),
    m.similarOf s.graph record kernel.identity, outcome, _, ?_, ?_, rfl, ?_, ?_,
    flowId_report hreport, hcount⟩
  · rw [m.handle_eq name record kernel h, hreport]
  · rw [hgraph]
    exact founded_script h unnamed untouched
  · rw [(s.performAll_eq noLoad).2.1, hookCalls_script untouched]
  · rw [hgraph, hreport]

end Handling

/-- A graph with the content of another flow and a word of it, where the sequence is one short of its end. -/
def inhabited : Hypergraph :=
  { Hypergraph.applyAll ∅
      [.addNode { id := "other_content", attributes := Table.ofList [("type", "content")] },
        .addNode (wordNode "alpha"),
        .addEdge { id := "e", members := NameSet.ofNames ["other_content", "word_alpha"] }] with
    sequence := 0xfffffffffffffffe }

theorem wellFormed_inhabited : inhabited.WellFormed := by
  have h := Hypergraph.wellFormed_empty.applyAll
    [.addNode { id := "other_content", attributes := Table.ofList [("type", "content")] },
      .addNode (wordNode "alpha"),
      .addEdge { id := "e", members := NameSet.ofNames ["other_content", "word_alpha"] }]
  exact ⟨h.node_id, h.edge_id, h.members, h.clamped⟩

/-- A record with two words, two attributes that are mapped and one that is not. -/
def attributed : Record where
  content := "alpha bravo"
  attributes := Table.ofList [("cognitive.phase", "x"), ("lang", "en"), ("source", "mail")]

theorem untouched_inhabited : Untouched inhabited (flowOf attributed) where
  nodes id hid := by
    have hkeys : ∀ id ∈ inhabited.nodes.keys, Memory.beginsWith id (flowOf attributed ++ "_") = false := by
      decide +kernel
    exact hkeys id (Table.mem_keys_iff.2 hid)
  edges id hid := by
    have hkeys : ∀ id ∈ inhabited.edges.keys, Memory.beginsWith id (flowOf attributed ++ "_") = false := by
      decide +kernel
    exact hkeys id (Table.mem_keys_iff.2 hid)

/-- `handle_first_record` on a graph with one of the words and with a content that has it: this content is
similar. Three edges take a number, so the sequence comes to its end and stays there. -/
theorem handle_first_record_late :
    let m : Mapper := { ({} : Settings).mapper with similarityMinShared := 1 }
    let s : Substrate Store.Tables := { Substrate.ofStore {} with graph := inhabited }
    inhabited.WellFormed ∧ attributed.uuid? = none ∧ Untouched inhabited (flowOf attributed) ∧
      ∃ others outcome kernel' s', m.handler.handle "mapper" attributed { substrate := some s } =
          (.ok outcome, { kernel := kernel', substrate := some s' }) ∧
        "other_content" ∈ others ∧
        outcome.metadata.find? "hypergraph.similar_content_count" = some (toString (List.length others)) ∧
        s'.graph.sequence = 0xffffffffffffffff := by
  intro m s
  have unnamed : attributed.uuid? = none := by decide +kernel
  refine ⟨wellFormed_inhabited, unnamed, untouched_inhabited, ?_⟩
  obtain ⟨laid, others, outcome, s', hhandle, founded, -, -, -, -, hcount⟩ :=
    handle_first_record m "mapper" attributed {} (s := s) wellFormed_inhabited unnamed untouched_inhabited
  have hword : "word_alpha" ∈ laid.connected (contentId (flowOf attributed)) := by
    refine Hypergraph.mem_connected.2 ⟨by decide +kernel,
      numberedId (flowOf attributed) "content_edge" inhabited.sequence,
      wordsEdge (flowOf attributed) inhabited.sequence (m.wordsOf attributed), ?_, ?_, ?_⟩
    · rw [founded.laidEdges]
      decide +kernel
    · decide +kernel
    · decide +kernel
  have hother : "word_alpha" ∈ laid.connected "other_content" := by
    refine Hypergraph.mem_connected.2 ⟨by decide, "e",
      { id := "e", members := NameSet.ofNames ["other_content", "word_alpha"] }, ?_, by decide, by decide⟩
    rw [founded.laidEdges]
    decide +kernel
  have hsimilar : "other_content" ∈ others := by
    refine (founded.similar _).2 ⟨by decide +kernel,
      ⟨{ id := "other_content", attributes := Table.ofList [("type", "content")] }, ?_, by decide⟩, ?_⟩
    · rw [founded.laidNodes]
      decide +kernel
    · exact List.length_pos_of_mem
        (List.mem_filter.2 ⟨NameSet.mem_names.2 hword, decide_eq_true hother⟩)
  have hdraws : m.recordDraws attributed others = 3 := by
    have hwords : m.wordDraws attributed = 1 := by decide +kernel
    have hcluster : clusterDraws attributed = 1 := by decide +kernel
    rw [recordDraws, hwords, hcluster, if_neg (List.ne_nil_of_mem hsimilar)]
  refine ⟨others, outcome, _, s', hhandle, hsimilar, hcount, ?_⟩
  rw [founded.sequence, hdraws]
  decide +kernel

end Mapper

end ResonantGraph
