import ResonantGraph.Proofs.Mapper.Joining
import ResonantGraph.Proofs.Mapper.Structure
import Mathlib.Data.List.Perm.Subperm

/-!
# The order of records

Similar contents are found when the later of two records comes in. At that time the content of the earlier
one is still joined to all its words (`Mapper.Present`), the later one has just been joined to its own, and
so they share at least the words that their records have in common. If these are enough, one edge joins both
contents (`Mapper.Present.joined`) and stays. So which two contents are joined by such an edge because of
their words does not depend on the order, though the edges themselves do: one edge joins a content to all
that were there, and contents that are joined have more to share from then on.

With `Mapper.sameStructure_mapAll`, this is what is independent of the order in which a unit processes
records (`Mapper.processAll_perm`).
-/

namespace ResonantGraph

open Operation (nextAll edgesOf)

/-! ### Common names -/

namespace NameSet

theorem mem_common {s t : NameSet} {name : String} :
    name ∈ common s.names t.names ↔ name ∈ s ∧ name ∈ t := by
  rw [common_eq_filter s.names_ascending t.names_ascending, List.mem_filter, List.contains_iff_mem,
    mem_names, mem_names]

theorem nodup_common (s t : NameSet) : (common s.names t.names).Nodup := by
  rw [common_eq_filter s.names_ascending t.names_ascending]
  exact s.nodup_names.filter _

/-- Names that two sets have in common are, under other names, common to two others. -/
theorem length_common_le {s t s' t' : NameSet} {f : String → String} (hf : Function.Injective f)
    (hs : ∀ name ∈ s, f name ∈ s') (ht : ∀ name ∈ t, f name ∈ t') :
    (common s.names t.names).length ≤ (common s'.names t'.names).length := by
  have hsub : (common s.names t.names).map f ⊆ common s'.names t'.names := by
    intro name hname
    obtain ⟨old, hold, rfl⟩ := List.mem_map.1 hname
    obtain ⟨hleft, hright⟩ := mem_common.1 hold
    exact mem_common.2 ⟨hs old hleft, ht old hright⟩
  have hnodup : ((common s.names t.names).map f).Nodup := (nodup_common s t).map hf
  calc (common s.names t.names).length
      _ = ((common s.names t.names).map f).length := (List.length_map ..).symm
      _ ≤ (common s'.names t'.names).length := (hnodup.subperm hsub).length_le

theorem length_common_comm (s t : NameSet) :
    (common s.names t.names).length = (common t.names s.names).length := by
  have hperm : (common s.names t.names).Perm (common t.names s.names) := by
    refine (List.perm_ext_iff_of_nodup (nodup_common s t) (nodup_common t s)).2 fun name => ?_
    rw [mem_common, mem_common, and_comm]
  exact hperm.length_eq

end NameSet

theorem Hypergraph.JoinedBy.symm {g : Hypergraph} {type : String} {u v : NodeId}
    (h : g.JoinedBy type u v) : g.JoinedBy type v u := by
  obtain ⟨id, edge, hedge, hu, htype, hv⟩ := h
  exact ⟨id, edge, hedge, hv, htype, hu⟩

namespace Mapper

variable {m : Mapper} {g g' : Hypergraph} {record other : Record} {records records' : List Record}
  {identity : Identity}

/-! ### Contents that are there -/

/-- The content of a record is there and joined to its words. -/
structure Present (m : Mapper) (g : Hypergraph) (record : Record) : Prop where
  /-- The content node tells what it is. -/
  node : ∃ node, g.nodes.find? (contentId (flowOf record)) = some node ∧
    node.id = contentId (flowOf record) ∧ node.attributes.find? "type" = some "content"
  /-- Each word is connected to it. -/
  words : ∀ word ∈ m.wordsOf record, wordId word ∈ g.connected (contentId (flowOf record))

theorem Present.grows (h : m.Present g record) (hgrows : g.Grows g') : m.Present g' record where
  node := by
    obtain ⟨node, hnode, hid, htype⟩ := h.node
    obtain ⟨level, hlevel⟩ := hgrows.nodes _ node hnode
    exact ⟨node.setActivation level, hlevel, hid, htype⟩
  words word hword := hgrows.connected (h.words word hword)

/-- A new content is joined to its words before similar contents are looked for. -/
theorem connected_elementsScript (h : Awaits g records) (hrecord : record ∈ records) {word : String}
    (hword : word ∈ m.wordsOf record) :
    wordId word ∈ (nextAll g (m.elementsScript g record identity)).connected
      (contentId (flowOf record)) := by
  have vacant : g.hasEdge (wordsEdge (flowOf record) g.sequence (m.wordsOf record)).id = false :=
    (h.charted_length hrecord).vacant (h.new record hrecord) .words g.sequence
  have hedges : wordEdges (flowOf record) (m.wordsOf record) g.sequence =
      [wordsEdge (flowOf record) g.sequence (m.wordsOf record)] := if_neg (List.ne_nil_of_mem hword)
  have hfind : (nextAll g (m.elementsScript g record identity)).edges.find?
      (wordsEdge (flowOf record) g.sequence (m.wordsOf record)).id =
        some (wordsEdge (flowOf record) g.sequence (m.wordsOf record)) := by
    rw [Operation.find?_edges_nextAll adds_elementsScript supplied_elementsScript,
      Table.contains_eq_false_iff.1 vacant, Option.none_or, edgesOf_elementsScript, hedges]
    exact List.find?_cons_of_pos (decide_eq_true rfl)
  refine Hypergraph.mem_connected.2 ⟨?_, _, _, hfind, ?_, ?_⟩
  · exact wordId_ne_contentId_flowOf (h.unnamed record hrecord) word
  · exact mem_members_wordsEdge.2 (.inl rfl)
  · exact mem_members_wordsEdge.2 (.inr ⟨word, hword, rfl⟩)

/-- **A record leaves its content present.** -/
theorem present_script (h : Awaits g records) (hrecord : record ∈ records) :
    m.Present (nextAll g (m.script g record identity)) record where
  node := by
    obtain ⟨level, hnode⟩ : ∃ level,
      (nextAll g (m.script g record identity)).nodes.find? (contentId (flowOf record)) =
        some ((contentNode (flowOf record) record.content identity).setActivation level) :=
      find?_contentNode_script (h.new record hrecord)
    exact ⟨_, hnode, rfl, (attributes_contentNode (flowOf record) record.content identity).1⟩
  words word hword := by
    rw [script_new (h.new record hrecord), Operation.nextAll_append]
    exact (Operation.grows_nextAll adds_similarityScript).connected
      (connected_elementsScript h hrecord hword)

/-! ### Similar contents -/

/-- A content that is there is similar to a new one if their records have enough words in common. -/
theorem Present.mem_similarOf (hpresent : m.Present g other) (h : Awaits g records)
    (hrecord : record ∈ records) (hne : flowOf other ≠ flowOf record)
    (enough : m.similarityMinShared ≤ (NameSet.common (m.wordsOf record) (m.wordsOf other)).length) :
    contentId (flowOf other) ∈ m.similarOf g record identity := by
  rw [similarOf_new (h.new record hrecord)]
  have hgrows : g.Grows (nextAll g (m.elementsScript g record identity)) :=
    Operation.grows_nextAll adds_elementsScript
  obtain ⟨⟨node, hnode, hid, htype⟩, hwords⟩ := hpresent.grows hgrows
  have hwords' (word : String) (hword : word ∈ m.wordsOf record) :
      wordId word ∈ (nextAll g (m.elementsScript g record identity)).connected
        (contentId (flowOf record)) := connected_elementsScript h hrecord hword
  generalize nextAll g (m.elementsScript g record identity) = g' at hnode hwords hwords' ⊢
  -- both contents are connected to the words in common
  have hshared : (NameSet.common (m.wordsOf record) (m.wordsOf other)).length ≤
      (NameSet.common (g'.connected (contentId (flowOf record))).names
        (g'.connected (contentId (flowOf other))).names).length :=
    NameSet.length_common_le (fun _ _ => wordId_injective)
      (fun word hword => hwords' word (NameSet.mem_names.2 hword))
      fun word hword => hwords word (NameSet.mem_names.2 hword)
  have hcontent : contentId (flowOf other) ∈ g'.nodesWithAttribute "type" "content" := by
    unfold Hypergraph.nodesWithAttribute
    rw [← hid]
    refine List.mem_map_of_mem (List.mem_filter.2 ⟨Table.mem_values_iff.2 ⟨_, hnode⟩, ?_⟩)
    exact decide_eq_true htype
  unfold similarTo
  refine List.mem_filter.2 ⟨hcontent, ?_⟩
  rw [Bool.and_eq_true, decide_eq_true_eq, decide_eq_true_eq]
  exact ⟨fun heq => hne (contentId_injective heq), enough.trans hshared⟩

/-- **A record is joined to a content that is there** if they have enough words in common. -/
theorem Present.joined (hpresent : m.Present g other) (h : Awaits g records) (hrecord : record ∈ records)
    (hne : flowOf other ≠ flowOf record)
    (enough : m.similarityMinShared ≤ (NameSet.common (m.wordsOf record) (m.wordsOf other)).length) :
    (nextAll g (m.script g record identity)).JoinedBy "similarity"
      (contentId (flowOf record)) (contentId (flowOf other)) := by
  have hsimilar : contentId (flowOf other) ∈ m.similarOf g record identity :=
    hpresent.mem_similarOf h hrecord hne enough
  have new := h.new record hrecord
  have fresh : Operation.Fresh g (m.script g record identity) := (h.charted_length hrecord).fresh
  have hedge : similarityEdge (flowOf record)
      (nextAll g (m.elementsScript g record identity)).sequence (m.similarOf g record identity) ∈
        edgesOf (m.script g record identity) := by
    refine (mem_edgesOf_script new).2 (.inr (.inr ?_))
    unfold similarityEdges
    rw [if_neg (List.ne_nil_of_mem hsimilar)]
    exact List.mem_singleton.2 rfl
  rw [joinedBy_script_iff h.wellFormed new]
  exact ⟨_, hedge, fresh.vacant _ hedge, by rfl, mem_members_similarityEdge.2 (.inr hsimilar)⟩

/-- Some time a record comes in that has enough words in common with one that was there. -/
theorem Present.joined_mapAll (hpresent : m.Present g other) (h : Awaits g records)
    (hrecord : record ∈ records) (hne : ∀ record ∈ records, flowOf other ≠ flowOf record)
    (enough : m.similarityMinShared ≤ (NameSet.common (m.wordsOf record) (m.wordsOf other)).length) :
    (m.mapAll identity g records).JoinedBy "similarity"
      (contentId (flowOf record)) (contentId (flowOf other)) := by
  -- over the records, the content staying present until it is the turn of the one in question
  induction records generalizing g with
  | nil => cases hrecord
  | cons first records ih =>
    have hgrows : g.Grows (nextAll g (m.script g first identity)) := Operation.grows_nextAll adds_script
    rw [mapAll_cons]
    rcases List.mem_cons.1 hrecord with rfl | hlater
    · have hjoined : (nextAll g (m.script g record identity)).JoinedBy "similarity"
          (contentId (flowOf record)) (contentId (flowOf other)) :=
        hpresent.joined h hrecord (hne record hrecord) enough
      exact (grows_mapAll records).joinedBy hjoined
    · exact ih (hpresent.grows hgrows) h.next hlater (List.forall_mem_cons.1 hne).2

/-- **Any two records with enough words in common are joined** in the end, whichever comes first. -/
theorem joined_mapAll (h : Awaits g records) (hrecord : record ∈ records) (hother : other ∈ records)
    (hne : record ≠ other)
    (enough : m.similarityMinShared ≤ (NameSet.common (m.wordsOf record) (m.wordsOf other)).length) :
    (m.mapAll identity g records).JoinedBy "similarity"
      (contentId (flowOf record)) (contentId (flowOf other)) := by
  -- the first of the two to come in is the first of some rest of the list
  induction records generalizing g with
  | nil => cases hrecord
  | cons first records ih =>
    have hflows (later : Record) (hlater : later ∈ records) : flowOf first ≠ flowOf later :=
      h.flow_ne hlater
    have hpresent : m.Present (nextAll g (m.script g first identity)) first :=
      present_script h List.mem_cons_self
    rw [mapAll_cons]
    rcases List.mem_cons.1 hrecord with rfl | hlater
    · rcases List.mem_cons.1 hother with rfl | hlater
      · exact absurd rfl hne
      · -- the other comes later, and it is the one that looks for similar contents
        rw [wordsOf, wordsOf, NameSet.length_common_comm] at enough
        exact (hpresent.joined_mapAll h.next hlater hflows enough).symm
    · rcases List.mem_cons.1 hother with rfl | hlater'
      · exact hpresent.joined_mapAll h.next hlater hflows enough
      · exact ih h.next hlater hlater'

/-! ### Units -/

section Process

variable {σ : Type} [Store σ] {p : Processor σ}

/-- **The order of records does not matter.** A unit with a mapper is set up on a substrate without nodes
and edges and processes records that do not name their flows, all of different flows. In another order it
processes them as well, and there are the same nodes, activations aside, and the same edges to words and
attributes, numbers aside. In both orders any two contents with enough words in common are joined by an edge
among similar contents. -/
theorem processAll_perm (hp : p.handler = m.handler) (kernel : Kernel) {s : Substrate σ}
    (h : s.graph.Bare) (hperm : records.Perm records')
    (unnamed : ∀ record ∈ records, record.uuid? = none) (distinct : (records.map flowOf).Nodup) :
    ∃ (outcomes outcomes' : List Outcome) (kernel₁ kernel₂ : Kernel) (t t' : Substrate σ),
      p.processAll records (p.setUp { kernel, substrate := some s }) =
        (outcomes.map .ok, { kernel := kernel₁, substrate := some t }) ∧
      p.processAll records' (p.setUp { kernel, substrate := some s }) =
        (outcomes'.map .ok, { kernel := kernel₂, substrate := some t' }) ∧
      t.graph.SameStructure t'.graph ∧
      ∀ record ∈ records, ∀ other ∈ records, record ≠ other →
        m.similarityMinShared ≤ (NameSet.common (m.wordsOf record) (m.wordsOf other)).length →
        t.graph.JoinedBy "similarity" (contentId (flowOf record)) (contentId (flowOf other)) ∧
          t'.graph.JoinedBy "similarity" (contentId (flowOf record)) (contentId (flowOf other)) := by
  have hawaits : Awaits (p.seeded s.graph) records := awaits_seeded h unnamed distinct
  obtain ⟨outcomes, kernel₁, t, hrun, hgraph⟩ := processAll_setUp hp records kernel h
  obtain ⟨outcomes', kernel₂, t', hrun', hgraph'⟩ := processAll_setUp hp records' kernel h
  refine ⟨outcomes, outcomes', kernel₁, kernel₂, t, t', hrun, hrun', ?_, ?_⟩
  · rw [hgraph, hgraph']
    exact sameStructure_mapAll hawaits hperm
  · intro record hrecord other hother hne enough
    rw [hgraph, hgraph']
    refine ⟨joined_mapAll hawaits hrecord hother hne enough, ?_⟩
    exact joined_mapAll (hawaits.perm hperm) (hperm.mem_iff.1 hrecord) (hperm.mem_iff.1 hother) hne enough

end Process

/-- `processAll_perm` for two records with two words in common. -/
theorem processAll_perm_swap :
    let m : Mapper := ({} : Settings).mapper
    let p : Processor Store.Tables := { name := "mapper", handler := m.handler }
    let first : Record := { content := "resonant graphs remember" }
    let second : Record := { content := "graphs remember words", attributes := Table.ofList [("topic", "x")] }
    (Substrate.ofStore ({} : Store.Tables)).graph.Bare ∧ [first, second].Perm [second, first] ∧
      (∀ record ∈ [first, second], record.uuid? = none) ∧ ([first, second].map flowOf).Nodup ∧
      m.similarityMinShared ≤ (NameSet.common (m.wordsOf first) (m.wordsOf second)).length ∧
      ∃ (outcomes outcomes' : List Outcome) (kernel₁ kernel₂ : Kernel) (t t' : Substrate Store.Tables),
        p.processAll [first, second] (p.setUp { substrate := some (.ofStore {}) }) =
          (outcomes.map .ok, { kernel := kernel₁, substrate := some t }) ∧
        p.processAll [second, first] (p.setUp { substrate := some (.ofStore {}) }) =
          (outcomes'.map .ok, { kernel := kernel₂, substrate := some t' }) ∧
        t.graph.SameStructure t'.graph ∧
        t'.graph.JoinedBy "similarity" (contentId (flowOf first)) (contentId (flowOf second)) := by
  intro m p first second
  have hperm : [first, second].Perm [second, first] := .swap ..
  have unnamed : ∀ record ∈ [first, second], record.uuid? = none := by decide
  have distinct : ([first, second].map flowOf).Nodup := by decide +kernel
  have enough : m.similarityMinShared ≤ (NameSet.common (m.wordsOf first) (m.wordsOf second)).length := by
    decide +kernel
  have bare := Substrate.bare_ofStore ({} : Store.Tables)
  obtain ⟨outcomes, outcomes', kernel₁, kernel₂, t, t', hrun, hrun', hsame, hjoined⟩ :=
    processAll_perm (p := p) (m := m) rfl {} bare hperm unnamed distinct
  have hne : first ≠ second := by
    intro heq
    have hcontent := congrArg Record.content heq
    revert hcontent
    decide
  obtain ⟨-, hjoined'⟩ := hjoined first List.mem_cons_self second (List.mem_cons_of_mem _ (List.mem_singleton.2 rfl))
    hne enough
  exact ⟨bare, hperm, unnamed, distinct, enough, outcomes, outcomes', kernel₁, kernel₂, t, t', hrun, hrun',
    hsame, hjoined'⟩

end Mapper

end ResonantGraph
