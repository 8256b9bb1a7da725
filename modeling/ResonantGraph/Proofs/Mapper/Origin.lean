import ResonantGraph.Proofs.Mapper.Records

/-!
# Where identifiers come from

A mapper takes a record for one of a known flow if there is a node under the identifier of its content. The
nodes that a unit has added by then are its root and, of every record that was taken in, the content, the
words and the attributes (`Mapper.hasNode_mapAll_iff`). The identifier of a content is that of the root of no
unit, and it tells the flow. It can be that of a word, or of an attribute of another flow, and then a record
of a new flow is mistaken for one that was mapped before (`Mapper.Mistakable`). `Mapper.process_new_flow`
says that this is the only way, and that flows which are named by their content are safe.
-/

namespace ResonantGraph

open Operation (nextAll nodesOf)

namespace Mapper

variable {m : Mapper} {g : Hypergraph} {record : Record} {identity : Identity}

/-! ### Identifiers of nodes -/

/-- The identifiers of the nodes of a record. -/
def idsOf (m : Mapper) (record : Record) : List NodeId :=
  contentId (flowOf record) :: (m.wordsOf record).map wordId ++
    attributeIds (flowOf record) (mappedAttributes record)

/-- Of records in order, those that are taken in, where some identifiers are in use at the beginning. -/
def takenIn (m : Mapper) : List NodeId → List Record → List Record
  | _, [] => []
  | ids, record :: records =>
    if contentId (flowOf record) ∈ ids then m.takenIn ids records
    else record :: m.takenIn (ids ++ m.idsOf record) records

theorem ids_elementsScript :
    (nodesOf (m.elementsScript g record identity)).map (·.id) =
      contentId (flowOf record) :: (m.wordsOf record).map wordId ++
        attributeIds (flowOf record) (attributesNew g record) := by
  rw [nodesOf_elementsScript, List.map_append, List.map_cons, List.map_map, List.map_map]
  rfl

/-- **What a record adds to the identifiers of nodes**: all of its own, or nothing if its content is
there. -/
theorem hasNode_script_iff (id : NodeId) :
    (nextAll g (m.script g record identity)).hasNode id = true ↔
      g.hasNode id = true ∨ g.hasNode (contentId (flowOf record)) = false ∧ id ∈ m.idsOf record := by
  rw [Operation.hasNode_nextAll_iff adds_script, ← List.mem_map]
  cases known : g.hasNode (contentId (flowOf record)) with
  | true =>
    -- nothing is added
    rw [script_known known]
    refine or_congr_right ⟨fun hmem => ?_, fun hand => ?_⟩
    · cases hmem
    · cases hand.1
  | false =>
    rw [script_new known, Operation.nodesOf_append, nodesOf_similarityScript, List.append_nil,
      ids_elementsScript]
    unfold idsOf
    simp only [List.mem_append, true_and]
    -- an attribute that is not new has a node already
    constructor
    · rintro (hold | hcontent | hattribute)
      · exact .inl hold
      · exact .inr (.inl hcontent)
      · obtain ⟨a, ha, rfl⟩ := List.mem_map.1 hattribute
        exact .inr (.inr (List.mem_map_of_mem (List.mem_of_mem_filter ha)))
    · rintro (hold | hcontent | hattribute)
      · exact .inl hold
      · exact .inr (.inl hcontent)
      · obtain ⟨a, ha, rfl⟩ := List.mem_map.1 hattribute
        cases hnode : g.hasNode (attributeId (flowOf record) a.1) with
        | true => exact .inl rfl
        | false =>
          have hnew : a ∈ attributesNew g record := List.mem_filter.2 ⟨ha, by rw [hnode]; rfl⟩
          exact .inr (.inr (List.mem_map_of_mem hnew))

/-- **The identifiers of nodes after records**, where those at the beginning are listed. -/
theorem hasNode_mapAll_iff (records : List Record) {ids : List NodeId}
    (hids : ∀ id, g.hasNode id = true ↔ id ∈ ids) (id : NodeId) :
    (m.mapAll identity g records).hasNode id = true ↔
      id ∈ ids ∨ ∃ record ∈ m.takenIn ids records, id ∈ m.idsOf record := by
  -- over the records; what one adds is listed for those after it
  induction records generalizing g ids with
  | nil => simp [mapAll, takenIn, hids]
  | cons record records ih =>
    have hcontent := hids (contentId (flowOf record))
    rw [mapAll_cons]
    unfold takenIn
    by_cases known : contentId (flowOf record) ∈ ids
    · rw [if_pos known]
      refine ih fun id => ?_
      rw [hasNode_script_iff, hcontent.2 known, hids]
      simp
    · rw [if_neg known]
      have new : g.hasNode (contentId (flowOf record)) = false := by
        rw [← Bool.not_eq_true, hcontent]
        exact known
      have hnext (id : NodeId) : (nextAll g (m.script g record identity)).hasNode id = true ↔
          id ∈ ids ++ m.idsOf record := by
        rw [hasNode_script_iff, new, hids, List.mem_append]
        simp
      rw [ih hnext, List.mem_append, or_assoc]
      simp

/-! ### Mistaken flows -/

/-- A record of a new flow is mistaken for one that was mapped: a word has the identifier of its content, or
an attribute has. -/
def Mistakable (m : Mapper) (taken : List Record) (record : Record) : Prop :=
  (flowOf record = "word" ∧ ∃ other ∈ taken, "content" ∈ m.wordsOf other) ∨
    ∃ other ∈ taken, ∃ a ∈ mappedAttributes other,
      attributeId (flowOf other) a.1 = contentId (flowOf record)

/-- The content of a flow has one of the identifiers of a record of another flow if the two are mixed up. -/
theorem contentId_mem_idsOf_iff {other : Record} (hne : flowOf other ≠ flowOf record) :
    contentId (flowOf record) ∈ m.idsOf other ↔
      (flowOf record = "word" ∧ "content" ∈ m.wordsOf other) ∨
        ∃ a ∈ mappedAttributes other, attributeId (flowOf other) a.1 = contentId (flowOf record) := by
  unfold idsOf attributeIds
  rw [List.mem_append, List.mem_cons, List.mem_map, List.mem_map]
  refine or_congr_left ⟨?_, ?_⟩
  · rintro (hcontent | ⟨word, hword, hid⟩)
    · exact absurd (contentId_injective hcontent).symm hne
    · obtain ⟨rfl, hflow⟩ := (wordId_eq_contentId_iff (lowLine_notMem_of_mem_wordsOf hword)).1 hid
      exact ⟨hflow, hword⟩
  · rintro ⟨hflow, hword⟩
    rw [hflow]
    exact .inr ⟨"content", hword, rfl⟩

theorem mem_of_mem_takenIn {ids : List NodeId} {records : List Record} {other : Record}
    (h : other ∈ m.takenIn ids records) : other ∈ records := by
  induction records generalizing ids with
  | nil => cases h
  | cons record records ih =>
    unfold takenIn at h
    split at h
    · exact List.mem_cons_of_mem _ (ih h)
    · rcases List.mem_cons.1 h with rfl | hrest
      · exact List.mem_cons_self
      · exact List.mem_cons_of_mem _ (ih hrest)

/-- **When a record of a new flow is mistaken**, where a unit has begun with its root and nothing else. -/
theorem hasNode_contentId_iff {unit : String} {records : List Record}
    (hroot : ∀ id, g.hasNode id = true ↔ id ∈ [Processor.rootId unit])
    (hflow : flowOf record ∉ records.map flowOf) :
    (m.mapAll identity g records).hasNode (contentId (flowOf record)) = true ↔
      m.Mistakable (m.takenIn [Processor.rootId unit] records) record := by
  have hother (other : Record) (hmem : other ∈ m.takenIn [Processor.rootId unit] records) :
      flowOf other ≠ flowOf record := by
    intro heq
    rw [← heq] at hflow
    exact hflow (List.mem_map_of_mem (mem_of_mem_takenIn hmem))
  -- the root is not in the way, and the contents that are there are of other flows
  rw [hasNode_mapAll_iff records hroot, List.mem_singleton,
    or_iff_right (rootId_ne_contentId unit (flowOf record)).symm]
  unfold Mistakable
  constructor
  · rintro ⟨other, hmem, hid⟩
    rcases (contentId_mem_idsOf_iff (hother other hmem)).1 hid with ⟨hflow, hword⟩ | hattribute
    · exact .inl ⟨hflow, other, hmem, hword⟩
    · exact .inr ⟨other, hmem, hattribute⟩
  · rintro (⟨hflow, other, hmem, hword⟩ | ⟨other, hmem, hattribute⟩)
    · exact ⟨other, hmem, (contentId_mem_idsOf_iff (hother other hmem)).2 (.inl ⟨hflow, hword⟩)⟩
    · exact ⟨other, hmem, (contentId_mem_idsOf_iff (hother other hmem)).2 (.inr hattribute)⟩

/-- A flow that is named by its content is not mistaken. -/
theorem not_mistakable_unnamed (h : record.uuid? = none) (taken : List Record) :
    ¬ m.Mistakable taken record := by
  rintro (⟨hflow, -⟩ | ⟨other, -, a, -, hid⟩)
  · exact flowOf_ne_word h hflow
  · exact attributeId_ne_contentId_flowOf h _ _ hid

/-! ### Content nodes -/

/-- A record has got a content node, where there was none. -/
structure ContentAdded (g g' : Hypergraph) (record : Record) : Prop where
  /-- There was none. -/
  new : g.hasNode (contentId (flowOf record)) = false
  /-- There is one, and it tells the flow and the content. -/
  node : ∃ node, g'.nodes.find? (contentId (flowOf record)) = some node ∧
    node.attributes.find? "type" = some "content" ∧
    node.attributes.find? "flow_id" = some (flowOf record) ∧
    node.attributes.find? "content_hash" = some (Fingerprint.hexOfText record.content)

/-- Where the identifier is free, the content node comes in under it. -/
theorem contentAdded_iff :
    ContentAdded g (nextAll g (m.script g record identity)) record ↔
      g.hasNode (contentId (flowOf record)) = false := by
  refine ⟨ContentAdded.new, fun new => ⟨new, ?_⟩⟩
  obtain ⟨level, hnode⟩ : ∃ level,
    (nextAll g (m.script g record identity)).nodes.find? (contentId (flowOf record)) =
      some ((contentNode (flowOf record) record.content identity).setActivation level) :=
    find?_contentNode_script new
  exact ⟨_, hnode, attributes_contentNode (flowOf record) record.content identity⟩

/-! ### Units -/

section Process

variable {σ : Type} [Store σ] {p : Processor σ}

/-- **Whether a record of a new flow gets its content node.** A unit with a mapper has been set up on a
substrate without nodes and edges and has processed records. Another record, of a flow that none of them
had, succeeds, and a content node is added for it unless it is mistaken for one of them. If the record does
not name its flow, it is never mistaken. -/
theorem process_new_flow (hp : p.handler = m.handler) (kernel : Kernel) {s : Substrate σ}
    (h : s.graph.Bare) {records : List Record} {record : Record}
    (hflow : flowOf record ∉ records.map flowOf) :
    ∃ (outcomes : List Outcome) (outcome : Outcome) (kernel₁ kernel₂ : Kernel)
        (before after : Substrate σ),
      p.processAll records (p.setUp { kernel, substrate := some s }) =
        (outcomes.map .ok, { kernel := kernel₁, substrate := some before }) ∧
      p.process record { kernel := kernel₁, substrate := some before } =
        (.ok outcome, { kernel := kernel₂, substrate := some after }) ∧
      (ContentAdded before.graph after.graph record ↔
        ¬ m.Mistakable (m.takenIn [Processor.rootId p.name] records) record) ∧
      (record.uuid? = none → ContentAdded before.graph after.graph record) := by
  obtain ⟨outcomes, kernel₁, before, hbefore, hgraph⟩ := processAll_setUp hp records kernel h
  have hwf : before.graph.WellFormed := by
    rw [hgraph]
    exact wellFormed_mapAll (Processor.wellFormed_seeded h) records
  obtain ⟨outcome, kernel₂, after, hafter, -, hgraph', -⟩ := process_ok hp record kernel₁ hwf
  have hadded : ContentAdded before.graph after.graph record ↔
      ¬ m.Mistakable (m.takenIn [Processor.rootId p.name] records) record := by
    rw [hgraph', contentAdded_iff, ← hasNode_contentId_iff (Processor.hasNode_seeded h) hflow, ← hgraph,
      Bool.not_eq_true]
  refine ⟨outcomes, outcome, kernel₁, kernel₂, before, after, hbefore, hafter, hadded, fun hunnamed => ?_⟩
  exact hadded.2 (not_mistakable_unnamed hunnamed _)

end Process

/-- `process_new_flow` for a record that does not name its flow, after one that does. -/
theorem process_new_flow_unnamed :
    let m : Mapper := ({} : Settings).mapper
    let p : Processor Store.Tables := { name := "mapper", handler := m.handler }
    let record : Record := { content := "alpha bravo" }
    (Substrate.ofStore ({} : Store.Tables)).graph.Bare ∧
      flowOf record ∉ [namedRecord "word" "content"].map flowOf ∧ record.uuid? = none ∧
      ∃ (outcomes : List Outcome) (outcome : Outcome) (kernel₁ kernel₂ : Kernel)
        (before after : Substrate Store.Tables),
        p.processAll [namedRecord "word" "content"] (p.setUp { substrate := some (.ofStore {}) }) =
          (outcomes.map .ok, { kernel := kernel₁, substrate := some before }) ∧
        p.process record { kernel := kernel₁, substrate := some before } =
          (.ok outcome, { kernel := kernel₂, substrate := some after }) ∧
        ContentAdded before.graph after.graph record := by
  intro m p record
  have hflow : flowOf record ∉ [namedRecord "word" "content"].map flowOf := by decide +kernel
  have hunnamed : record.uuid? = none := by decide
  have bare := Substrate.bare_ofStore ({} : Store.Tables)
  obtain ⟨outcomes, outcome, kernel₁, kernel₂, before, after, hbefore, hafter, -, hadded⟩ :=
    process_new_flow (p := p) (m := m) rfl {} bare hflow
  exact ⟨bare, hflow, hunnamed, outcomes, outcome, kernel₁, kernel₂, before, after, hbefore, hafter,
    hadded hunnamed⟩

/-- Not every record of a new flow gets its content node: the word `content` stands in the place of the
content of a flow that is called `word`. -/
theorem exists_mistaken_flow :
    ¬ ∀ (m : Mapper) (p : Processor Store.Tables) (kernel : Kernel) (s : Substrate Store.Tables)
      (records : List Record) (record : Record), p.handler = m.handler → s.graph.Bare →
      flowOf record ∉ records.map flowOf →
      ∃ (outcomes : List Outcome) (outcome : Outcome) (kernel₁ kernel₂ : Kernel)
        (before after : Substrate Store.Tables),
        p.processAll records (p.setUp { kernel, substrate := some s }) =
          (outcomes.map .ok, { kernel := kernel₁, substrate := some before }) ∧
        p.process record { kernel := kernel₁, substrate := some before } =
          (.ok outcome, { kernel := kernel₂, substrate := some after }) ∧
        ContentAdded before.graph after.graph record := by
  intro hall
  let m : Mapper := ({} : Settings).mapper
  let p : Processor Store.Tables := { name := "mapper", handler := m.handler }
  let first : Record := { content := "content" }
  let record : Record := namedRecord "word" "alpha"
  have hflow : flowOf record ∉ [first].map flowOf := by decide +kernel
  have bare := Substrate.bare_ofStore ({} : Store.Tables)
  obtain ⟨_, _, _, _, before, _, hbefore, -, hadded⟩ :=
    hall m p {} (.ofStore {}) [first] record rfl bare hflow
  obtain ⟨_, _, before', hbefore', hgraph⟩ :=
    processAll_setUp (p := p) (m := m) rfl [first] {} bare
  -- there is but one substrate that the first record leaves
  rw [hbefore', Prod.mk.injEq] at hbefore
  cases hbefore.2
  have htaken : first ∈ m.takenIn [Processor.rootId p.name] [first] := by
    have hroot : contentId (flowOf first) ∉ [Processor.rootId p.name] := by
      rw [List.mem_singleton]
      exact (rootId_ne_contentId _ _).symm
    unfold takenIn
    rw [if_neg hroot]
    exact List.mem_cons_self
  have hmistaken : m.Mistakable (m.takenIn [Processor.rootId p.name] [first]) record :=
    .inl ⟨by decide +kernel, first, htaken, by decide +kernel⟩
  have hnew := hadded.new
  rw [hgraph, (hasNode_contentId_iff (Processor.hasNode_seeded bare) hflow).2 hmistaken] at hnew
  cases hnew

end Mapper

end ResonantGraph
