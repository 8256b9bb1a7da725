import ResonantGraph.Processor.Mapper
import ResonantGraph.Proofs.Hypergraph.WellFormed
import ResonantGraph.Proofs.Substrate.Isolation
import ResonantGraph.Proofs.Substrate.Reached

/-!
# What a mapper asks for

A mapper is a client of a substrate like any other. What it asks for when it maps a record is a history
of operations, the *script* of the record, and follows from the live graph at the start
(`Mapper.script`). Over any store, mapping a record is performing its script (`Mapper.mapRecord_eq`): no
step of it is refused for want of a member, since what an edge is to join was added before, or found in
the graph.

The operations of a script add and never take away (`Operation.adds`), so nodes and edges that are there
stay.
-/

namespace ResonantGraph

open Operation (nextAll)

/-! ### Operations that add -/

namespace Operation

/-- Whether an operation adds elements or moves activations and the sequence. -/
def adds : Operation → Bool
  | .addNode _ | .addEdge _ | .nextSequence | .propagate _ _ => true
  | _ => false

/-- Whether an operation adds elements or moves the sequence, and leaves activations as they are. -/
def lays : Operation → Bool
  | .addNode _ | .addEdge _ | .nextSequence => true
  | _ => false

theorem adds_of_lays {op : Operation} (h : op.lays = true) : op.adds = true := by
  cases op <;> first | rfl | cases h

theorem mirroring_of_adds {op : Operation} (h : op.adds = true) : op.mirroring = true := by
  cases op <;> first | rfl | cases h

theorem nextAll_cons (g : Hypergraph) (op : Operation) (ops : List Operation) :
    nextAll g (op :: ops) = nextAll (op.next g) ops := rfl

theorem nextAll_append (g : Hypergraph) (ops ops' : List Operation) :
    nextAll g (ops ++ ops') = nextAll (nextAll g ops) ops' := List.foldl_append ..

theorem hasNode_next_addNode (g : Hypergraph) (node : Node) (id : NodeId) :
    (next g (.addNode node)).hasNode id = (decide (node.id = id) || g.hasNode id) := by
  change (g.addNode node).2.hasNode id = _
  unfold Hypergraph.addNode
  cases h : g.hasNode node.id with
  | true =>
    -- the identifier is taken, and stays so
    by_cases hid : node.id = id
    · rw [if_pos rfl, ← hid, h, Bool.or_true]
    · rw [if_pos rfl, decide_eq_false hid, Bool.false_or]
  | false => exact Hypergraph.hasNode_putNode node id

theorem nodes_next_addEdge (g : Hypergraph) (edge : Edge) : (next g (.addEdge edge)).nodes = g.nodes :=
  (g.nodes_addEdge edge).1

variable {g : Hypergraph} {op : Operation} {ops : List Operation}

theorem hasNode_next (h : op.adds = true) {id : NodeId} (hid : g.hasNode id = true) :
    (op.next g).hasNode id = true := by
  cases op with
  | addNode node => rw [hasNode_next_addNode, hid, Bool.or_true]
  | addEdge edge =>
    have hnodes := nodes_next_addEdge g edge
    unfold Hypergraph.hasNode at hid ⊢
    rw [hnodes, hid]
  | propagate source initial => exact (g.hasNode_propagate source initial id).trans hid
  | nextSequence => exact hid
  | _ => cases h

theorem hasNode_nextAll (h : ∀ op ∈ ops, op.adds = true) {id : NodeId} (hid : g.hasNode id = true) :
    (nextAll g ops).hasNode id = true := by
  induction ops generalizing g with
  | nil => exact hid
  | cons op ops ih =>
    rw [List.forall_mem_cons] at h
    exact ih h.2 (hasNode_next h.1 hid)

end Operation

/-! ### Performing in parts -/

namespace Substrate

variable {σ : Type} [Store σ]

theorem state_performAll_append (s : Substrate σ) (ops ops' : List Operation) :
    (s.performAll (ops ++ ops')).2 = ((s.performAll ops).2.performAll ops').2 := by
  induction ops generalizing s with
  | nil => rfl
  | cons op ops ih => exact ih (s.perform op).2

theorem graph_perform (s : Substrate σ) {op : Operation} (h : op.adds = true) :
    (s.perform op).2.graph = op.next s.graph := by
  refine (s.perform_eq ?_).2.2
  rintro rfl
  cases h

theorem graph_performAll (s : Substrate σ) {ops : List Operation} (h : ∀ op ∈ ops, op.adds = true) :
    (s.performAll ops).2.graph = nextAll s.graph ops := by
  have noLoad : ∀ op ∈ ops, op ≠ .load := by
    rintro op hop rfl
    cases h _ hop
  exact (s.performAll_eq noLoad).2.2

/-- An edge is not refused for want of a member if all its members are stored. -/
theorem addEdge_ok (s : Substrate σ) {edge : Edge}
    (stored : ∀ id ∈ edge.members, s.graph.hasNode id = true) :
    ∃ added, s.addEdge edge = (.ok added, (s.perform (.addEdge edge)).2) := by
  have hnone : s.graph.missingMember? edge = none := Hypergraph.missingMember?_eq_none_iff.2 stored
  have hverdict : ∃ added, (s.graph.addEdge edge).1 = .ok added := by
    unfold Hypergraph.addEdge Hypergraph.putEdge
    rw [hnone]
    split
    · exact ⟨false, rfl⟩
    · exact ⟨true, rfl⟩
  obtain ⟨added, hadded⟩ := hverdict
  refine ⟨added, Prod.ext ?_ rfl⟩
  rw [addEdge_eq]
  exact hadded

theorem addNode_fst (s : Substrate σ) (node : Node) :
    (s.addNode node).1 = !s.graph.hasNode node.id := by
  rw [addNode_eq]
  dsimp only
  unfold Hypergraph.addNode
  cases s.graph.hasNode node.id <;> rfl

end Substrate

namespace Mapper

/-! ### Scripts -/

/-- What adds the words of a content, and the edge of a given number that joins it to them. -/
def wordsScript (flow : String) (words : List String) (n : UInt64) : List Operation :=
  words.map (fun word => .addNode (wordNode word)) ++
    if words = [] then [] else [.nextSequence, .addEdge (wordsEdge flow n words)]

/-- The attributes that have no node yet. -/
def newAttributes (g : Hypergraph) (flow : String) (attributes : List (String × String)) :
    List (String × String) :=
  attributes.filter fun a => !g.hasNode (attributeId flow a.1)

/-- What adds an attribute, and the edge that joins the content to it. -/
def attributeScript (flow : String) (a : String × String) : List Operation :=
  [.addNode (attributeNode flow a.1 a.2), .addEdge (attributeEdge flow a.1)]

/-- The identifiers of the nodes of attributes. -/
def attributeIds (flow : String) (attributes : List (String × String)) : List NodeId :=
  attributes.map fun a => attributeId flow a.1

/-- What adds attributes, and the edge of a given number that joins them all if there are several. -/
def attributesScript (flow : String) (attributes : List (String × String)) (n : UInt64) :
    List Operation :=
  attributes.flatMap (attributeScript flow) ++
    if attributes.length < 2 then []
    else [.nextSequence, .addEdge (clusterEdge flow n (attributeIds flow attributes))]

/-- What joins a content to others by an edge of a given number. -/
def similarityScript (flow : String) (others : List NodeId) (n : UInt64) : List Operation :=
  if others = [] then [] else [.nextSequence, .addEdge (similarityEdge flow n others)]

/-- The words of a record. -/
def wordsOf (m : Mapper) (record : Record) : List String :=
  (Words.ofText m.minWordLength record.content).names

/-- What adds the content of a record, and its words. -/
def contentScript (m : Mapper) (g : Hypergraph) (record : Record) (identity : Identity) :
    List Operation :=
  .addNode (contentNode (flowOf record) record.content identity) ::
    wordsScript (flowOf record) (m.wordsOf record) g.sequence

/-- What adds the attributes of a record to a graph with its content, and spreads activation. -/
def spreadScript (g : Hypergraph) (record : Record) : List Operation :=
  attributesScript (flowOf record) (newAttributes g (flowOf record) (mappedAttributes record))
      g.sequence ++
    [.propagate (contentId (flowOf record)) mappedActivation]

/-- What adds the elements of a record and spreads activation, short of the edge among similar
contents. -/
def elementsScript (m : Mapper) (g : Hypergraph) (record : Record) (identity : Identity) :
    List Operation :=
  m.contentScript g record identity ++
    spreadScript (nextAll g (m.contentScript g record identity)) record

/-- The contents that a record turns out to be similar to; none if its flow is known. -/
def similarOf (m : Mapper) (g : Hypergraph) (record : Record) (identity : Identity) : List NodeId :=
  if g.hasNode (contentId (flowOf record)) then []
  else m.similarTo (nextAll g (m.elementsScript g record identity)) (flowOf record)

/-- What maps a record into a graph. -/
def script (m : Mapper) (g : Hypergraph) (record : Record) (identity : Identity) : List Operation :=
  let flow := flowOf record
  if g.hasNode (contentId flow) then [.propagate (contentId flow) mappedActivation]
  else
    m.elementsScript g record identity ++
      similarityScript flow (m.similarOf g record identity)
        (nextAll g (m.elementsScript g record identity)).sequence

section Cases

variable {m : Mapper} {g : Hypergraph} {record : Record} {identity : Identity}

theorem script_known (known : g.hasNode (contentId (flowOf record)) = true) :
    m.script g record identity = [.propagate (contentId (flowOf record)) mappedActivation] := if_pos known

theorem similarOf_known (known : g.hasNode (contentId (flowOf record)) = true) :
    m.similarOf g record identity = [] := if_pos known

theorem script_new (new : g.hasNode (contentId (flowOf record)) = false) :
    m.script g record identity =
      m.elementsScript g record identity ++
        similarityScript (flowOf record) (m.similarOf g record identity)
          (nextAll g (m.elementsScript g record identity)).sequence :=
  if_neg (Bool.not_eq_true _ ▸ new)

theorem similarOf_new (new : g.hasNode (contentId (flowOf record)) = false) :
    m.similarOf g record identity =
      m.similarTo (nextAll g (m.elementsScript g record identity)) (flowOf record) :=
  if_neg (Bool.not_eq_true _ ▸ new)

end Cases

/-! ### Scripts add -/

section Adds

variable {flow : String} {n : UInt64}

theorem lays_wordsScript {words : List String} : ∀ op ∈ wordsScript flow words n, op.lays = true := by
  intro op hop
  rcases List.mem_append.1 hop with hop | hop
  · obtain ⟨word, -, rfl⟩ := List.mem_map.1 hop
    rfl
  · split at hop
    · cases hop
    · rcases List.mem_pair.1 hop with rfl | rfl <;> rfl

theorem lays_attributesScript {attributes : List (String × String)} :
    ∀ op ∈ attributesScript flow attributes n, op.lays = true := by
  intro op hop
  rcases List.mem_append.1 hop with hop | hop
  · obtain ⟨a, -, hop⟩ := List.mem_flatMap.1 hop
    rcases List.mem_pair.1 hop with rfl | rfl <;> rfl
  · split at hop
    · cases hop
    · rcases List.mem_pair.1 hop with rfl | rfl <;> rfl

theorem lays_similarityScript {others : List NodeId} :
    ∀ op ∈ similarityScript flow others n, op.lays = true := by
  intro op hop
  unfold similarityScript at hop
  split at hop
  · cases hop
  · rcases List.mem_pair.1 hop with rfl | rfl <;> rfl

theorem adds_wordsScript {words : List String} : ∀ op ∈ wordsScript flow words n, op.adds = true :=
  fun op hop => Operation.adds_of_lays (lays_wordsScript op hop)

theorem adds_attributesScript {attributes : List (String × String)} :
    ∀ op ∈ attributesScript flow attributes n, op.adds = true :=
  fun op hop => Operation.adds_of_lays (lays_attributesScript op hop)

theorem adds_similarityScript {others : List NodeId} :
    ∀ op ∈ similarityScript flow others n, op.adds = true :=
  fun op hop => Operation.adds_of_lays (lays_similarityScript op hop)

variable {m : Mapper} {g : Hypergraph} {record : Record} {identity : Identity}

theorem adds_contentScript : ∀ op ∈ m.contentScript g record identity, op.adds = true :=
  List.forall_mem_cons.2 ⟨rfl, adds_wordsScript⟩

theorem adds_spreadScript : ∀ op ∈ spreadScript g record, op.adds = true := by
  intro op hop
  rcases List.mem_append.1 hop with hop | hop
  · exact adds_attributesScript op hop
  · rw [List.mem_singleton.1 hop]
    rfl

theorem adds_elementsScript : ∀ op ∈ m.elementsScript g record identity, op.adds = true :=
  List.forall_mem_append.2 ⟨adds_contentScript, adds_spreadScript⟩

/-- The content of a record is there after its words have been added. -/
theorem hasNode_contentScript :
    (nextAll g (m.contentScript g record identity)).hasNode (contentId (flowOf record)) = true := by
  unfold contentScript
  rw [Operation.nextAll_cons]
  refine Operation.hasNode_nextAll adds_wordsScript ?_
  rw [Operation.hasNode_next_addNode]
  exact Bool.or_eq_true_iff.2 (.inl (decide_eq_true rfl))

theorem hasNode_elementsScript :
    (nextAll g (m.elementsScript g record identity)).hasNode (contentId (flowOf record)) = true := by
  unfold elementsScript
  rw [Operation.nextAll_append]
  exact Operation.hasNode_nextAll adds_spreadScript hasNode_contentScript

theorem adds_script : ∀ op ∈ m.script g record identity, op.adds = true := by
  intro op hop
  cases hcontent : g.hasNode (contentId (flowOf record)) with
  | true =>
    rw [script_known hcontent, List.mem_singleton] at hop
    rw [hop]
    rfl
  | false =>
    rw [script_new hcontent] at hop
    rcases List.mem_append.1 hop with hop | hop
    · exact adds_elementsScript op hop
    · exact adds_similarityScript op hop

end Adds

/-! ### Members of edges -/

section Members

variable {flow : String} {n : UInt64} {id : NodeId}

theorem mem_members_wordsEdge {words : List String} :
    id ∈ (wordsEdge flow n words).members ↔ id = contentId flow ∨ ∃ word ∈ words, wordId word = id := by
  unfold wordsEdge
  rw [NameSet.mem_ofNames, List.mem_cons, List.mem_map]

theorem mem_members_attributeEdge {name : String} :
    id ∈ (attributeEdge flow name).members ↔ id = contentId flow ∨ id = attributeId flow name := by
  unfold attributeEdge
  rw [NameSet.mem_ofNames, List.mem_pair]

theorem mem_members_clusterEdge {attributes : List (String × String)} :
    id ∈ (clusterEdge flow n (attributeIds flow attributes)).members ↔
      id = contentId flow ∨ ∃ a ∈ attributes, attributeId flow a.1 = id := by
  unfold clusterEdge attributeIds
  rw [NameSet.mem_ofNames, List.mem_append, List.mem_singleton, List.mem_map, or_comm]

theorem mem_members_similarityEdge {others : List NodeId} :
    id ∈ (similarityEdge flow n others).members ↔ id = contentId flow ∨ id ∈ others := by
  unfold similarityEdge
  rw [NameSet.mem_ofNames, List.mem_cons]

end Members

/-! ### Mapping performs the script -/

section Performing

variable {σ : Type} [Store σ] {flow : String}

theorem foldl_addNode (words : List String) (s : Substrate σ) :
    words.foldl (fun s word => (s.addNode (wordNode word)).2) s =
      (s.performAll (words.map fun word => .addNode (wordNode word))).2 := by
  induction words generalizing s with
  | nil => rfl
  | cons word words ih => exact ih (s.addNode (wordNode word)).2

/-- A graph with nodes for words, where the sequence is still where it was. -/
theorem nextAll_wordNodes (g : Hypergraph) (words : List String) :
    nextAll g (words.map fun word => .addNode (wordNode word)) =
      g.applyAll ((words.map wordNode).map .addNode) := by
  induction words generalizing g with
  | nil => rfl
  | cons word words ih => exact ih (g.addNode (wordNode word)).2

/-- An edge that a number completes is not refused if its members are stored. -/
theorem addNumbered_ok (s : Substrate σ) (edge : UInt64 → Edge)
    (stored : ∀ id ∈ (edge s.graph.sequence).members, s.graph.hasNode id = true) :
    ∃ added, addNumbered s edge =
      (.ok added, (s.performAll [.nextSequence, .addEdge (edge s.graph.sequence)]).2) :=
  -- drawing a number leaves the nodes as they are
  Substrate.addEdge_ok s.nextSequence.2 stored

/-- The members of the edge to words are the content, which was there, and the words, which then are. -/
theorem stored_wordsEdge {g : Hypergraph} (content : g.hasNode (contentId flow) = true)
    (words : List String) (n : UInt64) :
    ∀ id ∈ (wordsEdge flow n words).members,
      (nextAll g (words.map fun word => .addNode (wordNode word))).hasNode id = true := by
  intro id hid
  rw [nextAll_wordNodes]
  unfold Hypergraph.hasNode Table.contains
  rw [Hypergraph.find?_nodes_addNodes, Option.isSome_or]
  rcases mem_members_wordsEdge.1 hid with rfl | ⟨word, hmem, rfl⟩
  · exact Bool.or_eq_true_iff.2 (.inl content)
  · refine Bool.or_eq_true_iff.2 (.inr ?_)
    rw [Option.isSome_map, List.find?_isSome]
    exact ⟨wordNode word, List.mem_map_of_mem hmem, decide_eq_true rfl⟩

theorem mapWords_eq (s : Substrate σ) (words : List String)
    (content : s.graph.hasNode (contentId flow) = true) :
    ∃ added, mapWords s flow words =
      (.ok added, (s.performAll (wordsScript flow words s.graph.sequence)).2) := by
  unfold mapWords wordsScript
  dsimp only
  rw [Substrate.state_performAll_append, foldl_addNode]
  let named := (s.performAll (words.map fun word => .addNode (wordNode word))).2
  have hgraph : named.graph = nextAll s.graph (words.map fun word => .addNode (wordNode word)) := by
    refine s.graph_performAll fun op hop => ?_
    obtain ⟨word, -, rfl⟩ := List.mem_map.1 hop
    rfl
  have hsequence : named.graph.sequence = s.graph.sequence := by
    rw [hgraph, nextAll_wordNodes, Hypergraph.sequence_addNodes]
  have stored := stored_wordsEdge content words named.graph.sequence
  rw [← hgraph] at stored
  split
  · exact ⟨false, rfl⟩
  · obtain ⟨added, hadded⟩ := addNumbered_ok named (wordsEdge flow · words) stored
    rw [hsequence] at hadded
    exact ⟨added, hadded⟩

theorem attributeId_injective {name name' : String} (h : attributeId flow name = attributeId flow name') :
    name = name' := by
  unfold attributeId at h
  exact (String.append_right_inj _).1 h

/-- The attributes that a list of attributes finds new are told at its start. -/
theorem newAttributes_next (g : Hypergraph) {name value : String} {rest : List (String × String)}
    (hname : name ∉ rest.map Prod.fst) :
    newAttributes (nextAll g (attributeScript flow (name, value))) flow rest =
      newAttributes g flow rest := by
  refine List.filter_congr fun a ha => ?_
  have hne : attributeId flow name ≠ attributeId flow a.1 := by
    intro heq
    rw [attributeId_injective heq] at hname
    exact hname (List.mem_map_of_mem ha)
  have hadded : (nextAll g (attributeScript flow (name, value))).hasNode (attributeId flow a.1) =
      (Operation.next g (.addNode (attributeNode flow name value))).hasNode (attributeId flow a.1) := by
    unfold Hypergraph.hasNode
    exact congrArg (Table.contains · _) (Operation.nodes_next_addEdge ..)
  have hother : decide ((attributeNode flow name value).id = attributeId flow a.1) = false :=
    decide_eq_false hne
  rw [hadded, Operation.hasNode_next_addNode, hother, Bool.false_or]

/-- Both ends of the edge to an attribute are there once the attribute is. -/
theorem stored_attributeEdge {g : Hypergraph} (content : g.hasNode (contentId flow) = true)
    (name value : String) :
    ∀ id ∈ (attributeEdge flow name).members,
      (Operation.next g (.addNode (attributeNode flow name value))).hasNode id = true := by
  intro id hmember
  rw [Operation.hasNode_next_addNode]
  rcases mem_members_attributeEdge.1 hmember with rfl | rfl
  · rw [content, Bool.or_true]
  · exact Bool.or_eq_true_iff.2 (.inl (decide_eq_true rfl))

/-- An attribute that is not there comes in, and is joined to the content. -/
theorem addNode_attribute (s : Substrate σ) {name : String} (value : String)
    (content : s.graph.hasNode (contentId flow) = true)
    (vacant : s.graph.hasNode (attributeId flow name) = false) :
    ∃ added verdict, s.addNode (attributeNode flow name value) = (true, added) ∧
      added.addEdge (attributeEdge flow name) =
        (.ok verdict, (s.performAll (attributeScript flow (name, value))).2) := by
  let added := (s.perform (.addNode (attributeNode flow name value))).2
  have hadded : s.addNode (attributeNode flow name value) = (true, added) := by
    refine Prod.ext ?_ rfl
    rw [s.addNode_fst, show s.graph.hasNode (attributeNode flow name value).id = false from vacant]
    rfl
  have hgraph : added.graph = Operation.next s.graph (.addNode (attributeNode flow name value)) :=
    s.graph_perform rfl
  have stored := stored_attributeEdge content name value
  rw [← hgraph] at stored
  obtain ⟨verdict, hedge⟩ := added.addEdge_ok stored
  exact ⟨added, verdict, hadded, hedge⟩

theorem mapEachAttribute_eq (attributes : List (String × String))
    (distinct : (attributes.map Prod.fst).Nodup) (s : Substrate σ)
    (content : s.graph.hasNode (contentId flow) = true) :
    mapEachAttribute flow attributes s =
      (.ok (attributeIds flow (newAttributes s.graph flow attributes)),
        (s.performAll ((newAttributes s.graph flow attributes).flatMap (attributeScript flow))).2) := by
  -- over the attributes, each of which leaves a substrate for the rest
  induction attributes generalizing s with
  | nil => rfl
  | cons a rest ih =>
    obtain ⟨name, value⟩ := a
    obtain ⟨hname, hrest⟩ := List.nodup_cons.1 distinct
    unfold mapEachAttribute
    cases hid : s.graph.hasNode (attributeId flow name) with
    | true =>
      have hrefused : s.addNode (attributeNode flow name value) = (false, s) := by
        unfold Substrate.addNode Hypergraph.addNode
        rw [show s.graph.hasNode (attributeNode flow name value).id = true from hid]
        rfl
      have hnew : newAttributes s.graph flow ((name, value) :: rest) = newAttributes s.graph flow rest :=
        List.filter_cons_of_neg (by rw [hid]; exact Bool.false_ne_true)
      rw [hrefused, hnew]
      exact ih hrest s content
    | false =>
      have hnew : newAttributes s.graph flow ((name, value) :: rest) =
          (name, value) :: newAttributes s.graph flow rest :=
        List.filter_cons_of_pos (by rw [hid]; rfl)
      obtain ⟨added, verdict, hadded, hedge⟩ := addNode_attribute s value content hid
      have adds : ∀ op ∈ attributeScript flow (name, value), op.adds = true := by
        rintro op hop
        rcases List.mem_pair.1 hop with rfl | rfl <;> rfl
      let joined := (s.performAll (attributeScript flow (name, value))).2
      have hjoined : joined.graph = nextAll s.graph (attributeScript flow (name, value)) :=
        s.graph_performAll adds
      have hcontent : joined.graph.hasNode (contentId flow) = true := by
        rw [hjoined]
        exact Operation.hasNode_nextAll adds content
      have hrec := ih hrest joined hcontent
      rw [hjoined, newAttributes_next s.graph hname] at hrec
      rw [hadded, hnew]
      dsimp only
      rw [hedge]
      dsimp only
      rw [show mapEachAttribute flow rest (s.performAll (attributeScript flow (name, value))).2 = _
        from hrec, List.flatMap_cons, Substrate.state_performAll_append]
      rfl

theorem sequence_attributes (attributes : List (String × String)) (g : Hypergraph) :
    (nextAll g (attributes.flatMap (attributeScript flow))).sequence = g.sequence := by
  induction attributes generalizing g with
  | nil => rfl
  | cons a rest ih =>
    rw [List.flatMap_cons, Operation.nextAll_append, ih]
    have hnode := g.sequence_addNode (attributeNode flow a.1 a.2)
    have hedge := (g.addNode (attributeNode flow a.1 a.2)).2.nodes_addEdge (attributeEdge flow a.1)
    exact hedge.2.trans hnode

theorem adds_attributes {attributes : List (String × String)} :
    ∀ op ∈ attributes.flatMap (attributeScript flow), op.adds = true := by
  intro op hop
  obtain ⟨a, -, hop⟩ := List.mem_flatMap.1 hop
  rcases List.mem_pair.1 hop with rfl | rfl <;> rfl

theorem hasNode_attributes {attributes : List (String × String)} {a : String × String}
    (ha : a ∈ attributes) (g : Hypergraph) :
    (nextAll g (attributes.flatMap (attributeScript flow))).hasNode (attributeId flow a.1) = true := by
  obtain ⟨front, rest, rfl⟩ := List.append_of_mem ha
  rw [List.flatMap_append, List.flatMap_cons, Operation.nextAll_append, Operation.nextAll_append]
  refine Operation.hasNode_nextAll adds_attributes ?_
  -- the node is added before its edge
  have hnode : (Operation.next (nextAll g (front.flatMap (attributeScript flow)))
      (.addNode (attributeNode flow a.1 a.2))).hasNode (attributeId flow a.1) = true := by
    rw [Operation.hasNode_next_addNode]
    exact Bool.or_eq_true_iff.2 (.inl (decide_eq_true rfl))
  have hedge : (Operation.addEdge (attributeEdge flow a.1)).adds = true := rfl
  exact Operation.hasNode_next hedge hnode

theorem distinct_mappedAttributes (record : Record) :
    ((mappedAttributes record).map Prod.fst).Nodup :=
  record.attributes.nodup_keys.sublist (List.filter_sublist.map _)

/-- The members of the edge among attributes are the content and what was added before. -/
theorem stored_clusterEdge {g : Hypergraph} (content : g.hasNode (contentId flow) = true)
    (attributes : List (String × String)) (n : UInt64) :
    ∀ id ∈ (clusterEdge flow n (attributeIds flow attributes)).members,
      (nextAll g (attributes.flatMap (attributeScript flow))).hasNode id = true := by
  intro id hid
  rcases mem_members_clusterEdge.1 hid with rfl | ⟨a, ha, rfl⟩
  · exact Operation.hasNode_nextAll adds_attributes content
  · exact hasNode_attributes ha g

theorem mapAttributes_eq (s : Substrate σ) (record : Record)
    (content : s.graph.hasNode (contentId flow) = true) :
    ∃ added, mapAttributes s flow record =
      (.ok added, (s.performAll (attributesScript flow
        (newAttributes s.graph flow (mappedAttributes record)) s.graph.sequence)).2) := by
  let new := newAttributes s.graph flow (mappedAttributes record)
  let added := (s.performAll (new.flatMap (attributeScript flow))).2
  have heach : mapEachAttribute flow (mappedAttributes record) s =
      (.ok (attributeIds flow new), added) :=
    mapEachAttribute_eq _ (distinct_mappedAttributes record) s content
  have hgraph : added.graph = nextAll s.graph (new.flatMap (attributeScript flow)) :=
    s.graph_performAll adds_attributes
  have hlength : (attributeIds flow new).length = new.length := List.length_map ..
  have hsequence : added.graph.sequence = s.graph.sequence := by
    rw [hgraph]
    exact sequence_attributes new s.graph
  have stored := stored_clusterEdge content new added.graph.sequence
  rw [← hgraph] at stored
  unfold mapAttributes attributesScript
  rw [heach, Substrate.state_performAll_append]
  dsimp only
  rw [hlength]
  split
  · exact ⟨false, rfl⟩
  · obtain ⟨verdict, hverdict⟩ := addNumbered_ok added (clusterEdge flow · (attributeIds flow new)) stored
    rw [hsequence] at hverdict
    exact ⟨verdict, hverdict⟩

theorem hasNode_of_mem_similarTo {m : Mapper} {g : Hypergraph} (h : g.WellFormed) {id : NodeId}
    (hid : id ∈ m.similarTo g flow) : g.hasNode id = true := by
  obtain ⟨node, hnode, -⟩ := h.mem_nodesWithAttribute.1 (List.mem_of_mem_filter hid)
  exact Table.contains_iff.2 ⟨node, hnode⟩

/-- The members of the edge among similar contents were found in the graph. -/
theorem stored_similarityEdge (m : Mapper) {g : Hypergraph} (h : g.WellFormed)
    (content : g.hasNode (contentId flow) = true) (n : UInt64) :
    ∀ id ∈ (similarityEdge flow n (m.similarTo g flow)).members, g.hasNode id = true := by
  intro id hid
  rcases mem_members_similarityEdge.1 hid with rfl | hid'
  · exact content
  · exact hasNode_of_mem_similarTo h hid'

theorem linkSimilar_eq (m : Mapper) (s : Substrate σ) (h : s.graph.WellFormed)
    (content : s.graph.hasNode (contentId flow) = true) :
    m.linkSimilar s flow =
      (.ok (m.similarTo s.graph flow).length,
        (s.performAll (similarityScript flow (m.similarTo s.graph flow) s.graph.sequence)).2) := by
  obtain ⟨added, hadded⟩ := addNumbered_ok s (similarityEdge flow · (m.similarTo s.graph flow))
    (stored_similarityEdge m h content s.graph.sequence)
  unfold linkSimilar similarityScript
  dsimp only
  rw [hadded]
  split
  · next hnone =>
    rw [hnone]
    rfl
  · rfl

/-- A record of a known flow only spreads activation. -/
theorem mapRecord_known (m : Mapper) (s : Substrate σ) (record : Record) (identity : Identity)
    (known : s.graph.hasNode (contentId (flowOf record)) = true) :
    m.mapRecord s record identity =
      (.ok 0, (s.performAll [.propagate (contentId (flowOf record)) mappedActivation]).2) := by
  let node := contentNode (flowOf record) record.content identity
  have hrefused : s.addNode node = (false, s) := by
    unfold Substrate.addNode Hypergraph.addNode
    rw [show s.graph.hasNode node.id = true from known]
    rfl
  unfold mapRecord
  dsimp only
  rw [hrefused]
  rfl

/-- If the content of a record is new and its words and attributes are mapped, the similar contents come
last. -/
theorem mapRecord_of_steps (m : Mapper) {s s₁ s₂ s₃ : Substrate σ} {record : Record}
    {identity : Identity} {joined clustered : Bool}
    (hadded : s.addNode (contentNode (flowOf record) record.content identity) = (true, s₁))
    (hwords : mapWords s₁ (flowOf record) (m.wordsOf record) = (.ok joined, s₂))
    (hattributes : mapAttributes s₂ (flowOf record) record = (.ok clustered, s₃)) :
    m.mapRecord s record identity =
      m.linkSimilar (s₃.propagate (contentId (flowOf record)) mappedActivation).2 (flowOf record) := by
  unfold wordsOf at hwords
  unfold mapRecord
  dsimp only
  rw [hadded]
  dsimp only
  rw [hwords]
  dsimp only
  rw [hattributes]

/-- The first record of a flow adds its elements, and then finds the similar contents. -/
theorem mapRecord_new (m : Mapper) (s : Substrate σ) (record : Record)
    (identity : Identity) (new : s.graph.hasNode (contentId (flowOf record)) = false) :
    m.mapRecord s record identity =
      m.linkSimilar (s.performAll (m.elementsScript s.graph record identity)).2 (flowOf record) := by
  let flow := flowOf record
  let node := contentNode flow record.content identity
  have hadded : s.addNode node = (true, (s.perform (.addNode node)).2) := by
    have hverdict : (s.addNode node).1 = !s.graph.hasNode (contentId flow) := s.addNode_fst node
    rw [new] at hverdict
    exact Prod.ext hverdict rfl
  -- the content
  let s₁ := (s.perform (.addNode node)).2
  have hgraph₁ : s₁.graph = Operation.next s.graph (.addNode node) := s.graph_perform rfl
  have hcontent₁ : s₁.graph.hasNode (contentId flow) = true := by
    rw [hgraph₁, Operation.hasNode_next_addNode]
    exact Bool.or_eq_true_iff.2 (.inl (decide_eq_true rfl))
  have hsequence₁ : s₁.graph.sequence = s.graph.sequence := by
    rw [hgraph₁]
    exact s.graph.sequence_addNode node
  -- its words
  let s₂ := (s₁.performAll (wordsScript flow (m.wordsOf record) s.graph.sequence)).2
  have hstate₂ : (s.performAll (m.contentScript s.graph record identity)).2 = s₂ :=
    s.state_performAll_cons _ _
  have hgraph₂ : s₂.graph = nextAll s.graph (m.contentScript s.graph record identity) := by
    rw [← hstate₂]
    exact s.graph_performAll adds_contentScript
  have hcontent₂ : s₂.graph.hasNode (contentId flow) = true := by
    rw [hgraph₂]
    exact hasNode_contentScript
  obtain ⟨_, hwords⟩ := mapWords_eq s₁ (m.wordsOf record) hcontent₁
  rw [hsequence₁] at hwords
  -- its attributes, and then activation spreads
  obtain ⟨_, hattributes⟩ := mapAttributes_eq s₂ record hcontent₂
  have hspread : ((s₂.performAll (attributesScript flow
      (newAttributes s₂.graph flow (mappedAttributes record)) s₂.graph.sequence)).2.propagate
        (contentId flow) mappedActivation).2 =
      (s.performAll (m.elementsScript s.graph record identity)).2 := by
    unfold elementsScript spreadScript
    rw [Substrate.state_performAll_append, Substrate.state_performAll_append, hstate₂, ← hgraph₂]
    rfl
  rw [m.mapRecord_of_steps hadded hwords hattributes, hspread]

/-- **Mapping a record is performing its script**, over any store. It never fails. -/
theorem mapRecord_eq (m : Mapper) (s : Substrate σ) (h : s.graph.WellFormed) (record : Record)
    (identity : Identity) :
    m.mapRecord s record identity =
      (.ok (m.similarOf s.graph record identity).length,
        (s.performAll (m.script s.graph record identity)).2) := by
  let flow := flowOf record
  cases hcontent : s.graph.hasNode (contentId (flowOf record)) with
  | true =>
    rw [script_known hcontent, similarOf_known hcontent]
    exact m.mapRecord_known s record identity hcontent
  | false =>
    let s' := (s.performAll (m.elementsScript s.graph record identity)).2
    have hgraph : s'.graph = nextAll s.graph (m.elementsScript s.graph record identity) :=
      s.graph_performAll adds_elementsScript
    have hwellFormed : s'.graph.WellFormed := by
      refine Substrate.wellFormed_performAll h fun graph hgraph => ?_
      cases adds_elementsScript _ hgraph
    have hcontent' : s'.graph.hasNode (contentId flow) = true := by
      rw [hgraph]
      exact hasNode_elementsScript
    have hlink := linkSimilar_eq m s' hwellFormed hcontent'
    rw [hgraph] at hlink
    rw [m.mapRecord_new s record identity hcontent, hlink, script_new hcontent,
      similarOf_new hcontent, Substrate.state_performAll_append]

end Performing

end Mapper

end ResonantGraph
