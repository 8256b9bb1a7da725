import ResonantGraph.Proofs.Mapper.Names
import ResonantGraph.Proofs.Mapper.Renumbered

/-!
# What a script leaves

Operations that add leave what was there, activations aside (`Hypergraph.Grows`). The nodes they leave are
those that were there and, of the nodes they bring, the first under each new identifier
(`Operation.atRest_nextAll`). For edges the same holds if each finds its members when its turn comes
(`Operation.Supplied`, `Operation.find?_edges_nextAll`), and a script sees to that
(`Mapper.supplied_script`).

What a script brings is listed here as well: its nodes by `Mapper.nodesOf_elementsScript`, its edges by
`Mapper.edgesOf_elementsScript`. All of its edges join the content (`Mapper.contentId_mem_members`).
-/

namespace ResonantGraph

open Operation (nextAll edgesOf)

/-- Where entries are told apart by their keys, looking for a key finds the entry that has it. -/
theorem find?_key_eq_some_iff {α : Type} {key : α → String} {l : List α}
    (apart : ∀ a ∈ l, ∀ b ∈ l, key a = key b → a = b) {id : String} {a : α} :
    (l.find? fun a => key a = id) = some a ↔ a ∈ l ∧ key a = id := by
  constructor
  · intro h
    have hkey := List.find?_some h
    exact ⟨List.mem_of_find?_eq_some h, of_decide_eq_true hkey⟩
  · rintro ⟨hmem, rfl⟩
    obtain ⟨b, hb⟩ : ∃ b, (l.find? fun b => key b = key a) = some b := by
      rw [← Option.isSome_iff_exists, List.find?_isSome]
      exact ⟨a, hmem, decide_eq_true rfl⟩
    have hkey := List.find?_some hb
    rw [hb, apart a hmem b (List.mem_of_find?_eq_some hb) (of_decide_eq_true hkey).symm]

/-! ### Growing graphs -/

/-- A node with its activation left out of account. -/
def Node.atRest (node : Node) : Node := node.setActivation 0

@[simp] theorem Node.atRest_setActivation (node : Node) (level : Binary64) :
    (node.setActivation level).atRest = node.atRest := rfl

@[simp] theorem Node.atRest_clamped (node : Node) : node.clamped.atRest = node.atRest := rfl

/-- Nodes that agree at rest differ in their activations only. -/
theorem Node.eq_setActivation_of_atRest {node node' : Node} (h : node'.atRest = node.atRest) :
    node' = node.setActivation node'.activation := by
  cases node
  cases node'
  cases h
  rfl

namespace Hypergraph

/-- What a graph has is still there in another, though activations may have moved. -/
structure Grows (g g' : Hypergraph) : Prop where
  /-- A node keeps all but its activation. -/
  nodes : ∀ id node, g.nodes.find? id = some node →
    ∃ level, g'.nodes.find? id = some (node.setActivation level)
  /-- An edge stays as it is. -/
  edges : ∀ id edge, g.edges.find? id = some edge → g'.edges.find? id = some edge

namespace Grows

variable {g g' g'' : Hypergraph}

theorem refl (g : Hypergraph) : g.Grows g :=
  ⟨fun _ node hnode => ⟨node.activation, hnode⟩, fun _ _ hedge => hedge⟩

theorem trans (h : g.Grows g') (h' : g'.Grows g'') : g.Grows g'' where
  nodes id node hnode := by
    obtain ⟨level, hlevel⟩ := h.nodes id node hnode
    obtain ⟨level', hlevel'⟩ := h'.nodes id _ hlevel
    exact ⟨level', hlevel'⟩
  edges id edge hedge := h'.edges id edge (h.edges id edge hedge)

/-- Connected nodes stay connected. -/
theorem connected (h : g.Grows g') {u v : NodeId} (huv : v ∈ g.connected u) : v ∈ g'.connected u := by
  obtain ⟨hne, key, edge, hedge, hu, hv⟩ := mem_connected.1 huv
  exact mem_connected.2 ⟨hne, key, edge, h.edges key edge hedge, hu, hv⟩

end Grows

end Hypergraph

namespace Operation

variable {g : Hypergraph} {op : Operation} {ops ops' : List Operation}

/-! ### Nodes -/

/-- The node that an operation adds. -/
def node? : Operation → Option Node
  | .addNode node => some node
  | _ => none

/-- The nodes that operations add. -/
def nodesOf (ops : List Operation) : List Node := ops.filterMap node?

theorem nodesOf_addNode (node : Node) (ops : List Operation) :
    nodesOf (.addNode node :: ops) = node :: nodesOf ops := rfl

theorem edgesOf_addNode (node : Node) (ops : List Operation) :
    edgesOf (.addNode node :: ops) = edgesOf ops := rfl

theorem nodesOf_append (ops ops' : List Operation) : nodesOf (ops ++ ops') = nodesOf ops ++ nodesOf ops' :=
  List.filterMap_append

/-- Under an identifier there is, at rest, what was there, or else what the operation adds. -/
theorem atRest_next (h : op.adds = true) (id : NodeId) :
    ((op.next g).nodes.find? id).map Node.atRest =
      ((g.nodes.find? id).map Node.atRest).or
        (((nodesOf [op]).find? fun node => node.id = id).map Node.atRest) := by
  cases op with
  | addNode node =>
    change ((g.addNode node).2.nodes.find? id).map Node.atRest = _
    rw [Hypergraph.find?_nodes_addNode, Option.map_or]
    by_cases hid : node.id = id <;> simp [nodesOf, node?, hid]
  | propagate source initial =>
    change ((g.propagate source initial).2.nodes.find? id).map Node.atRest = _
    unfold Hypergraph.propagate
    split
    · -- activations are all that spreads
      have hrest (reached : NameSet) :
          Node.atRest ∘ Hypergraph.spreadTo source reached initial id = Node.atRest := by
        funext node
        change (Hypergraph.spreadTo source reached initial id node).atRest = _
        rcases Hypergraph.spreadTo_cases source reached initial id node with heq | ⟨level, heq⟩ <;> rw [heq]
        exact node.atRest_setActivation level.clamp
      rw [Table.find?_mapValues, Option.map_map, hrest]
      simp [nodesOf, node?]
    · simp [nodesOf, node?]
  | addEdge edge =>
    rw [nodes_next_addEdge]
    simp [nodesOf, node?]
  | nextSequence =>
    change (g.nodes.find? id).map Node.atRest = _
    simp [nodesOf, node?]
  | _ => cases h

/-- **The nodes after operations that add.** At rest these are the nodes that were there and, under each
new identifier, the first that is added. -/
theorem atRest_nextAll (h : ∀ op ∈ ops, op.adds = true) (id : NodeId) :
    ((nextAll g ops).nodes.find? id).map Node.atRest =
      ((g.nodes.find? id).map Node.atRest).or
        (((nodesOf ops).find? fun node => node.id = id).map Node.atRest) := by
  induction ops generalizing g with
  | nil => simp [nextAll, nodesOf]
  | cons op ops ih =>
    rw [List.forall_mem_cons] at h
    have hnodes : nodesOf (op :: ops) = nodesOf [op] ++ nodesOf ops := nodesOf_append [op] ops
    rw [nextAll_cons, ih h.2, atRest_next h.1, hnodes, List.find?_append, Option.map_or, Option.or_assoc]

/-- An identifier of a node is one that was there, or that of a node which is added. -/
theorem hasNode_nextAll_iff (h : ∀ op ∈ ops, op.adds = true) (id : NodeId) :
    (nextAll g ops).hasNode id = true ↔ g.hasNode id = true ∨ ∃ node ∈ nodesOf ops, node.id = id := by
  have hrest := congrArg Option.isSome (atRest_nextAll (g := g) h id)
  rw [Option.isSome_or, Option.isSome_map, Option.isSome_map, Option.isSome_map] at hrest
  unfold Hypergraph.hasNode Table.contains
  rw [hrest, Bool.or_eq_true_iff, List.find?_isSome]
  simp only [decide_eq_true_eq]

/-! ### Edges -/

/-- Each edge finds its members when its turn comes. -/
inductive Supplied : Hypergraph → List Operation → Prop
  /-- No operation is left. -/
  | nil (g : Hypergraph) : Supplied g []
  /-- The first operation adds no edge, or one whose members are there. -/
  | cons {g : Hypergraph} {op : Operation} {ops : List Operation}
      (stored : ∀ edge, op.edge? = some edge → ∀ id ∈ edge.members, g.hasNode id = true)
      (rest : Supplied (op.next g) ops) : Supplied g (op :: ops)

theorem Supplied.append (h : Supplied g ops) (h' : Supplied (nextAll g ops) ops') :
    Supplied g (ops ++ ops') := by
  induction h with
  | nil g => exact h'
  | cons stored rest ih => exact .cons stored (ih h')

/-- Where no edges are added, none wants for members. -/
theorem supplied_of_edge?_eq_none (h : ∀ op ∈ ops, op.edge? = none) : Supplied g ops := by
  induction ops generalizing g with
  | nil => exact .nil g
  | cons op ops ih =>
    rw [List.forall_mem_cons] at h
    refine .cons (fun edge hedge => ?_) (ih h.2)
    rw [h.1] at hedge
    cases hedge

theorem edge?_eq_some_iff {edge : Edge} : op.edge? = some edge ↔ op = .addEdge edge := by
  cases op <;> simp [edge?]

/-- **The edges after operations that add.** If none wants for members, these are the edges that were there
and, under each new identifier, the first that is added. -/
theorem find?_edges_nextAll (adds : ∀ op ∈ ops, op.adds = true) (supplied : Supplied g ops) (id : EdgeId) :
    (nextAll g ops).edges.find? id =
      (g.edges.find? id).or ((edgesOf ops).find? fun edge => edge.id = id) := by
  induction supplied with
  | nil g => simp [nextAll, edgesOf]
  | @cons g op ops stored rest ih =>
    rw [List.forall_mem_cons] at adds
    rw [nextAll_cons, ih adds.2]
    cases hop : op.edge? with
    | none =>
      have hedges : edgesOf (op :: ops) = edgesOf ops := List.filterMap_cons_none hop
      rw [edges_next_of_edge?_eq_none adds.1 hop, hedges]
    | some edge =>
      have hedges : edgesOf (op :: ops) = edge :: edgesOf ops := List.filterMap_cons_some hop
      have hmissing : g.missingMember? edge = none :=
        Hypergraph.missingMember?_eq_none_iff.2 (stored edge hop)
      obtain rfl := edge?_eq_some_iff.1 hop
      have hnext : (next g (.addEdge edge)).edges.find? id =
          (g.edges.find? id).or (if edge.id = id then some edge else none) := by
        have hfind := g.find?_edges_addEdge edge id
        simp only [hmissing, and_true] at hfind
        exact hfind
      rw [hnext, hedges, Option.or_assoc, List.find?_cons]
      by_cases hid : edge.id = id <;> simp [hid]

/-- If none is refused, they come in among the others. -/
theorem values_edges_nextAll (adds : ∀ op ∈ ops, op.adds = true) (supplied : Supplied g ops)
    (fresh : Fresh g ops) : (nextAll g ops).edges.values.Perm (edgesOf ops ++ g.edges.values) := by
  induction supplied with
  | nil g => exact .refl _
  | @cons g op ops stored rest ih =>
    rw [List.forall_mem_cons] at adds
    have hparts : Fresh g ([op] ++ ops) := fresh
    obtain ⟨hfirst, hrest⟩ := hparts.of_append (List.forall_mem_singleton.2 adds.1)
    have hvalues := ih adds.2 hrest
    cases hop : op.edge? with
    | none =>
      have hedges : edgesOf (op :: ops) = edgesOf ops := List.filterMap_cons_none hop
      have hsame := edges_next_of_edge?_eq_none (g := g) adds.1 hop
      change (next g op).edges = g.edges at hsame
      change (nextAll (next g op) ops).edges.values.Perm _ at hvalues ⊢
      rw [hedges, ← hsame]
      exact hvalues
    | some edge =>
      have hedges : edgesOf (op :: ops) = edge :: edgesOf ops := List.filterMap_cons_some hop
      have hmissing : g.missingMember? edge = none :=
        Hypergraph.missingMember?_eq_none_iff.2 (stored edge hop)
      obtain rfl := edge?_eq_some_iff.1 hop
      have hvacant : g.hasEdge edge.id = false := hfirst.vacant edge (List.mem_singleton.2 rfl)
      have hnext : (next g (.addEdge edge)).edges = g.edges.insert edge.id edge := by
        change (g.addEdge edge).2.edges = _
        unfold Hypergraph.addEdge Hypergraph.putEdge
        rw [hvacant, hmissing]
        rfl
      have hinsert := Table.values_insert_perm hvacant edge
      change (nextAll (next g (.addEdge edge)) ops).edges.values.Perm _ at hvalues ⊢
      rw [hnext] at hvalues
      rw [hedges]
      calc (nextAll (next g (.addEdge edge)) ops).edges.values
          _ |>.Perm (edgesOf ops ++ (g.edges.insert edge.id edge).values) := hvalues
          _ |>.Perm (edgesOf ops ++ edge :: g.edges.values) := .append_left _ hinsert
          _ |>.Perm (edge :: edgesOf ops ++ g.edges.values) := List.perm_middle

/-- **Operations that add take nothing away.** -/
theorem grows_nextAll (h : ∀ op ∈ ops, op.adds = true) : g.Grows (nextAll g ops) where
  nodes id node hnode := by
    have hrest := atRest_nextAll (g := g) h id
    rw [hnode, Option.map_some, Option.some_or] at hrest
    obtain ⟨node', hnode', heq⟩ := Option.map_eq_some_iff.1 hrest
    rw [Node.eq_setActivation_of_atRest heq] at hnode'
    exact ⟨node'.activation, hnode'⟩
  edges id edge hedge := by
    induction ops generalizing g with
    | nil => exact hedge
    | cons op ops ih =>
      rw [List.forall_mem_cons] at h
      refine ih h.2 ?_
      cases hop : op.edge? with
      | none => rw [edges_next_of_edge?_eq_none h.1 hop, hedge]
      | some new =>
        obtain rfl := edge?_eq_some_iff.1 hop
        change (g.addEdge new).2.edges.find? id = _
        rw [Hypergraph.find?_edges_addEdge, hedge, Option.some_or]

end Operation

namespace Mapper

open Operation (nodesOf Supplied)

variable {m : Mapper} {g : Hypergraph} {record : Record} {identity : Identity} {flow : String}

/-! ### What scripts bring -/

/-- The edge between a content and its words, if there are any. -/
def wordEdges (flow : String) (words : List String) (n : UInt64) : List Edge :=
  if words = [] then [] else [wordsEdge flow n words]

/-- The edges between a content and attributes, and the one among these if there are several. -/
def attributeEdges (flow : String) (attributes : List (String × String)) (n : UInt64) : List Edge :=
  attributes.map (fun a => attributeEdge flow a.1) ++
    if attributes.length < 2 then [] else [clusterEdge flow n (attributeIds flow attributes)]

/-- The edge among similar contents, if there are any. -/
def similarityEdges (flow : String) (others : List NodeId) (n : UInt64) : List Edge :=
  if others = [] then [] else [similarityEdge flow n others]

theorem edgesOf_wordsScript (words : List String) (n : UInt64) :
    edgesOf (wordsScript flow words n) = wordEdges flow words n := by
  unfold wordsScript wordEdges
  rw [Operation.edgesOf_append, edgesOf_addNodes, List.nil_append]
  split <;> rfl

theorem edgesOf_attributes (attributes : List (String × String)) :
    edgesOf (attributes.flatMap (attributeScript flow)) = attributes.map fun a => attributeEdge flow a.1 := by
  induction attributes with
  | nil => rfl
  | cons a rest ih =>
    rw [List.flatMap_cons, Operation.edgesOf_append, ih]
    rfl

theorem edgesOf_attributesScript (attributes : List (String × String)) (n : UInt64) :
    edgesOf (attributesScript flow attributes n) = attributeEdges flow attributes n := by
  unfold attributesScript attributeEdges
  rw [Operation.edgesOf_append, edgesOf_attributes]
  congr 1
  split <;> rfl

theorem edgesOf_similarityScript (others : List NodeId) (n : UInt64) :
    edgesOf (similarityScript flow others n) = similarityEdges flow others n := by
  unfold similarityScript similarityEdges
  split <;> rfl

theorem nodesOf_wordsScript (words : List String) (n : UInt64) :
    nodesOf (wordsScript flow words n) = words.map wordNode := by
  have hnodes : nodesOf (words.map fun word => .addNode (wordNode word)) = words.map wordNode := by
    unfold nodesOf
    rw [List.filterMap_map]
    exact congrFun (List.filterMap_eq_map (f := wordNode)) words
  have hedge : nodesOf (if words = [] then [] else [.nextSequence, .addEdge (wordsEdge flow n words)]) = [] := by
    split <;> rfl
  unfold wordsScript
  rw [Operation.nodesOf_append, hnodes, hedge, List.append_nil]

theorem nodesOf_attributesScript (attributes : List (String × String)) (n : UInt64) :
    nodesOf (attributesScript flow attributes n) =
      attributes.map fun a => attributeNode flow a.1 a.2 := by
  have hnodes : nodesOf (attributes.flatMap (attributeScript flow)) =
      attributes.map fun a => attributeNode flow a.1 a.2 := by
    induction attributes with
    | nil => rfl
    | cons a rest ih =>
      rw [List.flatMap_cons, Operation.nodesOf_append, ih]
      rfl
  have hedge : nodesOf (if attributes.length < 2 then []
      else [.nextSequence, .addEdge (clusterEdge flow n (attributeIds flow attributes))]) = [] := by
    split <;> rfl
  unfold attributesScript
  rw [Operation.nodesOf_append, hnodes, hedge, List.append_nil]

theorem nodesOf_similarityScript (others : List NodeId) (n : UInt64) :
    nodesOf (similarityScript flow others n) = [] := by
  unfold similarityScript
  split <;> rfl

theorem nodesOf_contentScript :
    nodesOf (m.contentScript g record identity) =
      contentNode (flowOf record) record.content identity :: (m.wordsOf record).map wordNode := by
  unfold contentScript
  rw [Operation.nodesOf_addNode, nodesOf_wordsScript]

/-- Content and words are not in the way of attributes. -/
theorem newAttributes_contentScript (attributes : List (String × String)) :
    newAttributes (nextAll g (m.contentScript g record identity)) (flowOf record) attributes =
      newAttributes g (flowOf record) attributes := by
  unfold newAttributes
  refine List.filter_congr fun a _ => congrArg _ (Bool.eq_iff_iff.2 ?_)
  rw [Operation.hasNode_nextAll_iff adds_contentScript, nodesOf_contentScript]
  refine ⟨fun hor => hor.resolve_right ?_, .inl⟩
  rintro ⟨node, hnode, hid⟩
  rcases List.mem_cons.1 hnode with rfl | hword
  · exact attributeId_ne_contentId rfl hid.symm
  · obtain ⟨word, hmem, rfl⟩ := List.mem_map.1 hword
    exact attributeId_ne_wordId (lowLine_notMem_of_mem_wordsOf hmem) hid.symm

/-- The attributes of a record that have no node yet. -/
def attributesNew (g : Hypergraph) (record : Record) : List (String × String) :=
  newAttributes g (flowOf record) (mappedAttributes record)

/-- The nodes of a record whose content is new. -/
theorem nodesOf_elementsScript :
    nodesOf (m.elementsScript g record identity) =
      contentNode (flowOf record) record.content identity :: (m.wordsOf record).map wordNode ++
        (attributesNew g record).map fun a => attributeNode (flowOf record) a.1 a.2 := by
  unfold elementsScript spreadScript attributesNew
  rw [Operation.nodesOf_append, Operation.nodesOf_append, nodesOf_contentScript,
    nodesOf_attributesScript, newAttributes_contentScript]
  exact congrArg _ (List.append_nil _)

/-- The edges of a record whose content is new, short of the one among similar contents. -/
theorem edgesOf_elementsScript :
    edgesOf (m.elementsScript g record identity) =
      wordEdges (flowOf record) (m.wordsOf record) g.sequence ++
        attributeEdges (flowOf record) (attributesNew g record)
          (nextAll g (m.contentScript g record identity)).sequence := by
  have hcontent : edgesOf (m.contentScript g record identity) =
      wordEdges (flowOf record) (m.wordsOf record) g.sequence := by
    unfold contentScript
    rw [Operation.edgesOf_addNode, edgesOf_wordsScript]
  unfold elementsScript spreadScript attributesNew
  rw [Operation.edgesOf_append, Operation.edgesOf_append, hcontent, edgesOf_attributesScript,
    newAttributes_contentScript]
  exact congrArg _ (List.append_nil _)

/-- The edges of a record, by what they join. -/
theorem mem_edgesOf_script (new : g.hasNode (contentId (flowOf record)) = false) {edge : Edge} :
    edge ∈ edgesOf (m.script g record identity) ↔
      edge ∈ wordEdges (flowOf record) (m.wordsOf record) g.sequence ∨
        edge ∈ attributeEdges (flowOf record) (attributesNew g record)
          (nextAll g (m.contentScript g record identity)).sequence ∨
        edge ∈ similarityEdges (flowOf record) (m.similarOf g record identity)
          (nextAll g (m.elementsScript g record identity)).sequence := by
  rw [script_new new, Operation.edgesOf_append, edgesOf_elementsScript, edgesOf_similarityScript,
    List.append_assoc, List.mem_append, List.mem_append]

/-- The nodes of a record are those of its elements. -/
theorem nodesOf_script (new : g.hasNode (contentId (flowOf record)) = false) :
    nodesOf (m.script g record identity) =
      contentNode (flowOf record) record.content identity :: (m.wordsOf record).map wordNode ++
        (attributesNew g record).map fun a => attributeNode (flowOf record) a.1 a.2 := by
  rw [script_new new, Operation.nodesOf_append, nodesOf_similarityScript, List.append_nil,
    nodesOf_elementsScript]

/-- What a content node tells about its record. -/
theorem attributes_contentNode (flow content : String) (identity : Identity) :
    (contentNode flow content identity).attributes.find? "type" = some "content" ∧
      (contentNode flow content identity).attributes.find? "flow_id" = some flow ∧
      (contentNode flow content identity).attributes.find? "content_hash" =
        some (Fingerprint.hexOfText content) := by
  unfold contentNode Table.ofList
  dsimp only
  rw [Table.find?_insertAll, Table.find?_insertAll, Table.find?_insertAll]
  exact ⟨rfl, rfl, rfl⟩

/-- **A content node is stored as it is made**, but for its activation. -/
theorem find?_contentNode_script (new : g.hasNode (contentId (flowOf record)) = false) :
    ∃ level, (nextAll g (m.script g record identity)).nodes.find? (contentId (flowOf record)) =
      some ((contentNode (flowOf record) record.content identity).setActivation level) := by
  have adds : ∀ op ∈ m.script g record identity, op.adds = true := adds_script
  have hrest := Operation.atRest_nextAll (g := g) adds (contentId (flowOf record))
  -- the content node comes first
  have hfirst : (nodesOf (m.script g record identity)).find?
      (fun node => node.id = contentId (flowOf record)) =
        some (contentNode (flowOf record) record.content identity) := by
    rw [nodesOf_script new, List.cons_append]
    exact List.find?_cons_of_pos (decide_eq_true rfl)
  rw [Table.contains_eq_false_iff.1 new, Option.map_none, Option.none_or, hfirst, Option.map_some] at hrest
  obtain ⟨node, hnode, heq⟩ := Option.map_eq_some_iff.1 hrest
  rw [Node.eq_setActivation_of_atRest heq] at hnode
  exact ⟨node.activation, hnode⟩

/-! ### Members -/

/-- **Every edge of a record joins its content.** -/
theorem contentId_mem_members (new : g.hasNode (contentId (flowOf record)) = false) {edge : Edge}
    (h : edge ∈ edgesOf (m.script g record identity)) : contentId (flowOf record) ∈ edge.members := by
  rcases (mem_edgesOf_script new).1 h with hwords | hattributes | hsimilar
  · unfold wordEdges at hwords
    split at hwords
    · cases hwords
    · rw [List.mem_singleton.1 hwords]
      exact mem_members_wordsEdge.2 (.inl rfl)
  · rcases List.mem_append.1 hattributes with heach | hcluster
    · obtain ⟨a, -, rfl⟩ := List.mem_map.1 heach
      exact mem_members_attributeEdge.2 (.inl rfl)
    · split at hcluster
      · cases hcluster
      · rw [List.mem_singleton.1 hcluster]
        exact mem_members_clusterEdge.2 (.inl rfl)
  · unfold similarityEdges at hsimilar
    split at hsimilar
    · cases hsimilar
    · rw [List.mem_singleton.1 hsimilar]
      exact mem_members_similarityEdge.2 (.inl rfl)

/-! ### Members are there -/

/-- Of a number and an edge that it completes, the edge finds its members if they are stored. -/
theorem supplied_numbered {edge : Edge} (stored : ∀ id ∈ edge.members, g.hasNode id = true) :
    Supplied g [.nextSequence, .addEdge edge] := by
  refine .cons nofun (.cons ?_ (.nil _))
  rintro _ ⟨⟩
  exact stored

theorem supplied_wordsScript (content : g.hasNode (contentId flow) = true) (words : List String)
    (n : UInt64) : Supplied g (wordsScript flow words n) := by
  refine Supplied.append (Operation.supplied_of_edge?_eq_none ?_) ?_
  · intro op hop
    obtain ⟨word, -, rfl⟩ := List.mem_map.1 hop
    rfl
  · split
    · exact .nil _
    · exact supplied_numbered (stored_wordsEdge content words n)

theorem supplied_attributes (content : g.hasNode (contentId flow) = true)
    (attributes : List (String × String)) : Supplied g (attributes.flatMap (attributeScript flow)) := by
  induction attributes generalizing g with
  | nil => exact .nil _
  | cons a rest ih =>
    have adds : ∀ op ∈ attributeScript flow a, op.adds = true := by
      intro op hop
      rcases List.mem_pair.1 hop with rfl | rfl <;> rfl
    have hfirst : Supplied g (attributeScript flow a) := by
      refine .cons nofun (.cons ?_ (.nil _))
      rintro _ ⟨⟩
      exact stored_attributeEdge content a.1 a.2
    exact hfirst.append (ih (Operation.hasNode_nextAll adds content))

theorem supplied_attributesScript (content : g.hasNode (contentId flow) = true)
    (attributes : List (String × String)) (n : UInt64) :
    Supplied g (attributesScript flow attributes n) := by
  refine (supplied_attributes content attributes).append ?_
  split
  · exact .nil _
  · exact supplied_numbered (stored_clusterEdge content attributes n)

theorem supplied_elementsScript : Supplied g (m.elementsScript g record identity) := by
  unfold elementsScript
  refine Supplied.append (.cons nofun (supplied_wordsScript ?_ _ _)) ?_
  · rw [Operation.hasNode_next_addNode]
    exact Bool.or_eq_true_iff.2 (.inl (decide_eq_true rfl))
  · unfold spreadScript
    refine (supplied_attributesScript hasNode_contentScript _ _).append ?_
    exact Operation.supplied_of_edge?_eq_none (List.forall_mem_singleton.2 rfl)

theorem supplied_similarityScript (h : g.WellFormed) (content : g.hasNode (contentId flow) = true)
    (n : UInt64) : Supplied g (similarityScript flow (m.similarTo g flow) n) := by
  unfold similarityScript
  split
  · exact .nil _
  · exact supplied_numbered (stored_similarityEdge m h content n)

/-- **No edge of a script wants for members.** -/
theorem supplied_script (h : g.WellFormed) : Supplied g (m.script g record identity) := by
  cases known : g.hasNode (contentId (flowOf record)) with
  | true =>
    rw [script_known known]
    exact Operation.supplied_of_edge?_eq_none (List.forall_mem_singleton.2 rfl)
  | false =>
    rw [script_new known, similarOf_new known]
    have hwf : (nextAll g (m.elementsScript g record identity)).WellFormed :=
      wellFormed_nextAll h _ adds_elementsScript
    have content : (nextAll g (m.elementsScript g record identity)).hasNode
        (contentId (flowOf record)) = true := hasNode_elementsScript
    refine supplied_elementsScript.append ?_
    exact supplied_similarityScript hwf content _

end Mapper

end ResonantGraph
