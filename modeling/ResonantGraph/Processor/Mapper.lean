import ResonantGraph.Processor
import ResonantGraph.Words

/-!
# Mapping records into a graph

The mapper makes a record part of the graph. A record belongs to a *flow*, named by the record or by
the fingerprint of its content, and the first record of a flow adds

* a content node of the flow,
* a node for each word that has none yet, and one edge that joins the content to all its words,
* a node for each attribute with an edge to the content, and one edge that joins all of these if
  there are several,
* after activation has spread from the content, one edge that joins it to the content nodes of other
  flows with which it has enough connected nodes in common.

A later record of the flow only spreads activation again. In the end the content node is looked at,
and the record is routed by how well it is connected.
-/

namespace ResonantGraph

/-- What a mapper goes by. -/
structure Mapper where
  /-- The least number of characters of a word. -/
  minWordLength : Nat
  /-- The clustering coefficient that a clustered record exceeds. -/
  clusterThreshold : Binary64
  /-- The least number of connections of a clustered record. -/
  clusterMinConnections : Nat
  /-- The least number of connected nodes that similar contents share. -/
  similarityMinShared : Nat

namespace Mapper

/-! ### Names -/

/-- The flow of a record. -/
def flowOf (record : Record) : String :=
  record.uuid?.getD ("flow_" ++ Fingerprint.hexOfText record.content)

/-- The identifier of the content node of a flow. -/
def contentId (flow : String) : NodeId := flow ++ "_content"

/-- The identifier of the node of a word. -/
def wordId (word : String) : NodeId := "word_" ++ word

/-- The identifier of the node of an attribute. -/
def attributeId (flow name : String) : NodeId := flow ++ "_attr_" ++ name

/-- The identifier of an edge of a flow with a number from the sequence. -/
def numberedId (flow kind : String) (n : UInt64) : EdgeId :=
  flow ++ "_" ++ kind ++ "_" ++ toString n.toNat

/-- Attributes whose names begin like this belong to the program and are not mapped. -/
def reservedStart : String := "cognitive."

/-! ### Levels and strengths -/

/-- The activation of a new word, 0.1. -/
def wordActivation : Binary64 := ⟨0x3fb999999999999a⟩

/-- The activation of a new attribute, 0.2. -/
def attributeActivation : Binary64 := ⟨0x3fc999999999999a⟩

/-- The activation that spreads from a content node. -/
def mappedActivation : Binary64 := 1

/-- The strength of the edge between a content and its words. -/
def containsStrength : Binary64 := 1

/-- The strength of the edge between a content and an attribute, 0.8. -/
def attributeStrength : Binary64 := ⟨0x3fe999999999999a⟩

/-- The strength of the edge among all attributes of a content, 0.6. -/
def clusterStrength : Binary64 := ⟨0x3fe3333333333333⟩

/-- The strength of the edge among similar contents, 0.9. -/
def similarityStrength : Binary64 := ⟨0x3feccccccccccccd⟩

/-! ### Elements -/

/-- The content node of a record. -/
def contentNode (flow content : String) (identity : Identity) : Node where
  id := contentId flow
  label := "Content"
  identity := identity
  attributes := Table.ofList
    [("type", "content"), ("flow_id", flow),
      ("content_length", toString (Text.bytes content).length),
      ("content_hash", Fingerprint.hexOfText content)]

/-- The node of a word. -/
def wordNode (word : String) : Node where
  id := wordId word
  label := "Word: " ++ word
  attributes := Table.ofList [("type", "word"), ("word", word)]
  activation := wordActivation

/-- The node of an attribute. -/
def attributeNode (flow name value : String) : Node where
  id := attributeId flow name
  label := "Attribute: " ++ name
  attributes := Table.ofList [("type", "attribute"), ("name", name), ("value", value)]
  activation := attributeActivation

/-- The edge between a content and its words. -/
def wordsEdge (flow : String) (n : UInt64) (words : List String) : Edge where
  id := numberedId flow "content_edge" n
  label := "Content-Word Relationship"
  members := NameSet.ofNames (contentId flow :: words.map wordId)
  attributes := Table.ofList [("type", "contains_words")]
  strength := containsStrength

/-- The edge between a content and an attribute. -/
def attributeEdge (flow name : String) : Edge where
  id := flow ++ "_attr_edge_" ++ name
  label := "Content-Attribute Relationship"
  members := NameSet.ofNames [contentId flow, attributeId flow name]
  attributes := Table.ofList [("type", "has_attribute"), ("attribute_name", name)]
  strength := attributeStrength

/-- The edge among all attributes of a content. -/
def clusterEdge (flow : String) (n : UInt64) (attributes : List NodeId) : Edge where
  id := numberedId flow "attribute_cluster" n
  label := "Attribute Cluster"
  members := NameSet.ofNames (attributes ++ [contentId flow])
  attributes := Table.ofList [("type", "attribute_cluster")]
  strength := clusterStrength

/-- The edge among similar contents. -/
def similarityEdge (flow : String) (n : UInt64) (others : List NodeId) : Edge where
  id := numberedId flow "similarity" n
  label := "Content Similarity"
  members := NameSet.ofNames (contentId flow :: others)
  attributes := Table.ofList [("type", "similarity"), ("similarity_type", "content_overlap")]
  strength := similarityStrength

/-! ### Steps -/

section Steps

variable {σ : Type} [Store σ]

/-- Adds the edge that a number from the sequence completes. -/
def addNumbered (s : Substrate σ) (edge : UInt64 → Edge) : Except Failure Bool × Substrate σ :=
  let (n, s) := s.nextSequence
  s.addEdge (edge n)

/-- Adds the words of a content, and the edge that joins it to them if there are any. -/
def mapWords (s : Substrate σ) (flow : String) (words : List String) :
    Except Failure Bool × Substrate σ :=
  let s := words.foldl (fun s word => (s.addNode (wordNode word)).2) s
  if words = [] then (.ok false, s) else addNumbered s fun n => wordsEdge flow n words

/-- Adds the nodes of attributes, each with its edge, and lists the new nodes. -/
def mapEachAttribute (flow : String) :
    List (String × String) → Substrate σ → Except Failure (List NodeId) × Substrate σ
  | [], s => (.ok [], s)
  | (name, value) :: rest, s =>
    match s.addNode (attributeNode flow name value) with
    | (false, s) => mapEachAttribute flow rest s
    | (true, s) =>
      match s.addEdge (attributeEdge flow name) with
      | (.error e, s) => (.error e, s)
      | (.ok _, s) =>
        match mapEachAttribute flow rest s with
        | (.error e, s) => (.error e, s)
        | (.ok ids, s) => (.ok (attributeId flow name :: ids), s)

/-- The attributes of a record that are mapped. -/
def mappedAttributes (record : Record) : List (String × String) :=
  record.attributes.entries.filter fun e => !Memory.beginsWith e.1 reservedStart

/-- Adds the attributes of a record, and the edge that joins the new ones if there are several. -/
def mapAttributes (s : Substrate σ) (flow : String) (record : Record) :
    Except Failure Bool × Substrate σ :=
  match mapEachAttribute flow (mappedAttributes record) s with
  | (.error e, s) => (.error e, s)
  | (.ok ids, s) =>
    if ids.length < 2 then (.ok false, s) else addNumbered s fun n => clusterEdge flow n ids

/-- The content nodes of other flows that share enough connected nodes with a content. -/
def similarTo (m : Mapper) (g : Hypergraph) (flow : String) : List NodeId :=
  let around := (g.connected (contentId flow)).names
  (g.nodesWithAttribute "type" "content").filter fun other =>
    other ≠ contentId flow &&
      m.similarityMinShared ≤ (NameSet.common around (g.connected other).names).length

/-- Joins a content to the similar ones, if there are any, and counts them. -/
def linkSimilar (m : Mapper) (s : Substrate σ) (flow : String) :
    Except Failure Nat × Substrate σ :=
  let others := m.similarTo s.graph flow
  if others = [] then (.ok 0, s)
  else
    match addNumbered s fun n => similarityEdge flow n others with
    | (.error e, s) => (.error e, s)
    | (.ok _, s) => (.ok others.length, s)

/-- Makes a record part of the graph, and counts the similar contents. -/
def mapRecord (m : Mapper) (s : Substrate σ) (record : Record) (identity : Identity) :
    Except Failure Nat × Substrate σ :=
  let flow := flowOf record
  match s.addNode (contentNode flow record.content identity) with
  | (false, s) => (.ok 0, (s.propagate (contentId flow) mappedActivation).2)
  | (true, s) =>
    match mapWords s flow (Words.ofText m.minWordLength record.content).names with
    | (.error e, s) => (.error e, s)
    | (.ok _, s) =>
      match mapAttributes s flow record with
      | (.error e, s) => (.error e, s)
      | (.ok _, s) => m.linkSimilar (s.propagate (contentId flow) mappedActivation).2 flow

end Steps

/-! ### Outcomes -/

/-- The route of a content node. -/
def route (m : Mapper) (coefficient : Binary64) (connections : Nat) : String :=
  if m.clusterThreshold.below coefficient ∧ m.clusterMinConnections ≤ connections then "clustered"
  else if 2 ≤ connections then "enhanced"
  else if 1 ≤ connections then "mapped"
  else "isolated"

/-- The kind of the handler. -/
def kind : String := "mapper"

/-- What the record is annotated with. -/
def metadata (flow : String) (figures : Metrics) (focus : NodeMetrics) (similar : Nat) :
    Attributes :=
  let listed :=
    if focus.connected = [] then []
    else [("hypergraph.connected_nodes", String.intercalate "," focus.connected)]
  Table.ofList <|
    [("hypergraph.flow_id", flow),
      ("hypergraph.total_nodes", toString figures.nodeCount),
      ("hypergraph.total_edges", toString figures.edgeCount),
      ("hypergraph.substrate_density", figures.density.sixPlaces),
      ("hypergraph.node_connections", toString focus.connections),
      ("hypergraph.incident_edges", toString focus.incidentEdges),
      ("hypergraph.clustering_coefficient", focus.clusteringCoefficient.sixPlaces),
      ("hypergraph.node_activation", focus.activation.sixPlaces)] ++
    listed ++
    [("hypergraph.similar_content_count", toString similar),
      ("hypergraph.processor", kind)]

/-- Looks at the content node of a flow and routes its record. -/
def report (m : Mapper) (g : Hypergraph) (flow : String) (similar : Nat) :
    Except Failure Outcome :=
  let figures := g.metrics (some (contentId flow))
  match figures.focus with
  | none => .error (.handler (.vanished (contentId flow)))
  | some focus =>
    .ok ⟨m.route focus.clusteringCoefficient focus.connections,
      metadata flow figures focus similar⟩

/-- The handler of a mapper. -/
def handler {σ : Type} [Store σ] (m : Mapper) : Handler σ where
  kind := kind
  handle name record w :=
    match w.requireSubstrate name with
    | .error e => (.error e, w)
    | .ok s =>
      let kernel := (w.kernel.signal record.content).2
      match m.mapRecord s record kernel.identity with
      | (.error e, s) => (.error e, { w with kernel, substrate := some s })
      | (.ok similar, s) =>
        (m.report s.graph (flowOf record) similar, { w with kernel, substrate := some s })

end Mapper

end ResonantGraph
