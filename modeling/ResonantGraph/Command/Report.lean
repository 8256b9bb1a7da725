import ResonantGraph.Command.Json
import ResonantGraph.Hypergraph.Metrics
import ResonantGraph.Processor
import ResonantGraph.Text.Quoted

/-!
# Reports

What the commands print. Each report has a form for readers, a list of lines, and a structured form,
a JSON document. Both show the same figures; the lines show reals with six places.
-/

namespace ResonantGraph.Command

/-- A report in both forms. -/
structure Report where
  /-- The lines for readers. -/
  lines : List String
  /-- The structured form. -/
  document : Json

namespace Report

/-- The lines of a report in one of its forms. -/
def shown (r : Report) (json : Bool) : List String := if json then [r.document.render] else r.lines

/-! ### Outcomes -/

/-- Where a record from a source goes, and what was found out about it. -/
def ofOutcome (source : String) (outcome : Outcome) : Report where
  lines :=
    (source ++ " -> " ++ outcome.route) ::
      outcome.metadata.entries.map fun (key, value) => "  " ++ key ++ " = " ++ value
  document := .object [
    ("source", .text source),
    ("route", .text outcome.route),
    ("metadata", .object (outcome.metadata.entries.map fun (key, value) => (key, .text value)))]

/-! ### Figures -/

/-- The structured form of the figures about a node. -/
def ofNodeMetrics (m : NodeMetrics) : Json :=
  .object [
    ("id", .text m.id),
    ("connections", .count m.connections),
    ("incident_edges", .count m.incidentEdges),
    ("clustering_coefficient", .real m.clusteringCoefficient),
    ("activation", .real m.activation),
    ("connected", .list (m.connected.map .text))]

/-- The structured form of the figures about a graph. -/
def ofMetrics (m : Metrics) : Json :=
  .object [
    ("node_count", .count m.nodeCount),
    ("edge_count", .count m.edgeCount),
    ("density", .real m.density),
    ("total_activation", .real m.totalActivation),
    ("max_arity", .count m.maxArity),
    ("focus", (m.focus.map ofNodeMetrics).getD .null)]

/-- The lines about the node that was asked for. -/
def focusLines (node : Option NodeId) (figures : Option NodeMetrics) : List String :=
  match node, figures with
  | some _, some m =>
    ["",
      "Node " ++ m.id ++ ":",
      "  Connections:    " ++ toString m.connections,
      "  Incident Edges: " ++ toString m.incidentEdges,
      "  Clustering:     " ++ m.clusteringCoefficient.sixPlaces,
      "  Activation:     " ++ m.activation.sixPlaces]
  | some id, none => ["", "Node " ++ id ++ " not found"]
  | none, _ => []

/-- Figures about the graph of a store, and about a node of it if one was asked for. -/
def ofStatus (store : Option String) (node : Option NodeId) (m : Metrics) : Report where
  lines :=
    ["HyperEcho Substrate Status",
      "==========================",
      "Store:      " ++ (store.map Text.quote).getD "(in-memory)",
      "",
      "Nodes:      " ++ toString m.nodeCount,
      "Edges:      " ++ toString m.edgeCount,
      "Density:    " ++ m.density.sixPlaces,
      "Activation: " ++ m.totalActivation.sixPlaces,
      "Max Arity:  " ++ toString m.maxArity] ++
    focusLines node m.focus
  document := .object [
    ("store", (store.map .text).getD .null),
    ("metrics", ofMetrics m)]

/-! ### Scores -/

/-- The score of a text against an identity. -/
def ofScore (text : String) (identity : Identity) (score : Binary64) : Report where
  lines :=
    ["Identity:  " ++ identity.signature,
      "Patterns:  " ++ ", ".intercalate identity.patterns,
      "Resonance: " ++ score.sixPlaces]
  document := .object [
    ("text", .text text),
    ("identity", .text identity.signature),
    ("patterns", .list (identity.patterns.map .text)),
    ("resonance", .real score)]

end Report

end ResonantGraph.Command
