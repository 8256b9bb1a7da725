import ResonantGraph.Proofs.Mapper.Elements
import ResonantGraph.Proofs.Mapper.Session
import ResonantGraph.Settings

/-!
# Records one after the other

A unit with a mapper takes in any record, whatever graph it finds (`Mapper.process_ok`), and any number of
them (`Mapper.processAll_ok`). The graph that they leave is the one their scripts lead to, each found on
the graph that is there when its turn comes (`Mapper.mapAll`).
-/

namespace ResonantGraph

open Operation (nextAll)

/-! ### Where a unit begins -/

/-- There is no node and no edge; the sequence may have got anywhere. -/
structure Hypergraph.Bare (g : Hypergraph) : Prop where
  /-- There is no node. -/
  nodes : g.nodes = ∅
  /-- There is no edge. -/
  edges : g.edges = ∅

theorem Hypergraph.Bare.wellFormed {g : Hypergraph} (h : g.Bare) : g.WellFormed := by
  have hequal : g = { (∅ : Hypergraph) with sequence := g.sequence } := by
    cases g
    cases h.nodes
    cases h.edges
    rfl
  rw [hequal]
  exact ⟨nofun, nofun, nofun, nofun⟩

theorem Substrate.bare_ofStore {σ : Type} (store : σ) : (ofStore store).graph.Bare := ⟨rfl, rfl⟩

namespace Processor

variable {σ : Type} {p : Processor σ} {g : Hypergraph}

/-- A graph with the root of a unit. -/
def seeded (p : Processor σ) (g : Hypergraph) : Hypergraph := Operation.next g (.addNode p.rootNode)

theorem wellFormed_seeded (h : g.Bare) : (p.seeded g).WellFormed := h.wellFormed.applyAll [.addNode p.rootNode]

theorem edges_seeded (h : g.Bare) : (p.seeded g).edges = ∅ := (g.edges_addNode p.rootNode).trans h.edges

theorem find?_nodes_seeded (h : g.Bare) (id : NodeId) :
    (p.seeded g).nodes.find? id = if rootId p.name = id then some p.rootNode.clamped else none := by
  change (g.addNode p.rootNode).2.nodes.find? id = _
  rw [Hypergraph.find?_nodes_addNode, h.nodes, Table.find?_empty, Option.none_or]
  rfl

theorem hasNode_seeded (h : g.Bare) (id : NodeId) :
    (p.seeded g).hasNode id = true ↔ id ∈ [rootId p.name] := by
  unfold Hypergraph.hasNode Table.contains
  rw [find?_nodes_seeded h, List.mem_singleton, eq_comm (a := id)]
  split <;> simp [*]

end Processor

namespace Mapper

variable {m : Mapper} {identity : Identity} {g : Hypergraph}

/-- The graph with records in it, taken in one after the other. -/
def mapAll (m : Mapper) (identity : Identity) (g : Hypergraph) (records : List Record) : Hypergraph :=
  records.foldl (fun g record => nextAll g (m.script g record identity)) g

theorem mapAll_cons (record : Record) (records : List Record) :
    m.mapAll identity g (record :: records) =
      m.mapAll identity (nextAll g (m.script g record identity)) records := rfl

theorem mapAll_append (records records' : List Record) :
    m.mapAll identity g (records ++ records') = m.mapAll identity (m.mapAll identity g records) records' :=
  List.foldl_append ..

theorem mapAll_singleton (record : Record) :
    m.mapAll identity g [record] = nextAll g (m.script g record identity) := rfl

theorem wellFormed_mapAll (h : g.WellFormed) (records : List Record) :
    (m.mapAll identity g records).WellFormed := by
  induction records generalizing g with
  | nil => exact h
  | cons record records ih => exact ih (wellFormed_nextAll h _ adds_script)

theorem grows_mapAll (records : List Record) : g.Grows (m.mapAll identity g records) := by
  induction records generalizing g with
  | nil => exact .refl g
  | cons record records ih => exact (Operation.grows_nextAll adds_script).trans ih

/-- Records have outcomes, whatever graph they find. -/
theorem session_mapAll (records : List Record) :
    ∃ outcomes, m.Session identity g records outcomes (m.mapAll identity g records) := by
  induction records generalizing g with
  | nil => exact ⟨[], .nil g⟩
  | cons record records ih =>
    -- a report looks for the content of its record, which the script has added if it was not there
    obtain ⟨outcomes, hrest⟩ := ih (g := nextAll g (m.script g record identity))
    exact ⟨_, .cons (report_of_hasNode hasNode_script _) hrest⟩

/-- A report tells the number of similar contents. -/
theorem report_ok {flow : String} (content : g.hasNode (contentId flow) = true) (similar : Nat) :
    ∃ outcome, m.report g flow similar = .ok outcome ∧
      outcome.metadata.find? "hypergraph.similar_content_count" = some (toString similar) := by
  refine ⟨_, report_of_hasNode content similar, ?_⟩
  -- the entry is the last but one, so it is not replaced, whatever comes before it
  unfold metadata Table.ofList
  dsimp only
  rw [Table.find?_insertAll, List.reverse_append]
  rfl

/-- A record that names its flow. -/
def namedRecord (flow content : String) : Record where
  content := content
  attributes := Table.ofList [(Record.flowAttribute, flow)]

section Process

variable {σ : Type} [Store σ] {p : Processor σ}

/-- **A record is taken in**, whatever graph it finds. -/
theorem process_ok (hp : p.handler = m.handler) (record : Record) (kernel : Kernel) {s : Substrate σ}
    (h : s.graph.WellFormed) :
    ∃ outcome kernel' s', p.process record { kernel, substrate := some s } =
        (.ok outcome, { kernel := kernel', substrate := some s' }) ∧
      kernel'.identity = kernel.identity ∧
      s'.graph = nextAll s.graph (m.script s.graph record kernel.identity) ∧
      outcome.metadata.find? "hypergraph.similar_content_count" =
        some (toString (m.similarOf s.graph record kernel.identity).length) := by
  obtain ⟨kernel', hidentity, hprocess⟩ := process_handler hp record kernel h
  have hgraph : (s.performAll (m.script s.graph record kernel.identity)).2.graph =
      nextAll s.graph (m.script s.graph record kernel.identity) := s.graph_performAll adds_script
  obtain ⟨outcome, hreport, hsimilar⟩ := report_ok (m := m) hasNode_script
    (m.similarOf s.graph record kernel.identity).length
  rw [hreport] at hprocess
  exact ⟨outcome, kernel', _, hprocess, hidentity, hgraph, hsimilar⟩

/-- Records are taken in one after the other. -/
theorem processAll_ok (hp : p.handler = m.handler) (records : List Record) (kernel : Kernel)
    {s : Substrate σ} (h : s.graph.WellFormed) :
    ∃ (outcomes : List Outcome) (kernel' : Kernel) (s' : Substrate σ),
      p.processAll records { kernel, substrate := some s } =
        (outcomes.map .ok, { kernel := kernel', substrate := some s' }) ∧
      s'.graph = m.mapAll kernel.identity s.graph records := by
  obtain ⟨outcomes, hsession⟩ :
    ∃ outcomes, m.Session kernel.identity s.graph records outcomes
      (m.mapAll kernel.identity s.graph records) := session_mapAll records
  obtain ⟨kernel', s', hrun, hend⟩ := hsession.processAll hp h rfl rfl
  exact ⟨outcomes, kernel', s', hrun, hend⟩

/-- A unit takes in records from the beginning. -/
theorem processAll_setUp (hp : p.handler = m.handler) (records : List Record) (kernel : Kernel)
    {s : Substrate σ} (h : s.graph.Bare) :
    ∃ (outcomes : List Outcome) (kernel' : Kernel) (s' : Substrate σ),
      p.processAll records (p.setUp { kernel, substrate := some s }) =
        (outcomes.map .ok, { kernel := kernel', substrate := some s' }) ∧
      s'.graph = m.mapAll p.identity (p.seeded s.graph) records := by
  have hperform : (s.perform (.addNode p.rootNode)).2.graph = p.seeded s.graph := s.graph_perform rfl
  have hseeded : (s.addNode p.rootNode).2.graph = p.seeded s.graph := hperform
  have hwf : (s.addNode p.rootNode).2.graph.WellFormed := by
    rw [hseeded]
    exact Processor.wellFormed_seeded h
  have hrun := processAll_ok hp records (kernel.awaken p.identity) hwf
  rw [hseeded, Kernel.identity_awaken] at hrun
  exact hrun

end Process

end Mapper

end ResonantGraph
