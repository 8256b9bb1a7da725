import ResonantGraph.Proofs.Mapper.Records

/-!
# Mapping adds

A unit with a mapper always takes a record in, and in doing so only adds (`Mapper.process_adds`): what the
graph has stays, activations aside. A record of a flow whose content is there adds nothing at all and
spreads activation, so it does not matter how often a record is mapped. Without a substrate the unit
refuses every record, and neither counts nor remembers it.
-/

namespace ResonantGraph

open Operation (nextAll)

/-! ### What spreading activation leaves -/

namespace Hypergraph

@[simp] theorem keys_propagate (g : Hypergraph) (source : NodeId) (initial : Binary64) :
    (g.propagate source initial).2.nodes.keys = g.nodes.keys := by
  unfold propagate
  split
  · exact Table.keys_mapValues ..
  · rfl

end Hypergraph

namespace Mapper

variable {m : Mapper} {g : Hypergraph} {record : Record} {identity : Identity}

/-! ### Records of known flows -/

theorem nextAll_script_known (known : g.hasNode (contentId (flowOf record)) = true) :
    nextAll g (m.script g record identity) =
      (g.propagate (contentId (flowOf record)) mappedActivation).2 := by
  rw [script_known known]
  rfl

/-- A record adds no node and no edge from the second time on. -/
theorem mapAll_replicate (known : g.hasNode (contentId (flowOf record)) = true) (n : Nat) :
    (m.mapAll identity g (List.replicate n record)).nodes.keys = g.nodes.keys ∧
      (m.mapAll identity g (List.replicate n record)).edges = g.edges := by
  -- the content is still there after each time, which is what the next one needs
  induction n generalizing g with
  | zero => exact ⟨rfl, rfl⟩
  | succ n ih =>
    have hstep : nextAll g (m.script g record identity) =
        (g.propagate (contentId (flowOf record)) mappedActivation).2 := nextAll_script_known known
    obtain ⟨hnodes, hedges⟩ := ih (g := nextAll g (m.script g record identity)) hasNode_script
    rw [List.replicate_succ, mapAll_cons]
    refine ⟨hnodes.trans ?_, hedges.trans ?_⟩
    · rw [hstep, Hypergraph.keys_propagate]
    · rw [hstep, Hypergraph.edges_propagate]

/-! ### Units -/

section Process

variable {σ : Type} [Store σ] {p : Processor σ}

/-- Without a substrate every record is refused. -/
theorem process_detached (hp : p.handler = m.handler) (record : Record) (kernel : Kernel) :
    p.process record { kernel, substrate := none } =
      (.error (.handler (.detached p.name)),
        { kernel := (kernel.enter .processing).enter .dormant, substrate := none }) := by
  unfold Processor.process
  rw [hp]
  rfl

/-- **Mapping a record adds to a graph, and adds once.** On a well-formed graph a unit with a mapper always
succeeds, and leaves a well-formed graph that has what was there. If the content of the flow was there,
activation spreads from it and that is all. Mapping the record again as often as one likes adds no node and
no edge. Without a substrate, every record fails and leaves no trace in the count and the memory. -/
theorem process_adds (hp : p.handler = m.handler) (record : Record) (kernel : Kernel) :
    (∀ s : Substrate σ, s.graph.WellFormed →
      ∃ outcome kernel' s', p.process record { kernel, substrate := some s } =
          (.ok outcome, { kernel := kernel', substrate := some s' }) ∧
        s'.graph.WellFormed ∧ s.graph.Grows s'.graph ∧
        (s.graph.hasNode (contentId (flowOf record)) = true →
          s'.graph = (s.graph.propagate (contentId (flowOf record)) 1).2 ∧
          s'.graph.nodes.keys = s.graph.nodes.keys ∧ s'.graph.edges = s.graph.edges ∧
          s'.graph.sequence = s.graph.sequence ∧
          outcome.metadata.find? "hypergraph.similar_content_count" = some "0") ∧
        ∀ n, ∃ (outcomes : List Outcome) (kernel'' : Kernel) (s'' : Substrate σ),
          p.processAll (List.replicate n record) { kernel := kernel', substrate := some s' } =
            (outcomes.map .ok, { kernel := kernel'', substrate := some s'' }) ∧
          s''.graph.nodes.keys = s'.graph.nodes.keys ∧ s''.graph.edges = s'.graph.edges) ∧
    ∃ kernel', p.process record { kernel, substrate := none } =
        (.error (.handler (.detached p.name)), { kernel := kernel', substrate := none }) ∧
      kernel'.phase = .dormant ∧ kernel'.processCount = kernel.processCount ∧
      kernel'.memory = kernel.memory := by
  refine ⟨?_, ?_⟩
  · intro s hwf
    obtain ⟨outcome, kernel', s', hprocess, -, hgraph, hsimilar⟩ := process_ok hp record kernel hwf
    have hwf' : s'.graph.WellFormed := by
      rw [hgraph]
      exact wellFormed_nextAll hwf _ adds_script
    have hgrows : s.graph.Grows s'.graph := by
      rw [hgraph]
      exact Operation.grows_nextAll adds_script
    refine ⟨outcome, kernel', s', hprocess, hwf', hgrows, ?_, ?_⟩
    · -- of a known flow nothing is added, and no similar contents are looked for
      intro known
      have hspread : s'.graph = (s.graph.propagate (contentId (flowOf record)) 1).2 := by
        rw [hgraph]
        exact nextAll_script_known known
      rw [similarOf_known known] at hsimilar
      refine ⟨hspread, ?_, ?_, ?_, hsimilar⟩ <;> rw [hspread]
      · exact s.graph.keys_propagate ..
      · exact s.graph.edges_propagate ..
      · exact s.graph.sequence_propagate ..
    · intro n
      -- the content is there by now
      have known : s'.graph.hasNode (contentId (flowOf record)) = true := by
        rw [hgraph]
        exact hasNode_script
      obtain ⟨outcomes, kernel'', s'', hrun, hend⟩ :=
        processAll_ok hp (List.replicate n record) kernel' hwf'
      refine ⟨outcomes, kernel'', s'', hrun, ?_⟩
      rw [hend]
      exact mapAll_replicate known n
  · refine ⟨_, process_detached hp record kernel, Kernel.phase_enter .., ?_, ?_⟩
    · rw [Kernel.processCount_enter, Kernel.processCount_enter]
    · rw [Kernel.memory_enter, Kernel.memory_enter]

end Process

/-- `process_adds` on a graph that has the content of the flow and nothing else. -/
theorem process_adds_again :
    let m : Mapper := ({} : Settings).mapper
    let p : Processor Store.Tables := { name := "mapper", handler := m.handler }
    let record : Record := namedRecord "f" "alpha bravo"
    let g : Hypergraph := Operation.next ∅ (.addNode (contentNode "f" "alpha bravo" {}))
    g.WellFormed ∧ g.hasNode (contentId (flowOf record)) = true ∧
      ∃ outcome kernel' s',
        p.process record { substrate := some { Substrate.ofStore {} with graph := g } } =
          (.ok outcome, { kernel := kernel', substrate := some s' }) ∧
        s'.graph.nodes.keys = ["f_content"] ∧ s'.graph.edges = ∅ ∧
        outcome.metadata.find? "hypergraph.similar_content_count" = some "0" := by
  intro m p record g
  have hwf : g.WellFormed := Hypergraph.wellFormed_empty.applyAll [.addNode _]
  have known : g.hasNode (contentId (flowOf record)) = true := by decide
  refine ⟨hwf, known, ?_⟩
  obtain ⟨hattached, -⟩ := process_adds (p := p) (m := m) rfl record {}
  obtain ⟨outcome, kernel', s', hprocess, -, -, hknown, -⟩ :=
    hattached { Substrate.ofStore {} with graph := g } hwf
  obtain ⟨-, hkeys, hedges, -, hsimilar⟩ := hknown known
  exact ⟨outcome, kernel', s', hprocess, hkeys, hedges, hsimilar⟩

end Mapper

end ResonantGraph
