import ResonantGraph.Proofs.Mapper.Extent
import ResonantGraph.Proofs.Mapper.Renumbered
import ResonantGraph.Proofs.Substrate.Mirror
import ResonantGraph.Proofs.Substrate.Reopened

/-!
# Sessions of a mapper

A session begins with a graph, and takes in one record after the other, each of which has an outcome
(`Mapper.Session`). The graphs of a session and its outcomes do not depend on where the graph is kept. What
does is whether it is there the next time: a store of bytes that mirrors the graph (`Substrate.Kept`) gives
it back, except for the sequence, which begins anew (`Substrate.Kept.load_opened`).

So a session that is interrupted by opening the store again goes on with another number of the sequence.
By `Mapper.Paired.script` this shows nowhere but in the numbers at the end of identifiers:
`Mapper.Paired.session_cons` takes both sessions one record further, with one outcome.
-/

namespace ResonantGraph

open Operation (nextAll)
open Store (Blobs Tables)

/-! ### Substrates that are kept -/

namespace Substrate

/-- The store mirrors the graph, and there is room for a number of records. -/
structure Kept (room : Nat) (s : Substrate Blobs) : Prop where
  /-- A store of elements in its place would hold the graph. -/
  mirrored : ∃ t, Related Blobs.Encodes s t ∧ t.Mirrored
  /-- All of the graph can be written. -/
  every : s.graph.Every (fun _ => Node.Fits) fun _ => Edge.Fits
  /-- Each record gets room for as many nodes as it may ask for. -/
  size : s.graph.nodes.size + room * Mapper.mostOperations ≤ 2 ^ 63

/-- A substrate over the store of another, with its nodes and edges and a sequence that begins anew. -/
def opened (s : Substrate Blobs) : Substrate Blobs :=
  { ofStore s.store with graph := { s.graph with sequence := 0 } }

namespace Kept

variable {room : Nat} {s : Substrate Blobs} {ops : List Operation}

theorem empty (h : room * Mapper.mostOperations ≤ 2 ^ 63) : (ofStore ({} : Blobs)).Kept room where
  mirrored := ⟨ofStore {}, ⟨rfl, Blobs.encodes_empty, rfl⟩, mirrored_empty⟩
  every := Hypergraph.Every.empty
  size := by
    change 0 + _ ≤ _
    rwa [Nat.zero_add]

theorem wellFormed (h : s.Kept room) : s.graph.WellFormed := by
  obtain ⟨t, hrelated, hmirrored⟩ := h.mirrored
  rw [hrelated.graph]
  exact hmirrored.wellFormed

theorem weaken {room' : Nat} (h : s.Kept room) (hroom : room' ≤ room) : s.Kept room' where
  mirrored := h.mirrored
  every := h.every
  size := by
    have hsize := h.size
    have hless := Nat.mul_le_mul_right Mapper.mostOperations hroom
    omega

/-- Operations of one record use up the room for one. -/
theorem performAll (h : s.Kept (room + 1)) (adds : ∀ op ∈ ops, op.adds = true)
    (within : ∀ op ∈ ops, op.Within Node.Fits Edge.Fits) (hlength : ops.length ≤ Mapper.mostOperations) :
    (s.performAll ops).2.Kept room := by
  obtain ⟨t, hrelated, hmirrored⟩ := h.mirrored
  have hops : ∀ op ∈ ops, op.Within Node.Fits Edge.Fits ∧ op ≠ .clear := by
    refine fun op hop => ⟨within op hop, ?_⟩
    rintro rfl
    cases adds _ hop
  obtain ⟨⟨-, hrelated'⟩, hevery⟩ := Blobs.simulation.performAll hrelated h.every hops
  have hmirrored' : (t.performAll ops).2.Mirrored := by
    refine hmirrored.performAll fun g hg => ?_
    cases adds _ hg
  refine ⟨⟨_, hrelated', hmirrored'⟩, hevery, ?_⟩
  have hsize := h.size
  have hnodes := Mapper.size_nodes_nextAll (g := s.graph) adds
  rw [Nat.add_mul, Nat.one_mul] at hsize
  rw [s.graph_performAll adds]
  omega

/-- A record is kept if there is room for one more. -/
theorem script {m : Mapper} {record : Record} {identity : Identity} (h : s.Kept (room + 1))
    (hrecord : record.Modest) (hidentity : identity.Fits) :
    (s.performAll (m.script s.graph record identity)).2.Kept room := by
  have hroom : s.graph.nodes.size + Mapper.mostOperations ≤ 2 ^ 63 := by
    have hsize := h.size
    rw [Nat.add_mul, Nat.one_mul] at hsize
    omega
  exact h.performAll Mapper.adds_script (Mapper.within_script hrecord hidentity h.every hroom)
    (Mapper.length_script_le hrecord)

/-- Saving all of the graph once more changes nothing. -/
theorem save (h : s.Kept room) : s.save = (true, s) := by
  obtain ⟨t, hrelated, hmirrored⟩ := h.mirrored
  obtain ⟨hanswer, hsaved⟩ := Blobs.simulation.save hrelated h.every
  rw [hmirrored.save] at hanswer hsaved
  exact Prod.ext hanswer (hsaved.ext (fun _ _ h => h.eq) hrelated)

/-- What is loaded from the store is the graph. -/
theorem load_opened (h : s.Kept room) : (ofStore s.store).load = (true, s.opened) := by
  obtain ⟨t, hrelated, hmirrored⟩ := h.mirrored
  have backed : s.Backed Blobs.ofTables :=
    .of_related Blobs.simulation (fun _ _ h => h.eq) hrelated h.every hmirrored
  exact backed.reopened

/-- The substrate with what is loaded is kept again. -/
theorem opened (h : s.Kept room) : s.opened.Kept room := by
  obtain ⟨t, hrelated, hmirrored⟩ := h.mirrored
  have hgraph : s.opened.graph = { t.graph with sequence := 0 } := by
    rw [← hrelated.graph]
    rfl
  refine ⟨⟨{ ofStore t.store with graph := { t.graph with sequence := 0 } },
    ⟨hgraph, hrelated.store, rfl⟩, hmirrored.store, ?_, rfl⟩, ⟨h.every.nodes, h.every.edges⟩, h.size⟩
  -- the sequence takes no part in being well formed
  have hwf := hmirrored.wellFormed
  exact ⟨hwf.node_id, hwf.edge_id, hwf.members, hwf.clamped⟩

end Kept

/-- Over a store of one of two kinds, a history goes as it does over the store. -/
theorem performAll_inRight {σ τ : Type} [Store σ] [Store τ] (s : Substrate τ) {ops : List Operation}
    (adds : ∀ op ∈ ops, op.adds = true) :
    ((s.inRight : Substrate (σ ⊕ τ)).performAll ops).2 = (s.performAll ops).2.inRight := by
  have simulation : Store.Simulation (fun (x : σ ⊕ τ) t => x = .inr t) (fun _ => True) fun _ => True :=
    Store.simulation_inr
  have hops : ∀ op ∈ ops, op.Within (fun _ => True) (fun _ => True) ∧ op ≠ .clear := by
    refine fun op hop => ⟨?_, ?_⟩
    · cases op <;> first | trivial | exact every_true _
    · rintro rfl
      cases adds _ hop
  obtain ⟨⟨-, hrelated⟩, -⟩ := simulation.performAll s.related_inRight (every_true _) hops
  exact hrelated.eq_inRight

theorem save_inRight {σ τ : Type} [Store σ] [Store τ] (s : Substrate τ) :
    (s.inRight : Substrate (σ ⊕ τ)).save = (s.save.1, s.save.2.inRight) := by
  have simulation : Store.Simulation (fun (x : σ ⊕ τ) t => x = .inr t) (fun _ => True) fun _ => True :=
    Store.simulation_inr
  obtain ⟨hanswer, hrelated⟩ := simulation.save s.related_inRight (every_true _)
  exact Prod.ext hanswer hrelated.eq_inRight

end Substrate

/-! ### Processing records -/

/-- Has a unit process records in order, and lists the results. -/
def Processor.processAll {σ : Type} [Store σ] (p : Processor σ) :
    List Record → Workspace σ → List (Except Failure Outcome) × Workspace σ
  | [], w => ([], w)
  | record :: records, w =>
    let (result, w) := p.process record w
    let (results, w) := p.processAll records w
    (result :: results, w)

namespace Mapper

variable {m : Mapper} {identity : Identity}

/-- A mapper takes in records from a graph on, with outcomes, and ends with a graph. -/
inductive Session (m : Mapper) (identity : Identity) :
    Hypergraph → List Record → List Outcome → Hypergraph → Prop
  /-- No record is left. -/
  | nil (g : Hypergraph) : Session m identity g [] [] g
  /-- A record is taken in and reported. -/
  | cons {g g' : Hypergraph} {record : Record} {records : List Record} {outcome : Outcome}
      {outcomes : List Outcome}
      (report : m.report (nextAll g (m.script g record identity)) (flowOf record)
        (m.similarOf g record identity).length = .ok outcome)
      (rest : Session m identity (nextAll g (m.script g record identity)) records outcomes g') :
      Session m identity g (record :: records) (outcome :: outcomes) g'

section Process

variable {σ : Type} [Store σ]

/-- Handling a record is mapping it, whatever the store: the report is about the graph with the record in
it. -/
theorem handle_eq (m : Mapper) (name : String) (record : Record) (kernel : Kernel) {s : Substrate σ}
    (h : s.graph.WellFormed) :
    m.handler.handle name record { kernel, substrate := some s } =
      (m.report (nextAll s.graph (m.script s.graph record kernel.identity)) (flowOf record)
          (m.similarOf s.graph record kernel.identity).length,
        { kernel := (kernel.signal record.content).2
          substrate := some (s.performAll (m.script s.graph record kernel.identity)).2 }) := by
  have hgraph : (s.performAll (m.script s.graph record kernel.identity)).2.graph =
      nextAll s.graph (m.script s.graph record kernel.identity) := s.graph_performAll adds_script
  unfold handler
  dsimp only [Workspace.requireSubstrate]
  rw [Kernel.identity_signal, m.mapRecord_eq s h record kernel.identity]
  dsimp only
  rw [hgraph]

/-- Processing a record is handling it between two phases. -/
theorem process_handler {p : Processor σ} (hp : p.handler = m.handler) (record : Record)
    (kernel : Kernel) {s : Substrate σ} (h : s.graph.WellFormed) :
    ∃ kernel', kernel'.identity = kernel.identity ∧
      p.process record { kernel, substrate := some s } =
        (m.report (nextAll s.graph (m.script s.graph record kernel.identity)) (flowOf record)
            (m.similarOf s.graph record kernel.identity).length,
          { kernel := kernel'
            substrate := some (s.performAll (m.script s.graph record kernel.identity)).2 }) := by
  let signalled := ((kernel.enter .processing).signal record.content).2
  have hidentity : signalled.identity = kernel.identity := by
    rw [Kernel.identity_signal, Kernel.identity_enter]
  have hhandle := m.handle_eq p.name record (kernel.enter .processing) h
  rw [Kernel.identity_enter] at hhandle
  unfold Processor.process
  dsimp only
  rw [hp, hhandle]
  cases m.report (nextAll s.graph (m.script s.graph record kernel.identity)) (flowOf record)
      (m.similarOf s.graph record kernel.identity).length with
  | ok outcome => exact ⟨signalled.enter .reflecting, (signalled.identity_enter _).trans hidentity, rfl⟩
  | error e => exact ⟨signalled.enter .dormant, (signalled.identity_enter _).trans hidentity, rfl⟩

/-- What a unit makes of records in order is their session. -/
theorem Session.processAll {p : Processor σ} (hp : p.handler = m.handler) {g g' : Hypergraph}
    {records : List Record} {outcomes : List Outcome} (h : m.Session identity g records outcomes g')
    {kernel : Kernel} {s : Substrate σ} (hwf : s.graph.WellFormed) (hgraph : s.graph = g)
    (hidentity : kernel.identity = identity) :
    ∃ kernel' s', p.processAll records { kernel, substrate := some s } =
      (outcomes.map .ok, { kernel := kernel', substrate := some s' }) ∧ s'.graph = g' := by
  induction h generalizing kernel s with
  | nil g => exact ⟨kernel, s, rfl, hgraph⟩
  | @cons g g' record records outcome outcomes report rest ih =>
    subst hgraph hidentity
    obtain ⟨kernel', hkernel', hprocess⟩ := process_handler hp record kernel hwf
    have hnext : (s.performAll (m.script s.graph record kernel.identity)).2.graph =
        nextAll s.graph (m.script s.graph record kernel.identity) := s.graph_performAll adds_script
    have hwf' : (s.performAll (m.script s.graph record kernel.identity)).2.graph.WellFormed := by
      rw [hnext]
      exact wellFormed_nextAll hwf _ adds_script
    obtain ⟨kernel'', s', hrest, hend⟩ := ih hwf' hnext hkernel'
    refine ⟨kernel'', s', ?_, hend⟩
    unfold Processor.processAll
    rw [hprocess, report]
    dsimp only
    rw [hrest]
    rfl

end Process

/-! ### Sessions side by side -/

variable {g g' : Hypergraph} {length : Nat}

/-- From a charted graph on, every record has an outcome. -/
theorem exists_session (hwf : g.WellFormed) (hcharted : Charted length g) (records : List Record)
    (hflows : ∀ record ∈ records, (flowOf record).length = length) :
    ∃ outcomes g', m.Session identity g records outcomes g' := by
  induction records generalizing g with
  | nil => exact ⟨[], g, .nil g⟩
  | cons record records ih =>
    rw [List.forall_mem_cons] at hflows
    obtain ⟨rfl, hrest⟩ := hflows
    have paired : Paired (flowOf record).length g g := ⟨.refl g, hwf, hwf, hcharted, hcharted⟩
    obtain ⟨hpaired, -⟩ : Paired (flowOf record).length (nextAll g (m.script g record identity))
      (nextAll g (m.script g record identity)) ∧ _ := paired.script
    obtain ⟨outcome, hreport, -⟩ :=
      hpaired.report (m := m) hasNode_script (m.similarOf g record identity).length
    obtain ⟨outcomes, g', hsession⟩ := ih hpaired.wellFormed hpaired.charted hrest
    exact ⟨outcome :: outcomes, g', .cons hreport hsession⟩

/-- A session that begins anew with a paired graph has the same outcome for its first record. -/
theorem Paired.session_cons {record : Record} {outcome : Outcome}
    (h : Paired (flowOf record).length g g')
    (report : m.report (nextAll g (m.script g record identity)) (flowOf record)
      (m.similarOf g record identity).length = .ok outcome) :
    m.Session identity g' [record] [outcome] (nextAll g' (m.script g' record identity)) ∧
      Paired (flowOf record).length (nextAll g (m.script g record identity))
        (nextAll g' (m.script g' record identity)) := by
  obtain ⟨hpaired, hsimilar⟩ : Paired (flowOf record).length
    (nextAll g (m.script g record identity)) (nextAll g' (m.script g' record identity)) ∧
      m.similarOf g' record identity = m.similarOf g record identity := h.script
  obtain ⟨outcome', hreport, hreport'⟩ :=
    hpaired.report (m := m) hasNode_script (m.similarOf g record identity).length
  -- there is but one report of the record
  rw [report] at hreport
  cases hreport
  rw [← hsimilar] at hreport'
  exact ⟨.cons hreport' (.nil _), hpaired⟩

/-- Opening a store changes the sequence, which graphs are paired without. -/
theorem Paired.opened (h : Paired length g g') :
    Paired length g { g' with sequence := 0 } where
  alike := ⟨h.alike.nodes, h.alike.edges⟩
  wellFormed := h.wellFormed
  wellFormed' := ⟨h.wellFormed'.node_id, h.wellFormed'.edge_id, h.wellFormed'.members,
    h.wellFormed'.clamped⟩
  charted := h.charted
  charted' := h.charted'

end Mapper

end ResonantGraph
