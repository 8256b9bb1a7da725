import ResonantGraph.Proofs.Store.Encoded
import ResonantGraph.Proofs.Store.Logged

/-!
# One store for another

A client that holds a substrate may also go past it and call the store itself. A `Step` is one or the
other. What answers alike under operations alone still does so when calls come in between
(`Store.Simulation.takeAll`), for a call asks no more of a store than mirroring does.

So a store of bytes may stand in for a store of elements (`Substrate.takeAll_interchangeable`), emptying
aside, which reaches a store in memory and not one that outlives the graph. And since a store of
elements holds what its log says, both hold the element that was saved last under each identifier, and
none where it has been removed since.

Elements are asked to fit (`Node.Fits`, `Edge.Fits`): a word can count the bytes and the entries of each
of their parts, as it can for all that a machine has in memory. No other elements can be written out.
-/

namespace ResonantGraph

open Store (Blobs Matches Reply Request Simulation Tables)

/-- What a client asks of a substrate, or of the store behind it. -/
inductive Step
  /-- An operation of the substrate. -/
  | operation (op : Operation)
  /-- A call on the store. -/
  | request (r : Request)

/-- A step that brings nothing but elements with given properties and does not empty the graph. -/
def Step.Within (P : Node → Prop) (Q : Edge → Prop) : Step → Prop
  | .operation op => op.Within P Q ∧ op ≠ .clear
  | .request r => r.Within P Q

namespace Substrate

variable {σ : Type} [Store σ]

/-- Takes a step. The answer comes from the substrate or from the store. -/
def take (s : Substrate σ) : Step → (Answer ⊕ Except Failure Reply) × Substrate σ
  | .operation op =>
    let (answer, s) := s.perform op
    (.inl answer, s)
  | .request r =>
    let (reply, store) := Store.serve r s.store
    (.inr reply, { s with store })

/-- Takes steps in order and collects the answers. -/
def takeAll (s : Substrate σ) :
    List Step → List (Answer ⊕ Except Failure Reply) × Substrate σ
  | [] => ([], s)
  | step :: steps =>
    let (answer, s) := s.take step
    let (answers, s) := s.takeAll steps
    (answer :: answers, s)

end Substrate

namespace Store.Simulation

variable {σ τ : Type} [Store σ] [Store τ] {R : σ → τ → Prop} {P : Node → Prop} {Q : Edge → Prop}
  {s : Substrate σ} {t : Substrate τ}

/-- A step cannot tell the stores apart. -/
theorem take (h : Simulation R P Q) (hst : Substrate.Related R s t)
    (hs : s.graph.Every (fun _ => P) fun _ => Q) {step : Step} (hstep : step.Within P Q) :
    Matches (Substrate.Related R) (s.take step) (t.take step) ∧
      (s.take step).2.graph.Every (fun _ => P) fun _ => Q := by
  cases step with
  | operation op =>
    obtain ⟨⟨hanswer, hrelated⟩, hgraph⟩ := h.perform hst hs hstep.1 hstep.2
    exact ⟨⟨congrArg Sum.inl hanswer, hrelated⟩, hgraph⟩
  | request r =>
    -- the live graph and the count of failures are not touched
    obtain ⟨hreply, hstore⟩ := h.serve hstep _ _ hst.store
    exact ⟨⟨congrArg Sum.inr hreply, hst.graph, hstore, hst.mirrorFailures⟩, hs⟩

/-- **A client cannot tell the stores apart**, even if it calls them itself. -/
theorem takeAll (h : Simulation R P Q) (hst : Substrate.Related R s t)
    (hs : s.graph.Every (fun _ => P) fun _ => Q) {steps : List Step}
    (hsteps : ∀ step ∈ steps, step.Within P Q) :
    Matches (Substrate.Related R) (s.takeAll steps) (t.takeAll steps) := by
  induction steps generalizing s t with
  | nil => exact ⟨rfl, hst⟩
  | cons step steps ih =>
    rw [List.forall_mem_cons] at hsteps
    obtain ⟨⟨hanswer, hrelated⟩, hgraph⟩ := h.take hst hs hsteps.1
    obtain ⟨hanswers, hend⟩ := ih hrelated hgraph hsteps.2
    exact ⟨congrArg₂ List.cons hanswer hanswers, hend⟩

end Store.Simulation

namespace Substrate

/-- **Elements and bytes are interchangeable.** Over an empty store of elements and over an empty store
of bytes, all steps are answered alike; the live graphs and the counts of failures are equal in the
end, and one store holds the encoding of what the other holds. Under each identifier that is the
element which was saved last and has not been removed since, by the log of the store of bytes, and
loading gives it back. -/
theorem takeAll_interchangeable {steps : List Step}
    (within : ∀ step ∈ steps, step.Within Node.Fits Edge.Fits) :
    let elements := (ofStore ({} : Tables)).takeAll steps
    let bytes := (ofStore ({} : Blobs)).takeAll steps
    let made := Store.carriedOut ((ofStore ({} : Blobs)).logged.takeAll steps).2.store.log
    elements.1 = bytes.1 ∧ elements.2.graph = bytes.2.graph ∧
      elements.2.mirrorFailures = bytes.2.mirrorFailures ∧
      bytes.2.store = Blobs.ofTables elements.2.store ∧
      (∀ id, elements.2.store.nodes.find? id = Store.lastSaved Request.nodeWrite? made id ∧
        Store.loadNode id bytes.2.store =
          (.ok (Store.lastSaved Request.nodeWrite? made id), bytes.2.store)) ∧
      ∀ id, elements.2.store.edges.find? id = Store.lastSaved Request.edgeWrite? made id ∧
        Store.loadEdge id bytes.2.store =
          (.ok (Store.lastSaved Request.edgeWrite? made id), bytes.2.store) := by
  intro elements bytes made
  have opened : Related Blobs.Encodes (ofStore ({} : Blobs)) (ofStore ({} : Tables)) :=
    ⟨rfl, Blobs.encodes_empty, rfl⟩
  have watched : Related (Store.Accounted Blobs.Encodes) (ofStore ({} : Blobs)).logged
      (ofStore ({} : Tables)) := ⟨rfl, ⟨Blobs.encodes_empty, rfl⟩, rfl⟩
  obtain ⟨hanswers, hrelated⟩ := Blobs.simulation.takeAll opened Hypergraph.Every.empty within
  obtain ⟨-, haccounted⟩ := Blobs.simulation.logged.takeAll watched Hypergraph.Every.empty within
  -- the second simulation goes along the same tables, so these are what its log says
  have stored : elements.2.store = ({} : Tables).after made := haccounted.store.accounted
  have nodes (id : NodeId) :
      elements.2.store.nodes.find? id = Store.lastSaved Request.nodeWrite? made id := by
    rw [stored, Store.Tables.find?_nodes_after]
  have edges (id : EdgeId) :
      elements.2.store.edges.find? id = Store.lastSaved Request.edgeWrite? made id := by
    rw [stored, Store.Tables.find?_edges_after]
  refine ⟨hanswers.symm, hrelated.graph.symm, hrelated.mirrorFailures.symm, hrelated.store.eq,
    fun id => ⟨nodes id, ?_⟩, fun id => ⟨edges id, ?_⟩⟩
  · -- what a store of bytes loads is what the tables hold
    obtain ⟨hloaded, -⟩ := Blobs.simulation.loadNode id _ _ hrelated.store
    refine Prod.ext (hloaded.trans ?_) rfl
    rw [← nodes id]
    rfl
  · obtain ⟨hloaded, -⟩ := Blobs.simulation.loadEdge id _ _ hrelated.store
    refine Prod.ext (hloaded.trans ?_) rfl
    rw [← edges id]
    rfl

/-- A node whose activation is no number, as no graph would hold it. -/
def strangeNode : Node := { id := "n", label := "ü", activation := ⟨0xfff8000000000001⟩ }

/-- Steps in which a strange node is saved past the substrate, loaded into the graph, saved by it, and
another node removed past it. -/
def interleaved : List Step :=
  [.operation (.addNode { id := "a" }), .request (.saveNode strangeNode), .operation .load,
    .request (.loadNode "n"), .operation .save, .request (.removeNode "a"), .request .listNodes]

/-- `takeAll_interchangeable` on these steps: what was saved last is the node with its activation
clamped, and the other one is gone. -/
theorem takeAll_interleaved :
    ((ofStore ({} : Tables)).takeAll interleaved).1 = ((ofStore ({} : Blobs)).takeAll interleaved).1 ∧
      (Store.loadNode "n" ((ofStore ({} : Blobs)).takeAll interleaved).2.store).1 =
        .ok (some strangeNode.clamped) ∧
      (Store.loadNode "a" ((ofStore ({} : Blobs)).takeAll interleaved).2.store).1 = .ok none := by
  have within : ∀ step ∈ interleaved, step.Within Node.Fits Edge.Fits := by
    intro step hstep
    simp only [interleaved, List.mem_cons, List.not_mem_nil, or_false] at hstep
    rcases hstep with rfl | rfl | rfl | rfl | rfl | rfl | rfl
    · exact ⟨(by decide : Node.Fits { id := "a" }), nofun⟩
    · exact (by decide : strangeNode.Fits)
    · exact ⟨trivial, nofun⟩
    · trivial
    · exact ⟨trivial, nofun⟩
    · trivial
    · trivial
  obtain ⟨hanswers, -, -, -, hnodes, -⟩ := takeAll_interchangeable within
  refine ⟨hanswers, ?_, ?_⟩
  · rw [(hnodes "n").2]
    rfl
  · rw [(hnodes "a").2]
    rfl

end Substrate

end ResonantGraph
