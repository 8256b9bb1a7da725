import ResonantGraph.Proofs.Hypergraph.WellFormed
import ResonantGraph.Proofs.Substrate.Effect

/-!
# The graphs that operations lead to

`Hypergraph.Reached` collects every graph that a client can come to hold: the empty graph, what a
change makes of such a graph, and the live graph at the end of a run of operations over any store at
all, provided that the graphs which the run puts in place were reached themselves. A store is any
state with any answers. It may hold elements that no graph would take, file them under foreign names,
give out activations that are below zero or no number, answer one call this way and the next that
way, and fail whenever it likes.

Reached graphs are exactly the well-formed ones (`Hypergraph.reached_iff_wellFormed`). From left to
right this is an induction over how a graph was reached, in which `Substrate.wellFormed_performAll`
takes a run from end to end; from right to left a well-formed graph is built up by changes.
-/

namespace ResonantGraph

/-- The graphs that changes and runs of operations lead to. -/
inductive Hypergraph.Reached : Hypergraph → Prop
  /-- The empty graph. -/
  | empty : Reached ∅
  /-- A changed graph. -/
  | change {g : Hypergraph} (c : Hypergraph.Change) (before : Reached g) : Reached (g.apply c)
  /-- The live graph after a run over some store. What the run puts in place was reached before. -/
  | run {σ : Type} [Store σ] (store : σ) (ops : List Operation)
      (restored : ∀ graph, Operation.restore graph ∈ ops → Reached graph) :
      Reached ((Substrate.ofStore store).performAll ops).2.graph

namespace Substrate

variable {σ : Type} [Store σ]

/-- An operation keeps the live graph well formed, over any store. -/
theorem wellFormed_perform {s : Substrate σ} (h : s.graph.WellFormed) {op : Operation}
    (restored : ∀ graph, op = .restore graph → graph.WellFormed) :
    (s.perform op).2.graph.WellFormed := by
  by_cases hop : ∃ graph, op = .restore graph
  · -- what is put in place is well formed by assumption
    obtain ⟨graph, rfl⟩ := hop
    exact restored graph rfl
  · -- everything else acts as changes do, whatever the store answers
    have hne : ∀ graph, op ≠ .restore graph := fun graph heq => hop ⟨graph, heq⟩
    obtain ⟨changes, hchanges⟩ := s.exists_changes_perform hne
    rw [hchanges]
    exact h.applyAll changes

/-- A run keeps the live graph well formed, over any store. -/
theorem wellFormed_performAll {s : Substrate σ} (h : s.graph.WellFormed) {ops : List Operation}
    (restored : ∀ graph, Operation.restore graph ∈ ops → graph.WellFormed) :
    (s.performAll ops).2.graph.WellFormed := by
  have step : ∀ s : Substrate σ, ∀ op ∈ ops, s.graph.WellFormed →
      (s.perform op).2.graph.WellFormed := by
    intro s op hop hs
    refine wellFormed_perform hs fun graph hgraph => restored graph ?_
    rw [← hgraph]
    exact hop
  exact performAll_induction h step

end Substrate

namespace Hypergraph

theorem Reached.wellFormed {g : Hypergraph} (h : g.Reached) : g.WellFormed := by
  -- over how the graph was reached; for a run, the graphs that it restores come first
  induction h with
  | empty => exact wellFormed_empty
  | change c _ ih => exact ih.applyAll [c]
  | run store ops _ ih => exact Substrate.wellFormed_performAll wellFormed_empty ih

theorem Reached.applyAll {g : Hypergraph} (h : g.Reached) (cs : List Change) :
    (g.applyAll cs).Reached := by
  induction cs generalizing g with
  | nil => exact h
  | cons c cs ih => exact ih (.change c h)

theorem WellFormed.reached {g : Hypergraph} (h : g.WellFormed) : g.Reached := by
  obtain ⟨cs, rfl⟩ := h.exists_applyAll_eq
  exact Reached.empty.applyAll cs

/-- **Well-formedness is an invariant of every run, and nothing less is reached**: the graphs that
changes and operations lead to, over whatever stores, are exactly the well-formed ones. -/
theorem reached_iff_wellFormed (g : Hypergraph) : g.Reached ↔ g.WellFormed :=
  ⟨Reached.wellFormed, WellFormed.reached⟩

end Hypergraph

end ResonantGraph
