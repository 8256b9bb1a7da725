import ResonantGraph.Proofs.Store.Logged

/-!
# The store stays behind the graph

Only a load looks at what a store holds. In a run without loads everything that a client sees follows
from the live graph at its start: the answers, but for the verdicts of saving and restoring, which are
the store's; what a propagation hook is told; and the live graph at the end
(`Substrate.performAll_eq`). So it does not matter over which store the run goes, what the store holds,
or which of its calls fail.

What the store does shows in one more place, the count of failures while mirroring. It grows by the
number of failed calls that the store has seen during the eight operations that mirror
(`Substrate.mirrorFailures_performAll`), where the calls are those that a watched store notes.
`Substrate.performAll_isolated` puts two runs side by side.
-/

namespace ResonantGraph

/-- What a propagation hook is told, if an answer comes from a propagation. -/
def Answer.propagation? : Answer → Option Propagation
  | .spread propagation => propagation
  | _ => none

/-- What a propagation hook is told in the course of a run, in order. -/
def hookCalls (answers : List Answer) : List Propagation := answers.filterMap Answer.propagation?

namespace Operation

/-- Whether an operation mirrors what it changes. -/
def mirrors : Operation → Bool
  | .addNode _ | .updateNode _ | .removeNode _ | .addEdge _ | .updateEdge _ | .removeEdge _
  | .propagate _ _ | .updateActivation _ _ => true
  | _ => false

/-- An answer without the verdict of the store, which saving and restoring give. -/
def shown : Operation → Answer → Answer
  | .save, _ | .restore _, _ => .done
  | _, answer => answer

/-- The live graph after an operation that does not load. -/
def next (g : Hypergraph) : Operation → Hypergraph
  | .restore graph => graph
  | op => op.after g

/-- What operations that do not load show, one after the other. -/
def answerAll (g : Hypergraph) : List Operation → List Answer
  | [] => []
  | op :: ops => op.answer g :: answerAll (op.next g) ops

/-- The live graph after operations that do not load. -/
def nextAll (g : Hypergraph) (ops : List Operation) : Hypergraph := ops.foldl next g

theorem next_of_mirroring (g : Hypergraph) {op : Operation} (h : op.mirroring = true) :
    op.next g = op.after g := by
  cases op with
  | restore graph => cases h
  | _ => rfl

theorem shown_of_mirroring {op : Operation} (h : op.mirroring = true) (answer : Answer) :
    op.shown answer = answer := by
  cases op with
  | save | restore => cases h
  | _ => rfl

theorem writes_of_not_mirrors {op : Operation} (h : op.mirrors = false) (g : Hypergraph) :
    op.writes g = [] := by
  cases op with
  | addNode | updateNode | removeNode | addEdge | updateEdge | removeEdge | propagate
  | updateActivation => cases h
  -- a question asks nothing of the store
  | _ => rfl

end Operation

namespace Substrate

variable {σ τ : Type} [Store σ] [Store τ]

/-! ### What a client sees -/

/-- What an operation that does not load shows follows from the live graph. -/
theorem perform_eq (s : Substrate σ) {op : Operation} (hop : op ≠ .load) :
    op.shown (s.perform op).1 = op.answer s.graph ∧
      (s.perform op).1.propagation? = (op.answer s.graph).propagation? ∧
      (s.perform op).2.graph = op.next s.graph := by
  cases hmirroring : op.mirroring with
  | true =>
    rw [s.perform_mirroring hmirroring, Operation.shown_of_mirroring hmirroring,
      Operation.next_of_mirroring _ hmirroring]
    exact ⟨rfl, rfl, graph_settle ..⟩
  | false =>
    cases op with
    -- the verdict is the store's, and the hook is not called
    | save | clear | restore => exact ⟨rfl, rfl, rfl⟩
    | load => exact absurd rfl hop
    | _ => cases hmirroring

/-- **A run without loads** shows what follows from the live graph at its start. -/
theorem performAll_eq (s : Substrate σ) {ops : List Operation} (noLoad : ∀ op ∈ ops, op ≠ .load) :
    List.zipWith Operation.shown ops (s.performAll ops).1 = Operation.answerAll s.graph ops ∧
      hookCalls (s.performAll ops).1 = hookCalls (Operation.answerAll s.graph ops) ∧
      (s.performAll ops).2.graph = Operation.nextAll s.graph ops := by
  induction ops generalizing s with
  | nil => exact ⟨rfl, rfl, rfl⟩
  | cons op ops ih =>
    rw [List.forall_mem_cons] at noLoad
    obtain ⟨hshown, hhook, hgraph⟩ := s.perform_eq noLoad.1
    -- the rest of the run starts from a store of which nothing is known but that the graph is `next`
    obtain ⟨hanswers, hhooks, hend⟩ := ih (s.perform op).2 noLoad.2
    rw [hgraph] at hanswers hhooks hend
    refine ⟨?_, ?_, hend⟩
    · change op.shown (s.perform op).1 :: List.zipWith _ ops ((s.perform op).2.performAll ops).1 = _
      rw [hshown, hanswers]
      rfl
    · change hookCalls ((s.perform op).1 :: ((s.perform op).2.performAll ops).1) = _
      unfold hookCalls at hhooks ⊢
      rw [Operation.answerAll, List.filterMap_cons, List.filterMap_cons, hhook, hhooks]

/-! ### What is counted -/

/-- The number of failed calls that an operation makes, if it mirrors. -/
def failedMirrorCalls (s : Substrate σ) (op : Operation) : Nat :=
  if op.mirrors then Store.refusals (s.calls op) else 0

/-- The number of failed calls that the mirroring operations of a run make. -/
def failedMirrorCallsAll (s : Substrate σ) : List Operation → Nat
  | [] => 0
  | op :: ops => s.failedMirrorCalls op + (s.perform op).2.failedMirrorCallsAll ops

theorem mirrorFailures_load (s : Substrate σ) : s.load.2.mirrorFailures = s.mirrorFailures := by
  rw [load_eq]
  dsimp only
  split <;> rfl

/-- An operation adds the number of failed calls that mirroring makes, and nothing else. -/
theorem mirrorFailures_perform (s : Substrate σ) (op : Operation) :
    (s.perform op).2.mirrorFailures =
      s.mirrorFailures + UInt64.ofNat (s.failedMirrorCalls op) := by
  have unchanged : s.mirrorFailures = s.mirrorFailures + UInt64.ofNat 0 :=
    (UInt64.add_zero s.mirrorFailures).symm
  unfold failedMirrorCalls
  cases hmirroring : op.mirroring with
  | true =>
    rw [s.perform_mirroring hmirroring, mirrorFailures_settle]
    cases hmirrors : op.mirrors with
    | true =>
      rw [if_pos rfl, s.calls_of_mirroring hmirroring]
    | false =>
      -- a question makes no call
      rw [Operation.writes_of_not_mirrors hmirrors]
      rfl
  | false =>
    cases op with
    -- these call the store, and the failures are theirs to report
    | save | clear | restore => exact unchanged
    | load => exact s.mirrorFailures_load.trans unchanged
    | _ => cases hmirroring

theorem mirrorFailures_performAll (s : Substrate σ) (ops : List Operation) :
    (s.performAll ops).2.mirrorFailures =
      s.mirrorFailures + UInt64.ofNat (s.failedMirrorCallsAll ops) := by
  induction ops generalizing s with
  | nil => exact (UInt64.add_zero s.mirrorFailures).symm
  | cons op ops ih =>
    rw [state_performAll_cons, ih, mirrorFailures_perform, failedMirrorCallsAll, UInt64.ofNat_add,
      UInt64.add_assoc]

/-! ### Two runs -/

/-- **The store does not influence the live graph** but by a load. Two runs of the same operations, from
the same live graph and over any two stores, give the same answers, verdicts of saving and restoring
aside, tell a propagation hook the same things in the same order, and leave the same live graph. In
each of them the count of failures grows by the failed calls of the operations that mirror. -/
theorem performAll_isolated {s : Substrate σ} {t : Substrate τ} (hst : s.graph = t.graph)
    {ops : List Operation} (noLoad : ∀ op ∈ ops, op ≠ .load) :
    List.zipWith Operation.shown ops (s.performAll ops).1 =
        List.zipWith Operation.shown ops (t.performAll ops).1 ∧
      hookCalls (s.performAll ops).1 = hookCalls (t.performAll ops).1 ∧
      (s.performAll ops).2.graph = (t.performAll ops).2.graph ∧
      (s.performAll ops).2.mirrorFailures =
        s.mirrorFailures + UInt64.ofNat (s.failedMirrorCallsAll ops) ∧
      (t.performAll ops).2.mirrorFailures =
        t.mirrorFailures + UInt64.ofNat (t.failedMirrorCallsAll ops) := by
  obtain ⟨hanswers, hhooks, hgraph⟩ := s.performAll_eq noLoad
  obtain ⟨hanswers', hhooks', hgraph'⟩ := t.performAll_eq noLoad
  rw [hst] at hanswers hhooks hgraph
  exact ⟨hanswers.trans hanswers'.symm, hhooks.trans hhooks'.symm, hgraph.trans hgraph'.symm,
    s.mirrorFailures_performAll ops, t.mirrorFailures_performAll ops⟩

/-- A store that holds a node that no graph has, saves no node, and removes no edge. -/
def stubborn : Store.Faulty where
  tables := { nodes := (∅ : Table Node).insert "z" { id := "y" } }
  refused := ["save_node", "remove_edge"]

/-- A history in which nodes are added, joined, activated and removed, with a save and a replacement in
between. -/
def eventful : List Operation :=
  [.addNode { id := "a" }, .addNode { id := "b" },
    .addEdge { id := "e", members := NameSet.ofNames ["a", "b"] },
    .propagate "a" 1, .save, .removeNode "a", .snapshot, .restore ∅, .clear]

/-- `performAll_isolated` on a store that fails and one that does not. Five calls fail while mirroring
and are counted, others fail while saving and restoring and are not. -/
theorem performAll_eventful :
    ((ofStore stubborn).performAll eventful).2.graph =
        ((ofStore ({} : Store.Tables)).performAll eventful).2.graph ∧
      hookCalls ((ofStore stubborn).performAll eventful).1 =
        hookCalls ((ofStore ({} : Store.Tables)).performAll eventful).1 ∧
      ((ofStore stubborn).performAll eventful).2.mirrorFailures = 5 ∧
      ((ofStore ({} : Store.Tables)).performAll eventful).2.mirrorFailures = 0 := by
  have noLoad : ∀ op ∈ eventful, op ≠ .load := by
    simp only [eventful, List.forall_mem_cons, ne_eq, reduceCtorEq, not_false_eq_true, true_and]
    exact fun _ h => by cases h
  obtain ⟨-, hhooks, hgraph, hfailed, hnone⟩ :=
    performAll_isolated (s := ofStore stubborn) (t := ofStore ({} : Store.Tables)) rfl noLoad
  exact ⟨hgraph, hhooks, hfailed.trans (by rfl), hnone.trans (by rfl)⟩

end Substrate

end ResonantGraph
