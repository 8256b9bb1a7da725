import ResonantGraph.Proofs.Hypergraph.WellFormed
import ResonantGraph.Proofs.Substrate.Effect
import ResonantGraph.Store.Tables

/-!
# The numbers of the sequence

A substrate gives out numbers for identifiers that are to be new. The sequence sits in the live graph
next to the nodes and edges. Two operations move it (`Operation.moves`): a draw, which takes a number and
goes on to the next one, and a restore, which puts the sequence of another graph in place together with
the graph. Emptying the graph and loading it anew keep it, as does all else
(`Substrate.sequence_perform`).

So between two restores the numbers increase. Over a restore they do exactly if the next number after it
is beyond all that were drawn before (`Substrate.pairwise_drawn_iff`). A copy of the graph remembers where
the sequence was when it was taken, and a substrate that is put back to it gives out once more what it
gave out since (`Substrate.exists_number_drawn_twice`).
-/

namespace ResonantGraph

open ResonantGraph.Hypergraph (Change Effect)

/-! ### What moves the sequence -/

/-- Whether an operation moves the sequence. -/
def Operation.moves : Operation → Bool
  | .nextSequence | .restore _ => true
  | _ => false

namespace Hypergraph

/-- A change that draws no number keeps the sequence. -/
theorem sequence_apply (g : Hypergraph) {c : Change} (hc : c ≠ .nextSequence) :
    (g.apply c).sequence = g.sequence := by
  have effect : Effect g c (g.apply c) := g.effect c
  generalize g.apply c = g' at effect ⊢
  cases effect with
  | draw => exact absurd rfl hc
  | _ => rfl

end Hypergraph

namespace Substrate

variable {σ : Type} [Store σ]

/-- A load leaves the sequence where the live graph had it: no store knows of it. -/
theorem sequence_load (s : Substrate σ) : s.load.2.graph.sequence = s.graph.sequence := by
  rw [load_eq]
  dsimp only
  split
  · exact (Hypergraph.nodes_addEdges ..).2.trans
      ((Hypergraph.sequence_addNodes ..).trans s.graph.sequence_clear)
  · rfl

/-- An operation that does not move the sequence keeps it. -/
theorem sequence_perform (s : Substrate σ) {op : Operation} (hop : op.moves = false) :
    (s.perform op).2.graph.sequence = s.graph.sequence := by
  cases hmirroring : op.mirroring with
  | true =>
    rw [s.perform_mirroring hmirroring, graph_settle]
    unfold Operation.after
    cases hchange : op.change? with
    | none => rfl
    | some c =>
      refine s.graph.sequence_apply ?_
      rintro rfl
      cases op with
      | nextSequence => cases hop
      | _ => cases hchange
  | false =>
    cases op with
    | save => rfl
    | load => exact s.sequence_load
    | clear => rfl
    | restore => cases hop
    | _ => cases hmirroring

end Substrate

/-! ### What a history draws -/

/-- The number that an answer gives out. -/
def Answer.number? : Answer → Option UInt64
  | .number n => some n
  | _ => none

namespace Substrate

variable {σ : Type} [Store σ]

/-- The numbers that a history draws, in their order. The greatest word is left out: the sequence ends
there. -/
def drawn (s : Substrate σ) (ops : List Operation) : List UInt64 :=
  ((s.performAll ops).1.filterMap Answer.number?).filter (· ≠ -1)

/-- Only a draw gives out a number. -/
theorem number?_perform (s : Substrate σ) {op : Operation} (hop : op ≠ .nextSequence) :
    (s.perform op).1.number? = none := by
  cases hmirroring : op.mirroring with
  | true =>
    rw [s.perform_mirroring hmirroring]
    cases op with
    | nextSequence => exact absurd rfl hop
    | _ => rfl
  | false =>
    cases op with
    | save | load | clear | restore => rfl
    | _ => cases hmirroring

@[simp] theorem drawn_nil (s : Substrate σ) : s.drawn [] = [] := rfl

theorem drawn_cons (s : Substrate σ) (op : Operation) (ops : List Operation) :
    s.drawn (op :: ops) = s.drawn [op] ++ (s.perform op).2.drawn ops := by
  have hanswers : (s.performAll (op :: ops)).1 =
      (s.performAll [op]).1 ++ ((s.perform op).2.performAll ops).1 := rfl
  unfold drawn
  rw [hanswers, List.filterMap_append, List.filter_append]

theorem drawn_append (s : Substrate σ) (ops ops' : List Operation) :
    s.drawn (ops ++ ops') = s.drawn ops ++ (s.performAll ops).2.drawn ops' := by
  induction ops generalizing s with
  | nil => rfl
  | cons op ops ih =>
    rw [List.cons_append, s.drawn_cons, ih, state_performAll_cons, s.drawn_cons op ops,
      List.append_assoc]

theorem drawn_of_ne (s : Substrate σ) {op : Operation} (hop : op ≠ .nextSequence) :
    s.drawn [op] = [] := by
  unfold drawn
  rw [performAll, List.filterMap_cons_none (s.number?_perform hop)]
  rfl

theorem mem_drawn_nextSequence {s : Substrate σ} {n : UInt64} :
    n ∈ s.drawn [.nextSequence] ↔ n = s.graph.sequence ∧ n ≠ -1 := by
  change n ∈ [s.graph.sequence].filter (· ≠ -1) ↔ _
  rw [List.mem_filter, List.mem_singleton, decide_eq_true_iff]

theorem ne_of_mem_drawn {s : Substrate σ} {ops : List Operation} {n : UInt64}
    (h : n ∈ s.drawn ops) : n ≠ -1 :=
  of_decide_eq_true (List.mem_filter.1 h).2

/-- Where a history draws before it restores anything, it draws the number that the sequence is at. -/
theorem sequence_mem_drawn {s : Substrate σ} {ops : List Operation}
    (hops : ops.find? Operation.moves = some .nextSequence) (hs : s.graph.sequence ≠ -1) :
    s.graph.sequence ∈ s.drawn ops := by
  induction ops generalizing s with
  | nil => cases hops
  | cons op ops ih =>
    rw [drawn_cons, List.mem_append]
    cases hop : op.moves with
    | true =>
      rw [List.find?_cons_of_pos hop] at hops
      obtain rfl : op = .nextSequence := Option.some.inj hops
      exact .inl (mem_drawn_nextSequence.2 ⟨rfl, hs⟩)
    | false =>
      rw [List.find?_cons_of_neg (ne_true_of_eq_false hop)] at hops
      rw [← s.sequence_perform hop] at hs ⊢
      exact .inr (ih hops hs)

/-! ### Increasing numbers -/

/-- A draw moves the sequence beyond the number that it gives out. -/
theorem lt_sequence_nextSequence {s : Substrate σ} {n : UInt64}
    (h : n < s.graph.sequence ∨ n ∈ s.drawn [.nextSequence]) :
    n < (s.perform .nextSequence).2.graph.sequence := by
  rw [mem_drawn_nextSequence] at h
  change n < if s.graph.sequence = -1 then s.graph.sequence else s.graph.sequence + 1
  split
  · next hlast =>
    -- the greatest word stays in place, but it is not drawn
    exact h.elim id fun ⟨hn, hne⟩ => absurd (hn.trans hlast) hne
  · next hlast =>
    rcases h with hn | ⟨rfl, -⟩
    · exact UInt64.lt_trans hn (UInt64.lt_add_one hlast)
    · exact UInt64.lt_add_one hlast

/-- A history that goes on after some increasing numbers adds increasing numbers to them, provided that
the sequence is beyond them wherever it goes on: where the history starts and after every restore. -/
theorem pairwise_append_drawn {s : Substrate σ} {ops : List Operation} (past : List UInt64)
    (increasing : past.Pairwise (· < ·))
    (start : ops.find? Operation.moves = some .nextSequence → ∀ n ∈ past, n < s.graph.sequence)
    (later : ∀ before graph rest, ops = before ++ .restore graph :: rest →
      rest.find? Operation.moves = some .nextSequence →
        ∀ n ∈ past ++ s.drawn before, n < graph.sequence) :
    (past ++ s.drawn ops).Pairwise (· < ·) := by
  -- on the history; what the first operation draws joins the numbers of the past
  induction ops generalizing s past with
  | nil => rwa [drawn_nil, List.append_nil]
  | cons op ops ih =>
    rw [drawn_cons, ← List.append_assoc]
    have later' : ∀ before graph rest, ops = before ++ .restore graph :: rest →
        rest.find? Operation.moves = some .nextSequence →
          ∀ n ∈ past ++ s.drawn [op] ++ (s.perform op).2.drawn before, n < graph.sequence := by
      intro before graph rest hops
      rw [List.append_assoc, ← drawn_cons]
      exact later (op :: before) graph rest (congrArg _ hops)
    by_cases hdraw : op = .nextSequence
    · subst hdraw
      have beyond : ∀ n ∈ past, n < s.graph.sequence := start rfl
      refine ih _ (List.pairwise_append.2 ⟨increasing, ?_, ?_⟩) (fun _ n hn => ?_) later'
      · exact (List.pairwise_singleton _ s.graph.sequence).filter _
      · intro n hn m hm
        rw [(mem_drawn_nextSequence.1 hm).1]
        exact beyond n hn
      · exact lt_sequence_nextSequence ((List.mem_append.1 hn).imp_left (beyond n))
    · rw [s.drawn_of_ne hdraw, List.append_nil] at later' ⊢
      refine ih past increasing (fun hops => ?_) later'
      cases hop : op.moves with
      | false =>
        rw [s.sequence_perform hop]
        exact start ((List.find?_cons_of_neg (ne_true_of_eq_false hop)).trans hops)
      | true =>
        cases op with
        | restore graph =>
          have hpast := later [] graph ops rfl hops
          rwa [drawn_nil, List.append_nil] at hpast
        | nextSequence => exact absurd rfl hdraw
        | _ => cases hop

/-- **Increasing numbers.** Over any store and from any state, the numbers that a history draws increase
exactly if, wherever a draw is the next to move the sequence after a restore, the graph that was put in
place has its sequence beyond all that was drawn before. -/
theorem pairwise_drawn_iff (s : Substrate σ) (ops : List Operation) :
    (s.drawn ops).Pairwise (· < ·) ↔
      ∀ before graph rest, ops = before ++ .restore graph :: rest →
        rest.find? Operation.moves = some .nextSequence →
          ∀ n ∈ s.drawn before, n < graph.sequence := by
  constructor
  · rintro increasing before graph rest rfl hrest n hn
    rw [drawn_append, List.pairwise_append, drawn_cons, drawn_of_ne _ Operation.noConfusion]
      at increasing
    by_cases hlast : graph.sequence = -1
    · -- nothing that is drawn is the greatest word
      have hne : n ≠ -1 := ne_of_mem_drawn hn
      rw [hlast]
      grind
    · exact increasing.2.2 n hn _ (sequence_mem_drawn hrest hlast)
  · intro beyond
    exact pairwise_append_drawn [] .nil (fun _ _ hn => absurd hn List.not_mem_nil) beyond

/-- Without a restore the numbers increase, whatever else a history does. -/
theorem pairwise_drawn_of_forall_ne (s : Substrate σ) {ops : List Operation}
    (h : ∀ op ∈ ops, ∀ graph, op ≠ .restore graph) : (s.drawn ops).Pairwise (· < ·) := by
  refine pairwise_append_drawn [] .nil (fun _ _ hn => absurd hn List.not_mem_nil) ?_
  rintro before graph rest rfl
  exact absurd rfl (h _ (List.mem_append_right _ List.mem_cons_self) graph)

/-- A history puts nothing in place but copies that it has taken of the live graph. -/
def Rewinds (s : Substrate σ) (ops : List Operation) : Prop :=
  ∀ before graph rest, ops = before ++ .restore graph :: rest →
    .graph graph ∈ (s.performAll before).1

/-- The empty graph is copied, a number is drawn, and the copy is put back before the next draw. -/
def rewound : List Operation := [.snapshot, .nextSequence, .restore ∅, .nextSequence]

/-- Putting back a copy of the live graph makes a substrate draw a number twice. -/
theorem exists_number_drawn_twice :
    ¬∀ (σ : Type) [Store σ] (store : σ) (ops : List Operation),
      (ofStore store).Rewinds ops → ((ofStore store).drawn ops).Pairwise (· < ·) := by
  intro increasing
  have rewinds : (ofStore ({} : Store.Tables)).Rewinds rewound := by
    -- by how many operations come before the restore: it is two, and the first of them took the copy
    rintro (_ | ⟨_, _ | ⟨_, _ | ⟨_, _ | ⟨_, _ | _⟩⟩⟩⟩) graph rest hops <;> cases hops
    exact List.mem_cons_self
  have hdrawn : (ofStore ({} : Store.Tables)).drawn rewound = [0, 0] := rfl
  have hpairwise := increasing Store.Tables {} rewound rewinds
  rw [hdrawn] at hpairwise
  exact absurd hpairwise (by decide)

end Substrate

end ResonantGraph
