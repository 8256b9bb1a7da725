import ResonantGraph.Proofs.Store.Logged
import ResonantGraph.Proofs.Substrate.Isolation
import ResonantGraph.Proofs.Text.Order

/-!
# Refused operations

Each guarded operation decides before it changes anything. An operation is *idle* on a substrate if it leaves
the substrate as it was, store and counter included, makes no call on the store and tells a propagation hook
nothing (`Substrate.Idle`). What is refused is idle, because the live graph stays and nothing is asked of the
store (`Substrate.idle_of_mirroring`).

When an operation is refused follows from the live graph alone. An identifier that is taken, or missing, comes
first: only then does an edge fail for its members, and the failure names the least of those that are missing
(`Hypergraph.missingMember?_eq_some_iff`). Least means least in the order of bytes, which is how names are
ordered in a set of members. `Substrate.refusals_exact` goes through the eight operations.
-/

namespace ResonantGraph

/-! ### Missing members -/

namespace Hypergraph

/-- The least of the members of an edge that are not stored, in the order of bytes. -/
structure LeastMissing (g : Hypergraph) (edge : Edge) (id : NodeId) : Prop where
  /-- It is a member. -/
  member : id ∈ edge.members
  /-- It is not stored. -/
  missing : g.hasNode id = false
  /-- Every other member that is not stored comes later. -/
  least : ∀ other ∈ edge.members, g.hasNode other = false → other ≠ id → Text.bytes id < Text.bytes other

variable {g : Hypergraph} {edge : Edge}

theorem LeastMissing.unique {id id' : NodeId} (h : g.LeastMissing edge id) (h' : g.LeastMissing edge id') :
    id = id' := by
  by_contra hne
  exact List.lt_asymm (h.least id' h'.member h'.missing (Ne.symm hne))
    (h'.least id h.member h.missing hne)

theorem leastMissing_of_missingMember? {id : NodeId} (h : g.missingMember? edge = some id) :
    g.LeastMissing edge id := by
  obtain ⟨hmissing, before, after, hnames, hbefore⟩ := List.find?_eq_some_iff_append.1 h
  have hascending := NameSet.names_ascending edge.members
  rw [hnames, List.pairwise_append, List.pairwise_cons] at hascending
  refine ⟨?_, ?_, fun other hother habsent hne => ?_⟩
  · rw [← NameSet.mem_names, hnames]
    exact List.mem_append_right _ List.mem_cons_self
  · rwa [Bool.not_eq_true'] at hmissing
  rw [← NameSet.mem_names, hnames, List.mem_append, List.mem_cons] at hother
  rcases hother with hother | rfl | hother
  · -- whatever comes before is stored
    have hstored := hbefore other hother
    rw [habsent] at hstored
    cases hstored
  · exact absurd rfl hne
  · exact Text.bytes_lt_iff.2 (hascending.2.1.1 other hother)

/-- **The member that is named as missing** is the least that is. -/
theorem missingMember?_eq_some_iff {id : NodeId} :
    g.missingMember? edge = some id ↔ g.LeastMissing edge id := by
  refine ⟨leastMissing_of_missingMember?, fun h => ?_⟩
  cases hfound : g.missingMember? edge with
  | none =>
    have hstored := missingMember?_eq_none_iff.1 hfound id h.member
    rw [h.missing] at hstored
    cases hstored
  | some id' => rw [(leastMissing_of_missingMember? hfound).unique h]

/-- Some member is missing exactly if one is named. -/
theorem exists_missing_iff :
    (∃ id ∈ edge.members, g.hasNode id = false) ↔ ∃ id, g.missingMember? edge = some id := by
  constructor
  · rintro ⟨id, hmember, hmissing⟩
    rw [← Option.ne_none_iff_exists']
    intro hnone
    rw [missingMember?_eq_none_iff.1 hnone id hmember] at hmissing
    cases hmissing
  · rintro ⟨id, hid⟩
    have h := leastMissing_of_missingMember? hid
    exact ⟨id, h.member, h.missing⟩

end Hypergraph

/-! ### Idle operations -/

namespace Substrate

variable {σ : Type} [Store σ] {s : Substrate σ}

/-- An operation that leaves the substrate and its store alone and tells a hook nothing. -/
structure Idle (s : Substrate σ) (op : Operation) : Prop where
  /-- The graph, what is stored and the count of failures are what they were. -/
  state : (s.perform op).2 = s
  /-- No call is made on the store. -/
  calls : s.calls op = []
  /-- No hook runs. -/
  silent : (s.perform op).1.propagation? = none

/-- An operation is idle if it does not change the live graph, asks nothing of the store and shows no
propagation. -/
theorem idle_of_mirroring {op : Operation} (hop : op.mirroring = true) (hafter : op.after s.graph = s.graph)
    (hwrites : op.writes s.graph = []) (hsilent : (op.answer s.graph).propagation? = none) : s.Idle op where
  state := by
    rw [s.perform_mirroring hop, hafter, hwrites]
    rfl
  calls := by
    rw [s.calls_of_mirroring hop, hwrites]
    rfl
  silent := by
    rw [s.perform_mirroring hop]
    exact hsilent

/-- An operation that is refused for a reason, and for no other, and is then idle. -/
structure Refuses (s : Substrate σ) (op : Operation) (verdict : Bool) (reason : Prop) : Prop where
  /-- The verdict is `false` exactly for the reason. -/
  exactly : verdict = false ↔ reason
  /-- Refused means idle. -/
  idle : verdict = false → s.Idle op

/-- An operation on an edge that is refused for a reason, whatever the members are; that else fails exactly if a
member is missing, and names the edge and the least one; and that is idle where it is refused or fails. -/
structure Judges (s : Substrate σ) (op : Operation) (edge : Edge) (verdict : Except Failure Bool)
    (reason : Prop) : Prop where
  /-- The verdict is `false` exactly for the reason. -/
  exactly : verdict = .ok false ↔ reason
  /-- It is a failure exactly if there is no such reason and a member is missing. -/
  fails : (∃ failure, verdict = .error failure) ↔
    ¬ reason ∧ ∃ id ∈ edge.members, s.graph.hasNode id = false
  /-- The failure names the edge and the least missing member. -/
  names : ∀ failure, verdict = .error failure →
    ∃ id, s.graph.LeastMissing edge id ∧ failure = .missingMember edge.id id
  /-- Refused or failed means idle. -/
  idle : verdict ≠ .ok true → s.Idle op

theorem refuses_of_cases {op : Operation} {verdict : Bool} {reason : Prop} (hrefused : reason → verdict = false)
    (hdone : ¬ reason → verdict = true) (hidle : reason → s.Idle op) : s.Refuses op verdict reason where
  exactly := by
    refine ⟨fun hfalse => by_contra fun hnot => ?_, hrefused⟩
    rw [hdone hnot] at hfalse
    cases hfalse
  idle hfalse := by
    refine hidle (by_contra fun hnot => ?_)
    rw [hdone hnot] at hfalse
    cases hfalse

/-- An edge that is refused by its identifier, or else judged by its members. -/
theorem judges_of_cases {op : Operation} {edge : Edge} {result : Except Failure Bool × Hypergraph}
    {reason : Prop} (hrefused : reason → result = (.ok false, s.graph))
    (hchecked : ¬ reason → result = s.graph.putEdge edge)
    (hidle : result.2 = s.graph → result.1 ≠ .ok true → s.Idle op) : s.Judges op edge result.1 reason := by
  by_cases h : reason
  · -- the members do not matter
    obtain rfl := hrefused h
    refine ⟨iff_of_true rfl h, ?_, fun failure hfailure => ?_, hidle rfl⟩
    · exact iff_of_false (fun ⟨failure, hfailure⟩ => by cases hfailure) fun hnot => hnot.1 h
    · cases hfailure
  obtain rfl := hchecked h
  unfold Hypergraph.putEdge at hidle ⊢
  cases hmissing : s.graph.missingMember? edge with
  | none =>
    have hall : ¬ ∃ id ∈ edge.members, s.graph.hasNode id = false := by
      rw [Hypergraph.exists_missing_iff, hmissing]
      exact fun ⟨id, hid⟩ => by cases hid
    refine ⟨iff_of_false (fun hfalse => by cases hfalse) h, ?_, fun failure hfailure => ?_, fun hne => ?_⟩
    · exact iff_of_false (fun ⟨failure, hfailure⟩ => by cases hfailure) fun hsome => hall hsome.2
    · cases hfailure
    · exact absurd rfl hne
  | some id =>
    rw [hmissing] at hidle
    have hsome := Hypergraph.exists_missing_iff.2 ⟨id, hmissing⟩
    refine ⟨iff_of_false (fun hfalse => by cases hfalse) h, iff_of_true ⟨_, rfl⟩ ⟨h, hsome⟩,
      fun failure hfailure => ?_, hidle rfl⟩
    cases hfailure
    exact ⟨id, Hypergraph.leastMissing_of_missingMember? hmissing, rfl⟩

/-! ### The operations -/

theorem refuses_addNode (s : Substrate σ) (node : Node) :
    s.Refuses (.addNode node) (s.addNode node).1 (s.graph.hasNode node.id = true) := by
  have hrefused (h : s.graph.hasNode node.id = true) : s.graph.addNode node = (false, s.graph) := if_pos h
  have hdone (h : ¬ s.graph.hasNode node.id = true) :
      s.graph.addNode node = (true, s.graph.putNode node) := if_neg h
  rw [addNode_eq]
  refine refuses_of_cases (fun h => congrArg Prod.fst (hrefused h)) (fun h => congrArg Prod.fst (hdone h))
    fun h => idle_of_mirroring rfl (congrArg Prod.snd (hrefused h)) ?_ rfl
  rw [Operation.writes, hrefused h]
  rfl

theorem refuses_updateNode (s : Substrate σ) (node : Node) :
    s.Refuses (.updateNode node) (s.updateNode node).1 (s.graph.hasNode node.id = false) := by
  have hrefused (h : s.graph.hasNode node.id = false) : s.graph.updateNode node = (false, s.graph) :=
    if_neg (Bool.eq_false_iff.1 h)
  have hdone (h : ¬ s.graph.hasNode node.id = false) :
      s.graph.updateNode node = (true, s.graph.putNode node) := if_pos (Bool.eq_true_of_not_eq_false h)
  rw [updateNode_eq]
  refine refuses_of_cases (fun h => congrArg Prod.fst (hrefused h)) (fun h => congrArg Prod.fst (hdone h))
    fun h => idle_of_mirroring rfl (congrArg Prod.snd (hrefused h)) ?_ rfl
  rw [Operation.writes, hrefused h]
  rfl

theorem refuses_removeNode (s : Substrate σ) (id : NodeId) :
    s.Refuses (.removeNode id) (s.removeNode id).1 (s.graph.hasNode id = false) := by
  have hrefused (h : s.graph.hasNode id = false) : s.graph.removeNode id = (none, s.graph) :=
    if_neg (Bool.eq_false_iff.1 h)
  have hdone (h : ¬ s.graph.hasNode id = false) :
      (s.graph.removeNode id).1 = some (s.graph.incident id).names :=
    congrArg Prod.fst (if_pos (Bool.eq_true_of_not_eq_false h))
  rw [removeNode_eq]
  refine refuses_of_cases (fun h => ?_) (fun h => ?_) fun h =>
    idle_of_mirroring rfl (congrArg Prod.snd (hrefused h)) ?_ rfl
  · rw [hrefused h]
    rfl
  · rw [hdone h]
    rfl
  · rw [Operation.writes, hrefused h]

theorem refuses_removeEdge (s : Substrate σ) (id : EdgeId) :
    s.Refuses (.removeEdge id) (s.removeEdge id).1 (s.graph.hasEdge id = false) := by
  have hrefused (h : s.graph.hasEdge id = false) : s.graph.removeEdge id = (false, s.graph) :=
    if_neg (Bool.eq_false_iff.1 h)
  have hdone (h : ¬ s.graph.hasEdge id = false) : (s.graph.removeEdge id).1 = true :=
    congrArg Prod.fst (if_pos (Bool.eq_true_of_not_eq_false h))
  rw [removeEdge_eq]
  refine refuses_of_cases (fun h => congrArg Prod.fst (hrefused h)) hdone
    fun h => idle_of_mirroring rfl (congrArg Prod.snd (hrefused h)) ?_ rfl
  rw [Operation.writes, hrefused h]
  rfl

theorem judges_addEdge (s : Substrate σ) (edge : Edge) :
    s.Judges (.addEdge edge) edge (s.addEdge edge).1 (s.graph.hasEdge edge.id = true) := by
  rw [addEdge_eq]
  refine judges_of_cases (fun h => if_pos h) (fun h => if_neg h) fun hgraph hverdict =>
    idle_of_mirroring rfl hgraph ?_ rfl
  rw [Operation.writes]
  split
  · next hadded => exact absurd hadded hverdict
  · rfl

theorem judges_updateEdge (s : Substrate σ) (edge : Edge) :
    s.Judges (.updateEdge edge) edge (s.updateEdge edge).1 (s.graph.hasEdge edge.id = false) := by
  rw [updateEdge_eq]
  refine judges_of_cases (fun h => if_neg (Bool.eq_false_iff.1 h)) (fun h => if_pos (Bool.eq_true_of_not_eq_false h))
    fun hgraph hverdict => idle_of_mirroring rfl hgraph ?_ rfl
  rw [Operation.writes]
  split
  · next hupdated => exact absurd hupdated hverdict
  · rfl

theorem idle_propagate {source : NodeId} (h : s.graph.hasNode source = false) (initial : Binary64) :
    s.Idle (.propagate source initial) := by
  have hnone : s.graph.propagate source initial = (none, s.graph) := if_neg (Bool.eq_false_iff.1 h)
  refine idle_of_mirroring rfl (congrArg Prod.snd hnone) ?_ ?_
  · rw [Operation.writes, hnone]
  · rw [Operation.answer, hnone]
    rfl

theorem idle_updateActivation {id : NodeId} (h : s.graph.hasNode id = false) (level : Binary64) :
    s.Idle (.updateActivation id level) := by
  have hnone : s.graph.setActivation id level = (false, s.graph) := if_neg (Bool.eq_false_iff.1 h)
  refine idle_of_mirroring rfl (congrArg Prod.snd hnone) ?_ rfl
  rw [Operation.writes, hnone]
  rfl

/-- **What is refused does nothing, and what is refused is exactly this**, on any substrate over any store. A
node is not added exactly if its identifier is taken, and not updated or removed exactly if it is not there;
an edge is not removed exactly if it is not there. An edge is not added exactly if its identifier is taken, and
not updated exactly if it is not there, whatever its members; it otherwise fails exactly if some member is no
stored node, with the name of the edge and the least such member in the order of bytes. In all these cases,
and where activation is to be spread from or set on a node that is not there, the graph, its sequence, the
store and the count of failures stay as they are, nothing is asked of the store and no hook runs. -/
theorem refusals_exact (s : Substrate σ) :
    (∀ node, s.Refuses (.addNode node) (s.addNode node).1 (s.graph.hasNode node.id = true)) ∧
      (∀ node, s.Refuses (.updateNode node) (s.updateNode node).1 (s.graph.hasNode node.id = false)) ∧
      (∀ id, s.Refuses (.removeNode id) (s.removeNode id).1 (s.graph.hasNode id = false)) ∧
      (∀ id, s.Refuses (.removeEdge id) (s.removeEdge id).1 (s.graph.hasEdge id = false)) ∧
      (∀ edge, s.Judges (.addEdge edge) edge (s.addEdge edge).1 (s.graph.hasEdge edge.id = true)) ∧
      (∀ edge, s.Judges (.updateEdge edge) edge (s.updateEdge edge).1 (s.graph.hasEdge edge.id = false)) ∧
      (∀ source initial, s.graph.hasNode source = false → s.Idle (.propagate source initial)) ∧
      ∀ id level, s.graph.hasNode id = false → s.Idle (.updateActivation id level) :=
  ⟨s.refuses_addNode, s.refuses_updateNode, s.refuses_removeNode, s.refuses_removeEdge, s.judges_addEdge,
    s.judges_updateEdge, fun _ initial h => idle_propagate h initial,
    fun _ level h => idle_updateActivation h level⟩

/-- `refusals_exact` on a store that already holds things of its own: an edge of which two members are missing
fails for the one whose bytes come first, and the same edge under a name that is taken is just refused. -/
theorem refusals_exact_stubborn :
    let s := ((ofStore stubborn).performAll
      [.addNode { id := "a" }, .addEdge { id := "e", members := NameSet.ofNames ["a"] }]).2
    let members := NameSet.ofNames ["é", "a", "z"]
    (s.addEdge { id := "f", members }).1 = .error (.missingMember "f" "z") ∧
      (s.addEdge { id := "f", members }).2 = s ∧ s.calls (.addEdge { id := "f", members }) = [] ∧
      (s.addEdge { id := "e", members }).1 = .ok false ∧ s.Idle (.propagate "z" 1) := by
  intro s members
  obtain ⟨-, -, -, -, adds, -, spreads, -⟩ := refusals_exact s
  have hmissing : ∃ id ∈ members, s.graph.hasNode id = false := ⟨"z", by decide +kernel, by decide +kernel⟩
  obtain ⟨failure, hfailure⟩ :=
    (adds { id := "f", members }).fails.2 ⟨by decide +kernel, hmissing⟩
  obtain ⟨id, hleast, rfl⟩ := (adds { id := "f", members }).names failure hfailure
  have hz : s.graph.LeastMissing { id := "f", members } "z" :=
    Hypergraph.missingMember?_eq_some_iff.1 (by decide +kernel)
  rw [hleast.unique hz] at hfailure
  have hidle := (adds { id := "f", members }).idle fun hok => by
    rw [hfailure] at hok
    cases hok
  exact ⟨hfailure, hidle.state, hidle.calls, (adds { id := "e", members }).exactly.2 (by decide +kernel),
    spreads "z" 1 (by decide +kernel)⟩

end Substrate

end ResonantGraph
