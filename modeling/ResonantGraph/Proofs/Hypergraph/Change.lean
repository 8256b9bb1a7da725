import ResonantGraph.Hypergraph.Reach
import Mathlib.Tactic.ByContra

/-!
# Changes of a graph

A `Change` is one of the ten things that alter a graph, and `Hypergraph.apply` does it. What a change
can do at all is said once, by `Hypergraph.effect`: it is refused, puts a node or an edge in place,
takes a node or an edge away, draws a number, moves activations, or empties the graph. Every
invariant is then one case analysis over `Effect`.

Two invariants are stated here for any run:

* `Every.applyAll` — a property of each entry, taken alone, survives as long as the entries that are
  brought in have it and it does not depend on a clamped activation;
* `MembersStored.applyAll` — every member of every edge stays a stored node. This one needs that an
  edge with members is filed under its own identifier: the removal of a node takes the identifiers of
  the edges that join it and drops what is filed under them. No less would do: where an edge with
  members is filed under a foreign name, some run leaves it behind
  (`JoiningEdgesFiled.of_applyAll`).
-/

namespace ResonantGraph

namespace Hypergraph

/-- One change of a graph. -/
inductive Change
  /-- Add a node. -/
  | addNode (node : Node)
  /-- Replace a node. -/
  | updateNode (node : Node)
  /-- Remove a node and the edges that join it. -/
  | removeNode (id : NodeId)
  /-- Add an edge. -/
  | addEdge (edge : Edge)
  /-- Replace an edge. -/
  | updateEdge (edge : Edge)
  /-- Remove an edge. -/
  | removeEdge (id : EdgeId)
  /-- Draw a number from the sequence. -/
  | nextSequence
  /-- Spread activation. -/
  | propagate (source : NodeId) (initial : Binary64)
  /-- Set an activation. -/
  | setActivation (id : NodeId) (level : Binary64)
  /-- Empty the graph. -/
  | clear

/-- The graph after a change. -/
def apply (g : Hypergraph) : Change → Hypergraph
  | .addNode node => (g.addNode node).2
  | .updateNode node => (g.updateNode node).2
  | .removeNode id => (g.removeNode id).2
  | .addEdge edge => (g.addEdge edge).2
  | .updateEdge edge => (g.updateEdge edge).2
  | .removeEdge id => (g.removeEdge id).2
  | .nextSequence => g.nextSequence.2
  | .propagate source initial => (g.propagate source initial).2
  | .setActivation id level => (g.setActivation id level).2
  | .clear => g.clear

/-- The graph after a list of changes. -/
def applyAll (g : Hypergraph) (changes : List Change) : Hypergraph := changes.foldl apply g

@[simp] theorem applyAll_nil (g : Hypergraph) : g.applyAll [] = g := rfl

@[simp] theorem applyAll_cons (g : Hypergraph) (c : Change) (cs : List Change) :
    g.applyAll (c :: cs) = (g.apply c).applyAll cs := rfl

theorem applyAll_append (g : Hypergraph) (cs ds : List Change) :
    g.applyAll (cs ++ ds) = (g.applyAll cs).applyAll ds :=
  List.foldl_append ..

/-! ### What a change can do -/

/-- What a change can make of a graph. -/
inductive Effect (g : Hypergraph) : Change → Hypergraph → Prop
  /-- The change is refused. -/
  | refused (c : Change) : Effect g c g
  /-- A node takes its place. -/
  | putNode {c : Change} (node : Node) (brings : c = .addNode node ∨ c = .updateNode node) :
      Effect g c (g.putNode node)
  /-- An edge takes its place. All its members are stored. -/
  | putEdge {c : Change} (edge : Edge) (brings : c = .addEdge edge ∨ c = .updateEdge edge)
      (stored : ∀ id ∈ edge.members, g.hasNode id = true) :
      Effect g c { g with edges := g.edges.insert edge.id edge }
  /-- A node goes, and with it what is filed under the identifier of an edge that joins it. -/
  | removeNode (id : NodeId) :
      Effect g (.removeNode id)
        { g with
          nodes := g.nodes.erase id
          edges := g.edges.filter fun key _ => key ∉ g.incident id }
  /-- An edge goes. -/
  | removeEdge (id : EdgeId) : Effect g (.removeEdge id) { g with edges := g.edges.erase id }
  /-- The sequence moves on. -/
  | draw : Effect g .nextSequence g.nextSequence.2
  /-- Some nodes get another activation, which is clamped. -/
  | activate {c : Change} (f : NodeId → Node → Node)
      (levels : ∀ id node, f id node = node ∨
        ∃ level : Binary64, f id node = node.setActivation level.clamp) :
      Effect g c { g with nodes := g.nodes.mapValues f }
  /-- Everything but the sequence goes. -/
  | clear : Effect g .clear g.clear

/-- The two outcomes of storing an edge. -/
theorem putEdge_cases (g : Hypergraph) (edge : Edge) :
    (g.putEdge edge).2 = g ∨
      (∀ id ∈ edge.members, g.hasNode id = true) ∧
        (g.putEdge edge).2 = { g with edges := g.edges.insert edge.id edge } := by
  unfold putEdge
  cases h : g.missingMember? edge with
  | some id => exact .inl rfl
  | none => exact .inr ⟨missingMember?_eq_none_iff.1 h, rfl⟩

theorem spreadTo_cases (source : NodeId) (reached : NameSet) (initial : Binary64) (id : NodeId)
    (node : Node) :
    spreadTo source reached initial id node = node ∨
      ∃ level : Binary64, spreadTo source reached initial id node =
        node.setActivation level.clamp := by
  unfold spreadTo
  split
  · exact .inr ⟨_, rfl⟩
  · split
    · exact .inr ⟨_, rfl⟩
    · exact .inl rfl

/-- **What a change can do.** -/
theorem effect (g : Hypergraph) (c : Change) : Effect g c (g.apply c) := by
  cases c with
  | addNode node =>
    change Effect g _ (g.addNode node).2
    unfold addNode
    split
    · exact .refused _
    · exact .putNode node (.inl rfl)
  | updateNode node =>
    change Effect g _ (g.updateNode node).2
    unfold updateNode
    split
    · exact .putNode node (.inr rfl)
    · exact .refused _
  | removeNode id =>
    change Effect g _ (g.removeNode id).2
    unfold removeNode
    split
    · exact .removeNode id
    · exact .refused _
  | addEdge edge =>
    change Effect g _ (g.addEdge edge).2
    unfold addEdge
    split
    · exact .refused _
    · rcases g.putEdge_cases edge with h | ⟨stored, h⟩ <;> rw [h]
      · exact .refused _
      · exact .putEdge edge (.inl rfl) stored
  | updateEdge edge =>
    change Effect g _ (g.updateEdge edge).2
    unfold updateEdge
    split
    · rcases g.putEdge_cases edge with h | ⟨stored, h⟩ <;> rw [h]
      · exact .refused _
      · exact .putEdge edge (.inr rfl) stored
    · exact .refused _
  | removeEdge id =>
    change Effect g _ (g.removeEdge id).2
    unfold removeEdge
    split
    · exact .removeEdge id
    · exact .refused _
  | nextSequence => exact .draw
  | propagate source initial =>
    change Effect g _ (g.propagate source initial).2
    unfold propagate
    split
    · exact .activate _ (spreadTo_cases source _ initial)
    · exact .refused _
  | setActivation id level =>
    change Effect g _ (g.setActivation id level).2
    unfold setActivation
    split
    · refine .activate _ fun key node => ?_
      split
      · exact .inr ⟨level, rfl⟩
      · exact .inl rfl
    · exact .refused _
  | clear => exact .clear

/-! ### Properties of single entries -/

/-- Every node satisfies one property and every edge another, each together with the name that it
is filed under. -/
structure Every (P : NodeId → Node → Prop) (Q : EdgeId → Edge → Prop) (g : Hypergraph) : Prop where
  /-- The nodes satisfy the first. -/
  nodes : ∀ id node, g.nodes.find? id = some node → P id node
  /-- The edges satisfy the second. -/
  edges : ∀ id edge, g.edges.find? id = some edge → Q id edge

/-- What a change brings into the graph satisfies two properties. -/
def Change.Brings (P : NodeId → Node → Prop) (Q : EdgeId → Edge → Prop) : Change → Prop
  | .addNode node | .updateNode node => P node.id node.clamped
  | .addEdge edge | .updateEdge edge => Q edge.id edge
  | _ => True

variable {P : NodeId → Node → Prop} {Q : EdgeId → Edge → Prop} {g : Hypergraph}

theorem Every.empty : Every P Q ∅ where
  nodes := fun _ _ h => by cases h
  edges := fun _ _ h => by cases h

/-- A change keeps a property of single entries that no clamped activation can break. -/
theorem Every.apply (hP : ∀ id node (level : Binary64), P id node →
      P id (node.setActivation level.clamp))
    (h : g.Every P Q) {c : Change} (hc : c.Brings P Q) : (g.apply c).Every P Q := by
  have effect : Effect g c (g.apply c) := g.effect c
  generalize g.apply c = g' at effect ⊢
  cases effect with
  | refused => exact h
  | putNode node brings =>
    have hnode : P node.id node.clamped := by
      rcases brings with rfl | rfl <;> exact hc
    -- under the identifier that was brought in there is what was brought in
    refine ⟨fun id n hn => ?_, h.edges⟩
    rw [nodes_putNode, Table.find?_insert] at hn
    split at hn
    · next hid => cases hn; exact hid ▸ hnode
    · exact h.nodes id n hn
  | putEdge edge brings stored =>
    have hedge : Q edge.id edge := by
      rcases brings with rfl | rfl <;> exact hc
    refine ⟨h.nodes, fun id e he => ?_⟩
    rw [Table.find?_insert] at he
    split at he
    · next hid => cases he; exact hid ▸ hedge
    · exact h.edges id e he
  | removeNode id =>
    -- nothing comes in, so what is left was there before
    refine ⟨fun key n hn => ?_, fun key e he => ?_⟩
    · rw [Table.find?_erase] at hn
      split at hn
      · cases hn
      · exact h.nodes key n hn
    · rw [Table.find?_filter, Option.filter_eq_some_iff] at he
      exact h.edges key e he.1
  | removeEdge id =>
    refine ⟨h.nodes, fun key e he => ?_⟩
    rw [Table.find?_erase] at he
    split at he
    · cases he
    · exact h.edges key e he
  | draw => exact ⟨h.nodes, h.edges⟩
  | activate f levels =>
    -- a node differs from the old one in a clamped activation at most, which is what `hP` is about
    refine ⟨fun id n hn => ?_, h.edges⟩
    rw [Table.find?_mapValues, Option.map_eq_some_iff] at hn
    obtain ⟨old, hold, rfl⟩ := hn
    have hPold : P id old := h.nodes id old hold
    rcases levels id old with heq | ⟨level, heq⟩ <;> rw [heq]
    · exact hPold
    · exact hP id old level hPold
  | clear =>
    refine ⟨fun _ _ hn => ?_, fun _ _ he => ?_⟩
    · cases hn
    · cases he

/-- A run of changes keeps a property of single entries. -/
theorem Every.applyAll (hP : ∀ id node (level : Binary64), P id node →
      P id (node.setActivation level.clamp))
    (h : g.Every P Q) {cs : List Change} (hcs : ∀ c ∈ cs, c.Brings P Q) :
    (g.applyAll cs).Every P Q := by
  induction cs generalizing g with
  | nil => exact h
  | cons c cs ih =>
    rw [List.forall_mem_cons] at hcs
    exact ih (h.apply hP hcs.1) hcs.2

/-! ### Members of edges -/

/-- Every member of every edge is a stored node. -/
def MembersStored (g : Hypergraph) : Prop :=
  ∀ key edge, g.edges.find? key = some edge → ∀ id ∈ edge.members, g.hasNode id = true

/-- Every edge that has members is filed under its own identifier. -/
def JoiningEdgesFiled (g : Hypergraph) : Prop :=
  ∀ key edge, g.edges.find? key = some edge → edge.members ≠ ∅ → edge.id = key

theorem membersStored_empty : MembersStored ∅ := fun _ _ h => by cases h

theorem hasNode_putNode (node : Node) (id : NodeId) :
    (g.putNode node).hasNode id = (decide (node.id = id) || g.hasNode id) := by
  unfold hasNode Table.contains
  rw [nodes_putNode, Table.find?_insert]
  by_cases h : node.id = id <;> simp [h]

theorem mem_incident {id : NodeId} {edgeId : EdgeId} :
    edgeId ∈ g.incident id ↔
      ∃ key edge, g.edges.find? key = some edge ∧ id ∈ edge.members ∧ edge.id = edgeId := by
  unfold incident
  rw [NameSet.mem_ofNames, List.mem_map]
  constructor
  · rintro ⟨edge, hedge, hid⟩
    obtain ⟨⟨key, hkey⟩, hmem⟩ := mem_edgesAt.1 hedge
    exact ⟨key, edge, hkey, hmem, hid⟩
  · rintro ⟨key, edge, hkey, hmem, hid⟩
    exact ⟨edge, mem_edgesAt.2 ⟨⟨key, hkey⟩, hmem⟩, hid⟩

theorem JoiningEdgesFiled.apply (h : g.JoiningEdgesFiled) (c : Change) :
    (g.apply c).JoiningEdgesFiled := by
  have every : g.Every (fun _ _ => True) fun key edge => edge.members ≠ ∅ → edge.id = key :=
    ⟨fun _ _ _ => trivial, h⟩
  refine (every.apply (fun _ _ _ _ => trivial) (c := c) ?_).edges
  cases c <;> first | exact fun _ => rfl | trivial

/-- A change keeps every member stored, where the edges with members are filed as they should be. -/
theorem MembersStored.apply (h : g.MembersStored) (filed : g.JoiningEdgesFiled) (c : Change) :
    (g.apply c).MembersStored := by
  have effect : Effect g c (g.apply c) := g.effect c
  generalize g.apply c = g' at effect ⊢
  cases effect with
  | refused => exact h
  | putNode node =>
    -- no node goes
    intro key e he id hid
    rw [hasNode_putNode, h key e he id hid, Bool.or_true]
  | putEdge edge brings stored =>
    -- the members of the new edge were checked, those of the others are stored as before
    intro key e he id hid
    rw [Table.find?_insert] at he
    split at he
    · cases he; exact stored id hid
    · exact h key e he id hid
  | removeNode gone =>
    intro key e he id hid
    rw [Table.find?_filter, Option.filter_eq_some_iff] at he
    obtain ⟨he, hkept⟩ := he
    -- an edge that joins the removed node would have been dropped, being filed under its own name
    have hne : gone ≠ id := by
      rintro rfl
      have hid' : e.id = key := filed key e he fun hnone => by rw [hnone] at hid; simp at hid
      have hdrop : key ∈ g.incident gone := mem_incident.2 ⟨key, e, he, hid, hid'⟩
      simp [hdrop] at hkept
    have hstored : g.hasNode id = true := h key e he id hid
    unfold hasNode Table.contains at hstored ⊢
    rw [Table.find?_erase, if_neg hne]
    exact hstored
  | removeEdge gone =>
    intro key e he id hid
    rw [Table.find?_erase] at he
    split at he
    · cases he
    · exact h key e he id hid
  | draw => exact h
  | activate f levels =>
    -- activations move, identifiers do not
    intro key e he id hid
    have hstored : g.hasNode id = true := h key e he id hid
    unfold hasNode Table.contains at hstored ⊢
    rw [Table.find?_mapValues, Option.isSome_map]
    exact hstored
  | clear => exact fun _ _ he => by cases he

theorem MembersStored.applyAll (h : g.MembersStored) (filed : g.JoiningEdgesFiled)
    (cs : List Change) : (g.applyAll cs).MembersStored := by
  induction cs generalizing g with
  | nil => exact h
  | cons c cs ih => exact ih (h.apply filed c) (filed.apply c)

/-- What is left when edges have been removed. -/
theorem applyAll_removeEdge (g : Hypergraph) (ids : List EdgeId) (key : EdgeId) :
    (g.applyAll (ids.map .removeEdge)).nodes = g.nodes ∧
      (g.applyAll (ids.map .removeEdge)).edges.find? key =
        if key ∈ ids then none else g.edges.find? key := by
  induction ids generalizing g with
  | nil => exact ⟨rfl, by simp⟩
  | cons id ids ih =>
    have hnodes : (g.removeEdge id).2.nodes = g.nodes := by
      unfold removeEdge
      split <;> rfl
    have hedges : (g.removeEdge id).2.edges.find? key =
        if id = key then none else g.edges.find? key := by
      unfold removeEdge hasEdge
      split
      · exact Table.find?_erase ..
      · next habsent =>
        split
        · next heq =>
          rw [← heq, ← Table.contains_eq_false_iff, ← Bool.not_eq_true]
          exact habsent
        · rfl
    obtain ⟨ihnodes, ihedges⟩ := ih (g.removeEdge id).2
    refine ⟨ihnodes.trans hnodes, ihedges.trans ?_⟩
    -- the identifier is the first to be removed, or it is up to the others
    rw [hedges]
    by_cases heq : id = key
    · simp [heq]
    · simp [heq, Ne.symm heq]

/-- An edge with members that is filed under a foreign name outlives one of them: remove every other
edge, so that nothing is filed under its identifier by chance, and then a member. -/
theorem JoiningEdgesFiled.of_applyAll (h : ∀ cs, (g.applyAll cs).MembersStored) :
    g.JoiningEdgesFiled := by
  intro key edge hedge hmembers
  by_contra hne
  obtain ⟨member, hmember⟩ : ∃ id, id ∈ edge.members := by
    by_contra hnone
    refine hmembers (NameSet.ext_mem fun id => ⟨fun hid => absurd ⟨id, hid⟩ hnone, fun hid => ?_⟩)
    exact absurd hid (NameSet.not_mem_empty id)
  let others : List Change := (g.edges.keys.filter (· ≠ key)).map .removeEdge
  have hfind (k : EdgeId) : (g.applyAll others).edges.find? k = if k = key then some edge else none := by
    rw [(g.applyAll_removeEdge _ k).2]
    by_cases hk : k = key
    · rw [if_neg (by simp [hk]), if_pos hk, hk, hedge]
    · rw [if_neg hk, ite_eq_left_iff]
      intro habsent
      have hout : ¬ k ∈ g.edges.keys := fun hin => habsent (by simp [hin, hk])
      rwa [Table.mem_keys_iff, Bool.not_eq_true, Table.contains_eq_false_iff] at hout
  have hstored : (g.applyAll others).hasNode member = true := by
    unfold hasNode
    rw [(g.applyAll_removeEdge _ key).1]
    exact h [] key edge hedge member hmember
  have hkept : ¬ key ∈ (g.applyAll others).incident member := by
    rw [mem_incident]
    rintro ⟨k, e, he, -, heq⟩
    rw [hfind] at he
    split at he
    · cases he; exact hne heq
    · cases he
  have hgone := h (others ++ [.removeNode member]) key edge
  rw [applyAll_append] at hgone
  change (((g.applyAll others).removeNode member).2.edges.find? key = some edge →
    ∀ id ∈ edge.members, ((g.applyAll others).removeNode member).2.hasNode id = true) at hgone
  unfold removeNode at hgone
  rw [if_pos hstored] at hgone
  have hdangling := hgone (by rw [Table.find?_filter, hfind]; simp [hkept]) member hmember
  unfold hasNode Table.contains at hdangling
  rw [Table.find?_erase, if_pos rfl] at hdangling
  cases hdangling

end Hypergraph

end ResonantGraph
