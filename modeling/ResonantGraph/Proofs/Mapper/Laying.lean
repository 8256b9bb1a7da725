import ResonantGraph.Proofs.Mapper.Elements

/-!
# Laying out a record

Operations that add move the sequence by as many numbers as they draw, up to the greatest word, where it stays
(`Operation.sequence_nextAll`). Those that lay out and do not spread activation leave nodes with
their activations, and new ones with those that they are made with (`Operation.find?_nodes_nextAll`); a hook is
told nothing.

The script of a new content does just this at first (`Mapper.layScript`): it lays out the content, its words and
its attributes, each with their edges. Then activation spreads, once (`Mapper.elementsScript_eq`), and then the
similar contents are looked for.
-/

namespace ResonantGraph

open Operation (nextAll nodesOf)

/-! ### The sequence -/

namespace Hypergraph

/-- A number of the sequence after some draws. The sequence stays at the greatest word once it is there. -/
def sequenceAfter (n : UInt64) (draws : Nat) : UInt64 :=
  UInt64.ofNat (min (n.toNat + draws) (UInt64.size - 1))

theorem toNat_sequenceAfter (n : UInt64) (draws : Nat) :
    (sequenceAfter n draws).toNat = min (n.toNat + draws) (UInt64.size - 1) := by
  refine UInt64.toNat_ofNat_of_lt' (lt_of_le_of_lt (min_le_right _ _) ?_)
  decide

theorem sequenceAfter_zero (n : UInt64) : sequenceAfter n 0 = n := by
  have hword := n.toNat_lt_size
  refine UInt64.toNat_inj.1 ?_
  rw [toNat_sequenceAfter]
  omega

theorem sequenceAfter_add (n : UInt64) (draws draws' : Nat) :
    sequenceAfter (sequenceAfter n draws) draws' = sequenceAfter n (draws + draws') := by
  refine UInt64.toNat_inj.1 ?_
  rw [toNat_sequenceAfter, toNat_sequenceAfter, toNat_sequenceAfter]
  omega

theorem sequence_nextSequence (g : Hypergraph) : g.nextSequence.2.sequence = sequenceAfter g.sequence 1 := by
  have hword := g.sequence.toNat_lt_size
  change (if g.sequence = -1 then g.sequence else g.sequence + 1) = _
  refine UInt64.toNat_inj.1 ?_
  rw [toNat_sequenceAfter]
  split
  · next hlast =>
    have hgreatest : g.sequence.toNat = UInt64.size - 1 := by rw [hlast]; rfl
    omega
  · next hlast =>
    have hshort : g.sequence.toNat ≠ UInt64.size - 1 := fun heq => hlast (UInt64.toNat_inj.1 (heq.trans rfl))
    have hroom : g.sequence.toNat + 1 < UInt64.size := by omega
    rw [UInt64.toNat_add, UInt64.toNat_one]
    change (g.sequence.toNat + 1) % UInt64.size = _
    rw [Nat.mod_eq_of_lt hroom]
    omega

end Hypergraph

open ResonantGraph.Hypergraph (sequenceAfter)

namespace Operation

variable {g : Hypergraph} {op : Operation} {ops ops' : List Operation}

/-- Whether an operation draws a number. -/
def draws : Operation → Bool
  | .nextSequence => true
  | _ => false

theorem sequence_next (h : op.adds = true) :
    (op.next g).sequence = sequenceAfter g.sequence (if op.draws then 1 else 0) := by
  cases op with
  | nextSequence => exact g.sequence_nextSequence
  | addNode node => exact (g.sequence_addNode node).trans (Hypergraph.sequenceAfter_zero _).symm
  | addEdge edge => exact (g.nodes_addEdge edge).2.trans (Hypergraph.sequenceAfter_zero _).symm
  | propagate source initial =>
    exact (g.sequence_propagate source initial).trans (Hypergraph.sequenceAfter_zero _).symm
  | _ => cases h

/-- **The sequence after operations that add**: as many numbers on as they draw. -/
theorem sequence_nextAll (h : ∀ op ∈ ops, op.adds = true) :
    (nextAll g ops).sequence = sequenceAfter g.sequence (ops.countP draws) := by
  induction ops generalizing g with
  | nil => exact (Hypergraph.sequenceAfter_zero _).symm
  | cons op ops ih =>
    rw [List.forall_mem_cons] at h
    rw [nextAll_cons, ih h.2, sequence_next h.1, Hypergraph.sequenceAfter_add, List.countP_cons, Nat.add_comm]

/-! ### Operations that let activations be -/

/-- **The nodes after operations that lay out**: what was there, as it was, and under each new identifier the
first that is added, clamped. -/
theorem find?_nodes_nextAll (h : ∀ op ∈ ops, op.lays = true) (id : NodeId) :
    (nextAll g ops).nodes.find? id =
      (g.nodes.find? id).or (((nodesOf ops).find? fun node => node.id = id).map Node.clamped) := by
  induction ops generalizing g with
  | nil => simp [nextAll, nodesOf]
  | cons op ops ih =>
    rw [List.forall_mem_cons] at h
    have hnodes : nodesOf (op :: ops) = nodesOf [op] ++ nodesOf ops := nodesOf_append [op] ops
    have hnext : (op.next g).nodes.find? id =
        (g.nodes.find? id).or (((nodesOf [op]).find? fun node => node.id = id).map Node.clamped) := by
      cases op with
      | addNode node =>
        change (g.addNode node).2.nodes.find? id = _
        rw [Hypergraph.find?_nodes_addNode]
        by_cases hid : node.id = id <;> simp [nodesOf, node?, hid]
      | addEdge edge =>
        rw [nodes_next_addEdge]
        simp [nodesOf, node?]
      | nextSequence =>
        change g.nodes.find? id = _
        simp [nodesOf, node?]
      | _ => cases h.1
    rw [nextAll_cons, ih h.2, hnext, hnodes, List.find?_append, Option.map_or, Option.or_assoc]

/-- They tell a hook nothing. -/
theorem hookCalls_answerAll_of_lays (h : ∀ op ∈ ops, op.lays = true) :
    hookCalls (answerAll g ops) = [] := by
  induction ops generalizing g with
  | nil => rfl
  | cons op ops ih =>
    rw [List.forall_mem_cons] at h
    have hsilent : (op.answer g).propagation? = none := by
      cases op with
      | addNode | addEdge | nextSequence => rfl
      | _ => cases h.1
    rw [answerAll]
    exact (List.filterMap_cons_none hsilent).trans (ih h.2)

theorem hookCalls_answerAll_append :
    hookCalls (answerAll g (ops ++ ops')) =
      hookCalls (answerAll g ops) ++ hookCalls (answerAll (nextAll g ops) ops') := by
  induction ops generalizing g with
  | nil => rfl
  | cons op ops ih =>
    have hcons (answers : List Answer) :
        hookCalls (op.answer g :: answers) = hookCalls [op.answer g] ++ hookCalls answers :=
      List.filterMap_append (l := [op.answer g])
    rw [List.cons_append, answerAll, hcons, ih, ← List.append_assoc, ← hcons]
    rfl

end Operation

namespace Mapper

variable {m : Mapper} {g : Hypergraph} {record : Record} {identity : Identity} {flow : String}

/-! ### Elements -/

/-- The nodes that belong to a record: those of its content, its words and its attributes. -/
def elementNodes (m : Mapper) (identity : Identity) (record : Record) : List Node :=
  contentNode (flowOf record) record.content identity :: (m.wordsOf record).map wordNode ++
    (mappedAttributes record).map fun a => attributeNode (flowOf record) a.1 a.2

/-- How many numbers the edge to the words takes. -/
def wordDraws (m : Mapper) (record : Record) : Nat := if m.wordsOf record = [] then 0 else 1

/-- How many numbers the edge among the attributes takes. -/
def clusterDraws (record : Record) : Nat := if (mappedAttributes record).length < 2 then 0 else 1

/-- The edges that belong to a record, short of the one among similar contents, where the sequence begins with a
number. -/
def elementEdges (m : Mapper) (record : Record) (n : UInt64) : List Edge :=
  wordEdges (flowOf record) (m.wordsOf record) n ++
    attributeEdges (flowOf record) (mappedAttributes record) (sequenceAfter n (m.wordDraws record))

/-- All edges that belong to a record. -/
def recordEdges (m : Mapper) (record : Record) (others : List NodeId) (n : UInt64) : List Edge :=
  m.elementEdges record n ++
    similarityEdges (flowOf record) others (sequenceAfter n (m.wordDraws record + clusterDraws record))

/-- How many numbers a record takes. -/
def recordDraws (m : Mapper) (record : Record) (others : List NodeId) : Nat :=
  m.wordDraws record + clusterDraws record + if others = [] then 0 else 1

/-- What adds the elements of a record, short of the edge among similar contents. -/
def layScript (m : Mapper) (g : Hypergraph) (record : Record) (identity : Identity) : List Operation :=
  m.contentScript g record identity ++
    attributesScript (flowOf record) (attributesNew g record)
      (nextAll g (m.contentScript g record identity)).sequence

/-- After the elements are laid out activation spreads, once. -/
theorem elementsScript_eq :
    m.elementsScript g record identity =
      m.layScript g record identity ++ [.propagate (contentId (flowOf record)) mappedActivation] := by
  unfold elementsScript spreadScript layScript attributesNew
  rw [newAttributes_contentScript, List.append_assoc]

theorem lays_layScript : ∀ op ∈ m.layScript g record identity, op.lays = true :=
  List.forall_mem_append.2 ⟨List.forall_mem_cons.2 ⟨rfl, lays_wordsScript⟩, lays_attributesScript⟩

theorem draws_wordsScript (words : List String) (n : UInt64) :
    (wordsScript flow words n).countP Operation.draws = if words = [] then 0 else 1 := by
  have hnodes : (words.map fun word => Operation.addNode (wordNode word)).countP Operation.draws = 0 := by
    refine List.countP_eq_zero.2 fun op hop => ?_
    obtain ⟨word, -, rfl⟩ := List.mem_map.1 hop
    exact Bool.false_ne_true
  unfold wordsScript
  rw [List.countP_append, hnodes, Nat.zero_add]
  split <;> rfl

theorem draws_attributesScript (attributes : List (String × String)) (n : UInt64) :
    (attributesScript flow attributes n).countP Operation.draws = if attributes.length < 2 then 0 else 1 := by
  have heach : (attributes.flatMap (attributeScript flow)).countP Operation.draws = 0 := by
    refine List.countP_eq_zero.2 fun op hop => ?_
    obtain ⟨a, -, hop⟩ := List.mem_flatMap.1 hop
    rcases List.mem_pair.1 hop with rfl | rfl <;> exact Bool.false_ne_true
  unfold attributesScript
  rw [List.countP_append, heach, Nat.zero_add]
  split <;> rfl

theorem draws_similarityScript (others : List NodeId) (n : UInt64) :
    (similarityScript flow others n).countP Operation.draws = if others = [] then 0 else 1 := by
  unfold similarityScript
  split <;> rfl

theorem draws_contentScript :
    (m.contentScript g record identity).countP Operation.draws = m.wordDraws record := by
  have hnode : ¬ (Operation.addNode (contentNode (flowOf record) record.content identity)).draws = true :=
    Bool.false_ne_true
  unfold contentScript wordDraws
  rw [List.countP_cons_of_neg hnode, draws_wordsScript]

theorem sequence_contentScript :
    (nextAll g (m.contentScript g record identity)).sequence = sequenceAfter g.sequence (m.wordDraws record) := by
  rw [Operation.sequence_nextAll adds_contentScript, draws_contentScript]

/-- New elements come in with the activations that they are made with. -/
theorem clamped_of_mem_elementNodes {node : Node} (h : node ∈ m.elementNodes identity record) :
    node.clamped = node := by
  have hword : wordActivation.clamp = wordActivation := by decide
  have hattribute : attributeActivation.clamp = attributeActivation := by decide
  rw [Node.clamped_eq_self_iff]
  rcases List.mem_append.1 h with hcontent | hnode
  · rcases List.mem_cons.1 hcontent with rfl | hnode
    · exact Binary64.clamp_zero
    · obtain ⟨word, -, rfl⟩ := List.mem_map.1 hnode
      exact hword
  · obtain ⟨a, -, rfl⟩ := List.mem_map.1 hnode
    exact hattribute

theorem map_clamped_find?_elementNodes (p : Node → Bool) :
    ((m.elementNodes identity record).find? p).map Node.clamped =
      (m.elementNodes identity record).find? p := by
  cases hfound : (m.elementNodes identity record).find? p with
  | none => rfl
  | some node => rw [Option.map_some, clamped_of_mem_elementNodes (List.mem_of_find?_eq_some hfound)]

end Mapper

end ResonantGraph
