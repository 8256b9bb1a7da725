import ResonantGraph.Proofs.Hypergraph.Alike
import ResonantGraph.Proofs.Mapper.Slots
import ResonantGraph.Proofs.Substrate.Mirror

/-!
# Where the numbers begin does not matter

A mapper that goes on from another number of the sequence adds the same nodes and, numbers apart, the
same edges. Two mappers side by side, on graphs that are alike, ask for operations that are alike
(`Operation.Alike`), so the graphs stay alike from one operation to the next (`Hypergraph.Alike.nextAll`).
What is looked up on the way, such as the contents that a record is similar to, is the same on both sides,
and so is what is reported in the end.

The one thing that numbers could do is to get an edge refused, and on charted graphs they do not
(`Mapper.Charted.fresh`). `Mapper.Paired` puts it together: what a record makes of two paired graphs is
paired again (`Mapper.Paired.script`).
-/

namespace ResonantGraph

open Operation (nextAll)

/-! ### Operations that are alike -/

/-- Two operations that add the same, but for the number of an edge. -/
inductive Operation.Alike : Operation → Operation → Prop
  /-- No edge is added. -/
  | same (op : Operation) (adds : op.adds = true) (none : op.edge? = none) : Operation.Alike op op
  /-- An edge is added. -/
  | addEdge (edge edge' : Edge) (same : edge.unnumbered = edge'.unnumbered) :
      Operation.Alike (.addEdge edge) (.addEdge edge')

namespace Hypergraph.Alike

variable {g g' : Hypergraph} {op op' : Operation} {ops ops' : List Operation}

/-- What adds no edge keeps graphs alike. -/
theorem next_same (h : g.Alike g') (adds : op.adds = true) (hedge : op.edge? = none) :
    (op.next g).Alike (op.next g') := by
  cases op with
  | addNode node => exact h.addNode node
  | propagate source initial => exact h.propagate source initial
  | nextSequence => exact ⟨h.nodes, h.edges⟩
  | addEdge edge => cases hedge
  | _ => cases adds

/-- **Operations that are alike keep graphs alike**, if no edge is refused on either side. -/
theorem nextAll (h : g.Alike g') (hops : List.Forall₂ Operation.Alike ops ops')
    (fresh : Operation.Fresh g ops) (fresh' : Operation.Fresh g' ops') :
    (nextAll g ops).Alike (nextAll g' ops') := by
  -- over both lists at once; what the first operation adds is not in the way of the others
  induction hops generalizing g g' with
  | nil => exact h
  | @cons op op' ops ops' hop hrest ih =>
    rw [Operation.nextAll_cons, Operation.nextAll_cons]
    have split (g : Hypergraph) (op : Operation) (ops : List Operation) (adds : op.adds = true)
        (fresh : Operation.Fresh g (op :: ops)) :
        Operation.Fresh g [op] ∧ Operation.Fresh (op.next g) ops := by
      have hparts : Operation.Fresh g ([op] ++ ops) := fresh
      exact hparts.of_append (List.forall_mem_singleton.2 adds)
    cases hop with
    | same op adds hedge =>
      obtain ⟨-, hfresh⟩ := split g op ops adds fresh
      obtain ⟨-, hfresh'⟩ := split g' op ops' adds fresh'
      exact ih (h.next_same adds hedge) hfresh hfresh'
    | addEdge edge edge' same =>
      obtain ⟨hfirst, hfresh⟩ := split g (.addEdge edge) ops rfl fresh
      obtain ⟨hfirst', hfresh'⟩ := split g' (.addEdge edge') ops' rfl fresh'
      have hvacant := hfirst.vacant edge (List.mem_singleton.2 rfl)
      have hvacant' := hfirst'.vacant edge' (List.mem_singleton.2 rfl)
      exact ih (h.addEdge same hvacant hvacant') hfresh hfresh'

end Hypergraph.Alike

namespace Mapper

/-! ### Scripts that are alike -/

/-- A number, and the edge that it completes. -/
theorem alike_numbered {edge edge' : Edge} (h : edge.unnumbered = edge'.unnumbered) :
    List.Forall₂ Operation.Alike [.nextSequence, .addEdge edge] [.nextSequence, .addEdge edge'] :=
  .cons (.same _ rfl rfl) (.cons (.addEdge _ _ h) .nil)

/-- The number at the end of an identifier is all that is dropped. -/
theorem withoutNumber_numberedId (flow kind : String) (n : UInt64) :
    withoutNumber (numberedId flow kind n) = flow ++ "_" ++ kind ++ "_" := by
  have hname : (flow ++ "_" ++ kind ++ "_").toList = (flow.toList ++ '_' :: kind.toList) ++ ['_'] := by
    simp
  refine withoutNumber_append String.toList_append hname (by decide) fun d hd => ?_
  have hdigits : (toString n.toNat).toList = Nat.toDigits 10 n.toNat := Nat.toList_repr
  rw [hdigits] at hd
  exact Nat.isDigit_of_mem_toDigits (by decide) (by decide) hd

/-- Edges of a type that has numbers are the same but for them. -/
theorem unnumbered_congr {edge : Edge} {flow kind type : String} {n n' : UInt64}
    (htype : type ∈ numberedTypes) (hedge : edge.attributes.find? "type" = some type)
    (hid : edge.id = numberedId flow kind n) :
    edge.unnumbered = { edge with id := numberedId flow kind n' }.unnumbered := by
  have hnumbered : ∃ type ∈ numberedTypes, edge.attributes.find? "type" = some type :=
    ⟨type, htype, hedge⟩
  unfold Edge.unnumbered
  dsimp only
  rw [if_pos hnumbered, if_pos hnumbered, hid, withoutNumber_numberedId, withoutNumber_numberedId]

theorem alike_same {ops : List Operation} (adds : ∀ op ∈ ops, op.adds = true)
    (none : ∀ op ∈ ops, op.edge? = none) : List.Forall₂ Operation.Alike ops ops :=
  List.forall₂_same.2 fun op hop => .same op (adds op hop) (none op hop)

variable (flow : String) (n n' : UInt64)

theorem alike_wordsScript (words : List String) :
    List.Forall₂ Operation.Alike (wordsScript flow words n) (wordsScript flow words n') := by
  have hnodes : List.Forall₂ Operation.Alike (words.map fun word => .addNode (wordNode word))
      (words.map fun word => .addNode (wordNode word)) := by
    refine alike_same ?_ ?_ <;>
    · intro op hop
      obtain ⟨word, -, rfl⟩ := List.mem_map.1 hop
      rfl
  have hedge : (wordsEdge flow n words).unnumbered = (wordsEdge flow n' words).unnumbered :=
    unnumbered_congr (show "contains_words" ∈ numberedTypes by decide) (by rfl) rfl
  unfold wordsScript
  refine List.rel_append hnodes ?_
  split
  · exact .nil
  · exact alike_numbered hedge

theorem alike_attributesScript (attributes : List (String × String)) :
    List.Forall₂ Operation.Alike (attributesScript flow attributes n)
      (attributesScript flow attributes n') := by
  have heach : List.Forall₂ Operation.Alike (attributes.flatMap (attributeScript flow))
      (attributes.flatMap (attributeScript flow)) := by
    induction attributes with
    | nil => exact .nil
    | cons a rest ih => exact .cons (.same _ rfl rfl) (.cons (.addEdge _ _ rfl) ih)
  have hedge : (clusterEdge flow n (attributeIds flow attributes)).unnumbered =
      (clusterEdge flow n' (attributeIds flow attributes)).unnumbered :=
    unnumbered_congr (show "attribute_cluster" ∈ numberedTypes by decide) (by rfl) rfl
  unfold attributesScript
  refine List.rel_append heach ?_
  split
  · exact .nil
  · exact alike_numbered hedge

theorem alike_similarityScript (others : List NodeId) :
    List.Forall₂ Operation.Alike (similarityScript flow others n) (similarityScript flow others n') := by
  have hedge : (similarityEdge flow n others).unnumbered = (similarityEdge flow n' others).unnumbered :=
    unnumbered_congr (show "similarity" ∈ numberedTypes by decide) (by rfl) rfl
  unfold similarityScript
  split
  · exact .nil
  · exact alike_numbered hedge

variable {m : Mapper} {g g' : Hypergraph} {record : Record} {identity : Identity}

theorem alike_contentScript (g g' : Hypergraph) :
    List.Forall₂ Operation.Alike (m.contentScript g record identity)
      (m.contentScript g' record identity) := by
  unfold contentScript
  exact .cons (.same _ rfl rfl) (alike_wordsScript ..)

/-- The same attributes are new on both sides. -/
theorem alike_spreadScript (h : g.Alike g') :
    List.Forall₂ Operation.Alike (spreadScript g record) (spreadScript g' record) := by
  have hnew (attributes : List (String × String)) :
      newAttributes g' (flowOf record) attributes = newAttributes g (flowOf record) attributes := by
    unfold newAttributes
    rw [funext h.hasNode]
  unfold spreadScript
  rw [hnew]
  exact List.rel_append (alike_attributesScript ..) (.cons (.same _ rfl rfl) .nil)

theorem alike_elementsScript (h : g.Alike g')
    (fresh : Operation.Fresh g (m.elementsScript g record identity))
    (fresh' : Operation.Fresh g' (m.elementsScript g' record identity)) :
    (nextAll g (m.elementsScript g record identity)).Alike
      (nextAll g' (m.elementsScript g' record identity)) := by
  unfold elementsScript at fresh fresh' ⊢
  obtain ⟨hfirst, hrest⟩ := fresh.of_append adds_contentScript
  obtain ⟨hfirst', hrest'⟩ := fresh'.of_append adds_contentScript
  rw [Operation.nextAll_append, Operation.nextAll_append]
  have hcontents := h.nextAll (alike_contentScript g g') hfirst hfirst'
  exact hcontents.nextAll (alike_spreadScript hcontents) hrest hrest'

theorem similarTo_congr (h : g.Alike g') (flow : String) : m.similarTo g' flow = m.similarTo g flow := by
  unfold similarTo Hypergraph.nodesWithAttribute
  rw [h.nodes, funext h.connected]

/-- **Scripts on graphs that are alike** lead to graphs that are alike, and find the same similar
contents. -/
theorem alike_script (h : g.Alike g') (fresh : Operation.Fresh g (m.script g record identity))
    (fresh' : Operation.Fresh g' (m.script g' record identity)) :
    (nextAll g (m.script g record identity)).Alike (nextAll g' (m.script g' record identity)) ∧
      m.similarOf g' record identity = m.similarOf g record identity := by
  have hknown := h.hasNode (contentId (flowOf record))
  cases known : g.hasNode (contentId (flowOf record)) with
  | true =>
    rw [known] at hknown
    rw [script_known known, script_known hknown, similarOf_known known, similarOf_known hknown]
    exact ⟨h.propagate _ _, rfl⟩
  | false =>
    rw [known] at hknown
    rw [script_new known] at fresh ⊢
    rw [script_new hknown] at fresh' ⊢
    obtain ⟨helements, hlast⟩ := fresh.of_append adds_elementsScript
    obtain ⟨helements', hlast'⟩ := fresh'.of_append adds_elementsScript
    have hgraphs := alike_elementsScript h helements helements'
    have hsimilar : m.similarOf g' record identity = m.similarOf g record identity := by
      rw [similarOf_new known, similarOf_new hknown, similarTo_congr hgraphs]
    refine ⟨?_, hsimilar⟩
    rw [Operation.nextAll_append, Operation.nextAll_append]
    refine hgraphs.nextAll ?_ hlast hlast'
    rw [hsimilar]
    exact alike_similarityScript ..

/-! ### Mappers side by side -/

/-- Two graphs that are alike, well formed and charted. -/
structure Paired (length : Nat) (g g' : Hypergraph) : Prop where
  /-- They are alike. -/
  alike : g.Alike g'
  /-- The first is well formed. -/
  wellFormed : g.WellFormed
  /-- The second is well formed. -/
  wellFormed' : g'.WellFormed
  /-- The first is charted. -/
  charted : Charted length g
  /-- The second is charted. -/
  charted' : Charted length g'

theorem wellFormed_nextAll (h : g.WellFormed) (ops : List Operation) (adds : ∀ op ∈ ops, op.adds = true) :
    (nextAll g ops).WellFormed := by
  induction ops generalizing g with
  | nil => exact h
  | cons op ops ih =>
    rw [List.forall_mem_cons] at adds
    rw [Operation.nextAll_cons, Operation.next_of_mirroring g (Operation.mirroring_of_adds adds.1)]
    exact ih (Operation.wellFormed_after h op) adds.2

/-- A record keeps graphs paired, and finds as many similar contents in one as in the other. -/
theorem Paired.script (h : Paired (flowOf record).length g g') :
    Paired (flowOf record).length (nextAll g (m.script g record identity))
        (nextAll g' (m.script g' record identity)) ∧
      m.similarOf g' record identity = m.similarOf g record identity := by
  have fresh : Operation.Fresh g (m.script g record identity) := h.charted.fresh
  obtain ⟨alike, hsimilar⟩ := alike_script h.alike fresh h.charted'.fresh
  exact ⟨{
    alike
    wellFormed := wellFormed_nextAll h.wellFormed _ adds_script
    wellFormed' := wellFormed_nextAll h.wellFormed' _ adds_script
    charted := h.charted.nextAll_script
    charted' := h.charted'.nextAll_script }, hsimilar⟩

/-- Adding a node keeps graphs paired. -/
theorem Paired.addNode {length : Nat} (h : Paired length g g') (node : Node) :
    Paired length (Operation.next g (.addNode node)) (Operation.next g' (.addNode node)) where
  alike := h.alike.addNode node
  wellFormed := h.wellFormed.applyAll [.addNode node]
  wellFormed' := h.wellFormed'.applyAll [.addNode node]
  charted := h.charted.next rfl rfl
  charted' := h.charted'.next rfl rfl

/-- Where the content of a flow is, there is a report. -/
theorem report_of_hasNode {flow : String} (content : g.hasNode (contentId flow) = true) (similar : Nat) :
    m.report g flow similar =
      let focus := g.nodeMetrics (contentId flow)
      .ok ⟨m.route focus.clusteringCoefficient focus.connections,
        metadata flow (g.metrics (some (contentId flow))) focus similar⟩ := by
  have hfocus : (g.metrics (some (contentId flow))).focus = some (g.nodeMetrics (contentId flow)) := by
    unfold Hypergraph.metrics
    dsimp only
    rw [Option.filter_some, if_pos content]
    rfl
  unfold Mapper.report
  dsimp only
  rw [hfocus]

/-- **The report of a record is the same** on graphs that are paired, and there is one where the content
of the flow is. -/
theorem Paired.report {length : Nat} (h : Paired length g g') {flow : String}
    (content : g.hasNode (contentId flow) = true) (similar : Nat) :
    ∃ outcome, m.report g flow similar = .ok outcome ∧ m.report g' flow similar = .ok outcome := by
  have content' : g'.hasNode (contentId flow) = true := by rw [h.alike.hasNode, content]
  refine ⟨_, report_of_hasNode content similar, ?_⟩
  have hmetadata (focus : NodeMetrics) :
      metadata flow (g'.metrics (some (contentId flow))) focus similar =
        metadata flow (g.metrics (some (contentId flow))) focus similar := by
    unfold metadata Hypergraph.metrics
    dsimp only
    rw [h.alike.nodes, h.alike.size_edges, h.alike.density]
  rw [report_of_hasNode content' similar, h.alike.nodeMetrics h.wellFormed h.wellFormed']
  dsimp only
  rw [hmetadata]

end Mapper

end ResonantGraph
