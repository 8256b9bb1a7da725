import ResonantGraph.Proofs.Mapper.Script
import Mathlib.Data.List.Nodup

/-!
# How the edges of a mapper are named

Every edge that a mapper adds belongs to a flow and has a *slot* there: the edge to the words, one edge
for each attribute, the edge among the attributes, the edge to similar contents. As long as all flows
have names of one length, the identifier of an edge tells the flow and the slot, whatever number it ends
in (`Slot.edgeId_injective`).

A script fills no slot twice (`Mapper.fills_script`), and it fills slots of its flow only if there was no
content of the flow before. So on a graph on which every edge has a slot and every flow with an edge has
its content (`Charted`), no edge of a script is ever refused because its identifier is taken
(`Charted.fresh`), and the graph stays charted (`Charted.nextAll_script`). This is what makes the numbers
harmless: it does not matter where they begin.
-/

namespace ResonantGraph

open Operation (nextAll)

/-! ### The edges of operations -/

namespace Operation

/-- The edge that an operation adds. -/
def edge? : Operation → Option Edge
  | .addEdge edge => some edge
  | _ => none

/-- The edges that operations add. -/
def edgesOf (ops : List Operation) : List Edge := ops.filterMap edge?

theorem edgesOf_append (ops ops' : List Operation) : edgesOf (ops ++ ops') = edgesOf ops ++ edgesOf ops' :=
  List.filterMap_append

/-- The edges that operations add have identifiers of their own. -/
structure Fresh (g : Hypergraph) (ops : List Operation) : Prop where
  /-- No two share one. -/
  distinct : ((edgesOf ops).map (·.id)).Nodup
  /-- None is taken. -/
  vacant : ∀ edge ∈ edgesOf ops, g.hasEdge edge.id = false

variable {g : Hypergraph} {op : Operation} {ops ops' : List Operation}

theorem hasEdge_next_addEdge {edge : Edge} {id : EdgeId}
    (hid : (next g (.addEdge edge)).hasEdge id = true) : edge.id = id ∨ g.hasEdge id = true := by
  have hfind : (next g (.addEdge edge)).edges.find? id =
      (g.edges.find? id).or
        (if edge.id = id ∧ g.missingMember? edge = none then some edge else none) :=
    Hypergraph.find?_edges_addEdge g edge id
  unfold Hypergraph.hasEdge Table.contains at hid ⊢
  rw [hfind, Option.isSome_or, Bool.or_eq_true_iff] at hid
  rcases hid with hold | hnew
  · exact .inr hold
  · split at hnew
    · next heq => exact .inl heq.1
    · cases hnew

theorem edges_next_of_edge?_eq_none (h : op.adds = true) (hedge : op.edge? = none) :
    (op.next g).edges = g.edges := by
  cases op with
  | addNode node => exact g.edges_addNode node
  | propagate source initial => exact g.edges_propagate source initial
  | nextSequence => rfl
  | addEdge edge => cases hedge
  | _ => cases h

/-- An edge that is there after operations was there before, or one of them has added it. -/
theorem hasEdge_nextAll (h : ∀ op ∈ ops, op.adds = true) {id : EdgeId}
    (hid : (nextAll g ops).hasEdge id = true) :
    g.hasEdge id = true ∨ ∃ edge ∈ edgesOf ops, edge.id = id := by
  induction ops generalizing g with
  | nil => exact .inl hid
  | cons op ops ih =>
    rw [List.forall_mem_cons] at h
    unfold edgesOf
    rw [List.filterMap_cons]
    rcases ih h.2 hid with hnext | ⟨edge, hedge, heq⟩
    · -- it was there after the first operation
      cases hop : op.edge? with
      | none =>
        have hedges := edges_next_of_edge?_eq_none (g := g) h.1 hop
        unfold Hypergraph.hasEdge at hnext ⊢
        rw [hedges] at hnext
        exact .inl hnext
      | some edge =>
        have haddEdge : op = .addEdge edge := by
          cases op <;> cases hop
          rfl
        subst haddEdge
        rcases hasEdge_next_addEdge hnext with heq | hold
        · exact .inr ⟨edge, List.mem_cons_self, heq⟩
        · exact .inl hold
    · refine .inr ⟨edge, ?_, heq⟩
      cases op.edge? with
      | none => exact hedge
      | some _ => exact List.mem_cons_of_mem _ hedge

/-- Operations in two parts: what the first adds is not in the way of the second. -/
theorem Fresh.of_append (h : Fresh g (ops ++ ops')) (adds : ∀ op ∈ ops, op.adds = true) :
    Fresh g ops ∧ Fresh (nextAll g ops) ops' := by
  obtain ⟨distinct, vacant⟩ := h
  rw [edgesOf_append, List.map_append, List.nodup_append] at distinct
  rw [edgesOf_append, List.forall_mem_append] at vacant
  obtain ⟨hfirst, hsecond, hbetween⟩ := distinct
  refine ⟨⟨hfirst, vacant.1⟩, hsecond, fun edge hedge => ?_⟩
  rw [← Bool.not_eq_true]
  intro htaken
  rcases hasEdge_nextAll adds htaken with hold | ⟨other, hother, heq⟩
  · rw [vacant.2 edge hedge] at hold
    cases hold
  · exact hbetween _ (List.mem_map_of_mem hother) _ (List.mem_map_of_mem hedge) heq

end Operation

/-! ### Slots -/

/-- What an edge of a flow is for. -/
inductive Slot
  /-- It joins the content to its words. -/
  | words
  /-- It joins the content to an attribute. -/
  | ofAttribute (name : String)
  /-- It joins all attributes. -/
  | cluster
  /-- It joins the content to similar ones. -/
  | similarity

namespace Slot

open Mapper (numberedId contentId)

/-- The identifier of the edge in a slot of a flow; a number takes part in all but those of
attributes. -/
def edgeId (flow : String) (n : UInt64) : Slot → EdgeId
  | words => numberedId flow "content_edge" n
  | ofAttribute name => flow ++ "_attr_edge_" ++ name
  | cluster => numberedId flow "attribute_cluster" n
  | similarity => numberedId flow "similarity" n

/-- What follows the name of the flow in an identifier. -/
def start : Slot → String
  | words => "_content_edge_"
  | ofAttribute _ => "_attr_edge_"
  | cluster => "_attribute_cluster_"
  | similarity => "_similarity_"

/-- What an identifier ends in: the name of an attribute, or a number. -/
def last (n : UInt64) : Slot → String
  | ofAttribute name => name
  | _ => toString n.toNat

theorem toList_numberedId (flow kind : String) (n : UInt64) :
    (numberedId flow kind n).toList =
      flow.toList ++ (("_" ++ kind ++ "_").toList ++ (toString n.toNat).toList) := by
  unfold numberedId
  simp

theorem toList_edgeId (flow : String) (n : UInt64) (slot : Slot) :
    (slot.edgeId flow n).toList = flow.toList ++ (slot.start.toList ++ (slot.last n).toList) := by
  cases slot with
  | words => exact toList_numberedId flow "content_edge" n
  | cluster => exact toList_numberedId flow "attribute_cluster" n
  | similarity => exact toList_numberedId flow "similarity" n
  | ofAttribute name =>
    change (flow ++ "_attr_edge_" ++ name).toList = _
    rw [String.toList_append, String.toList_append, List.append_assoc]
    rfl

/-- The four kinds of slots begin differently. -/
theorem start_eq_of_append {slot slot' : Slot} {x y : List Char}
    (h : slot.start.toList ++ x = slot'.start.toList ++ y) : slot.start = slot'.start := by
  cases slot <;> cases slot' <;> first | rfl | simp [start] at h

/-- **An identifier tells flow and slot**, among flows with names of one length. -/
theorem edgeId_injective {flow flow' : String} {n n' : UInt64} {slot slot' : Slot}
    (hlength : flow.length = flow'.length) (h : slot.edgeId flow n = slot'.edgeId flow' n') :
    flow = flow' ∧ slot = slot' := by
  have hlists := congrArg String.toList h
  rw [toList_edgeId, toList_edgeId] at hlists
  have hlengths : flow.toList.length = flow'.toList.length := by
    rw [String.length_toList, String.length_toList, hlength]
  obtain ⟨hflow, hending⟩ := List.append_inj hlists hlengths
  refine ⟨String.toList_injective hflow, ?_⟩
  have hstart := start_eq_of_append hending
  rw [hstart] at hending
  have hlast := String.toList_injective (List.append_cancel_left hending)
  -- slots that begin alike are of one kind, and attributes have their names at the end
  cases slot <;> cases slot' <;> first | rfl | exact congrArg ofAttribute hlast | simp [start] at hstart

end Slot

namespace Mapper

/-! ### The slots that scripts fill -/

/-- The edges that operations add are in given slots of a flow. -/
def Fills (flow : String) (ops : List Operation) (slots : List Slot) : Prop :=
  List.Forall₂ (fun id (slot : Slot) => ∃ n, id = slot.edgeId flow n)
    ((Operation.edgesOf ops).map (·.id)) slots

variable {flow : String} {ops ops' : List Operation} {slots slots' : List Slot}

theorem Fills.append (h : Fills flow ops slots) (h' : Fills flow ops' slots') :
    Fills flow (ops ++ ops') (slots ++ slots') := by
  unfold Fills
  rw [Operation.edgesOf_append, List.map_append]
  exact List.rel_append h h'

/-- What is related to each entry of one list is related to some entry of the other. -/
theorem exists_mem_of_forall₂ {α β : Type} {R : α → β → Prop} {l : List α} {m : List β}
    (h : List.Forall₂ R l m) : ∀ a ∈ l, ∃ b ∈ m, R a b := by
  induction h with
  | nil => exact nofun
  | @cons a b l m hab _ ih =>
    rw [List.forall_mem_cons]
    refine ⟨⟨b, List.mem_cons_self, hab⟩, fun c hc => ?_⟩
    obtain ⟨d, hd, hcd⟩ := ih c hc
    exact ⟨d, List.mem_cons_of_mem _ hd, hcd⟩

theorem Fills.exists_slot (h : Fills flow ops slots) {edge : Edge} (hedge : edge ∈ Operation.edgesOf ops) :
    ∃ slot ∈ slots, ∃ n, edge.id = slot.edgeId flow n :=
  exists_mem_of_forall₂ h edge.id (List.mem_map_of_mem hedge)

/-- Edges in different slots have different identifiers. -/
theorem Fills.distinct (h : Fills flow ops slots) (hslots : slots.Nodup) :
    ((Operation.edgesOf ops).map (·.id)).Nodup := by
  unfold Fills at h
  generalize (Operation.edgesOf ops).map (·.id) = ids at h
  induction h with
  | nil => exact List.nodup_nil
  | @cons id slot ids slots hid hrest ih =>
    obtain ⟨hslot, hslots⟩ := List.nodup_cons.1 hslots
    refine List.nodup_cons.2 ⟨fun hmem => ?_, ih hslots⟩
    -- the identifier would tell a slot among the others
    obtain ⟨n, rfl⟩ := hid
    obtain ⟨slot', hslot', n', heq⟩ := exists_mem_of_forall₂ hrest _ hmem
    have hsame : slot = slot' := (Slot.edgeId_injective rfl heq).2
    rw [hsame] at hslot
    exact hslot hslot'

theorem fills_nil : Fills flow [] [] := .nil

/-- Of a number and an edge that it completes, the edge fills a slot. -/
theorem fills_numbered {edge : Edge} {slot : Slot} {n : UInt64} (h : edge.id = slot.edgeId flow n) :
    Fills flow [.nextSequence, .addEdge edge] [slot] := .cons ⟨n, h⟩ .nil

/-- Adding a node or spreading activation fills no slot. -/
theorem Fills.cons {op : Operation} (h : Fills flow ops slots) (hop : op.edge? = none) :
    Fills flow (op :: ops) slots := by
  unfold Fills Operation.edgesOf
  rw [List.filterMap_cons_none hop]
  exact h

theorem edgesOf_addNodes (words : List String) :
    Operation.edgesOf (words.map fun word => .addNode (wordNode word)) = [] := by
  unfold Operation.edgesOf
  rw [List.filterMap_map]
  exact List.filterMap_eq_nil_iff.2 fun _ _ => rfl

theorem fills_wordsScript (words : List String) (n : UInt64) :
    Fills flow (wordsScript flow words n) (if words = [] then [] else [.words]) := by
  have hnodes : Fills flow (words.map fun word => .addNode (wordNode word)) [] := by
    unfold Fills
    rw [edgesOf_addNodes]
    exact .nil
  have hedge : Fills flow (if words = [] then [] else [.nextSequence, .addEdge (wordsEdge flow n words)])
      (if words = [] then [] else [.words]) := by
    split
    · exact fills_nil
    · exact fills_numbered (n := n) rfl
  exact hnodes.append hedge

theorem fills_attributes (attributes : List (String × String)) :
    Fills flow (attributes.flatMap (attributeScript flow))
      (attributes.map fun a => .ofAttribute a.1) := by
  induction attributes with
  | nil => exact fills_nil
  | cons a rest ih => exact List.Forall₂.cons ⟨0, rfl⟩ ih

theorem fills_attributesScript (attributes : List (String × String)) (n : UInt64) :
    Fills flow (attributesScript flow attributes n)
      ((attributes.map fun a => .ofAttribute a.1) ++ if attributes.length < 2 then [] else [.cluster]) := by
  refine (fills_attributes attributes).append ?_
  split
  · exact fills_nil
  · exact fills_numbered (n := n) rfl

theorem fills_similarityScript (others : List NodeId) (n : UInt64) :
    Fills flow (similarityScript flow others n) (if others = [] then [] else [.similarity]) := by
  unfold similarityScript
  split
  · exact fills_nil
  · exact fills_numbered (n := n) rfl

/-- Slots of attributes are not among the others. -/
theorem nodup_slots {named : List Slot} (hnamed : named.Nodup)
    (h : ∀ slot ∈ named, ∃ name, slot = .ofAttribute name) :
    (([Slot.words] ++ ((named ++ [Slot.cluster]) ++ [])) ++ [Slot.similarity]).Nodup := by
  have hother (slot : Slot) (hslot : slot ∈ named) :
      slot ≠ .words ∧ slot ≠ .cluster ∧ slot ≠ .similarity := by
    obtain ⟨name, rfl⟩ := h slot hslot
    exact ⟨nofun, nofun, nofun⟩
  simp only [List.append_nil, List.nodup_append, List.nodup_cons, List.mem_append, List.mem_singleton]
  grind

/-- The slots that a script fills, of which it fills none twice. -/
theorem fills_script (m : Mapper) (g : Hypergraph) (record : Record) (identity : Identity) :
    ∃ slots : List Slot, slots.Nodup ∧ Fills (flowOf record) (m.script g record identity) slots := by
  cases known : g.hasNode (contentId (flowOf record)) with
  | true =>
    rw [script_known known]
    exact ⟨[], List.nodup_nil, fills_nil⟩
  | false =>
  rw [script_new known]
  let g' := nextAll g (m.contentScript g record identity)
  let new := newAttributes g' (flowOf record) (mappedAttributes record)
  have hcontent : Fills (flowOf record) (m.contentScript g record identity)
      (if m.wordsOf record = [] then [] else [.words]) := by
    unfold contentScript
    exact (fills_wordsScript _ g.sequence).cons rfl
  have hspread : Fills (flowOf record) [.propagate (contentId (flowOf record)) mappedActivation] [] :=
    fills_nil
  have helements := hcontent.append ((fills_attributesScript new g'.sequence).append hspread)
  refine ⟨_, ?_, helements.append (fills_similarityScript _ _)⟩
  -- attributes have names of their own, and the other slots occur once at most
  let named : List Slot := new.map fun a => .ofAttribute a.1
  have hnamed : named.Nodup := by
    have hnames : (new.map Prod.fst).Nodup :=
      (distinct_mappedAttributes record).sublist (List.filter_sublist.map _)
    have hslots : (new.map Prod.fst).map Slot.ofAttribute = named := List.map_map
    rw [← hslots]
    exact List.Nodup.map (fun _ _ => Slot.ofAttribute.inj) hnames
  have hall := nodup_slots hnamed fun slot hslot => by
    obtain ⟨a, -, rfl⟩ := List.mem_map.1 hslot
    exact ⟨a.1, rfl⟩
  -- a slot is left out where there is nothing to join
  have some_or_none (p : Prop) [Decidable p] (slot : Slot) :
      (if p then [] else [slot]).Sublist [slot] := by
    split
    · exact List.nil_sublist _
    · exact .refl _
  have hattributes : (named ++ if new.length < 2 then [] else [Slot.cluster]).Sublist
      (named ++ [Slot.cluster]) := .append (.refl _) (some_or_none _ _)
  exact hall.sublist (.append (.append (some_or_none _ _) (.append hattributes (.refl _)))
    (some_or_none _ _))

/-! ### Charted graphs -/

/-- Every edge has a slot of a flow whose content is there, and these flows have names of a given
length. -/
def Charted (length : Nat) (g : Hypergraph) : Prop :=
  ∀ id, g.hasEdge id = true → ∃ (flow : String) (slot : Slot) (n : UInt64),
    flow.length = length ∧ id = slot.edgeId flow n ∧ g.hasNode (contentId flow) = true

variable {length : Nat} {g : Hypergraph}

theorem charted_empty : Charted length ∅ := nofun

/-- Where there is no content of a flow, all its slots are vacant. -/
theorem Charted.vacant (h : Charted flow.length g) (new : g.hasNode (contentId flow) = false)
    (slot : Slot) (n : UInt64) : g.hasEdge (slot.edgeId flow n) = false := by
  rw [← Bool.not_eq_true]
  intro htaken
  obtain ⟨flow', slot', n', hlength, heq, hcontent⟩ := h _ htaken
  have hflow : flow = flow' := (Slot.edgeId_injective hlength.symm heq).1
  rw [← hflow, new] at hcontent
  cases hcontent

/-- What adds no edge keeps a graph charted. -/
theorem Charted.next {op : Operation} (h : Charted length g) (adds : op.adds = true)
    (hedge : op.edge? = none) : Charted length (op.next g) := by
  intro id hid
  unfold Hypergraph.hasEdge at hid
  rw [Operation.edges_next_of_edge?_eq_none adds hedge] at hid
  obtain ⟨flow, slot, n, hlength, heq, hcontent⟩ := h id hid
  exact ⟨flow, slot, n, hlength, heq, Operation.hasNode_next adds hcontent⟩

section Script

variable {m : Mapper} {record : Record} {identity : Identity}

/-- **No edge of a script is refused** on a charted graph. -/
theorem Charted.fresh (h : Charted (flowOf record).length g) :
    Operation.Fresh g (m.script g record identity) := by
  obtain ⟨slots, hslots, hfills⟩ := fills_script m g record identity
  refine ⟨hfills.distinct hslots, fun edge hedge => ?_⟩
  obtain ⟨slot, -, n, hid⟩ := hfills.exists_slot hedge
  cases hcontent : g.hasNode (contentId (flowOf record)) with
  | true =>
    -- a known flow gets no edges
    rw [script_known hcontent] at hedge
    cases hedge
  | false =>
    rw [hid]
    exact h.vacant hcontent slot n

theorem hasNode_script : (nextAll g (m.script g record identity)).hasNode (contentId (flowOf record)) = true := by
  cases known : g.hasNode (contentId (flowOf record)) with
  | true => exact Operation.hasNode_nextAll adds_script known
  | false =>
    rw [script_new known, Operation.nextAll_append]
    exact Operation.hasNode_nextAll adds_similarityScript hasNode_elementsScript

/-- A script keeps a graph charted. -/
theorem Charted.nextAll_script (h : Charted (flowOf record).length g) :
    Charted (flowOf record).length (nextAll g (m.script g record identity)) := by
  intro id hid
  obtain ⟨slots, -, hfills⟩ := fills_script m g record identity
  rcases Operation.hasEdge_nextAll adds_script hid with hold | ⟨edge, hedge, rfl⟩
  · obtain ⟨flow, slot, n, hlength, heq, hcontent⟩ := h id hold
    exact ⟨flow, slot, n, hlength, heq, Operation.hasNode_nextAll adds_script hcontent⟩
  · obtain ⟨slot, -, n, hslot⟩ := hfills.exists_slot hedge
    exact ⟨flowOf record, slot, n, rfl, hslot, hasNode_script⟩

end Script

end Mapper

end ResonantGraph
