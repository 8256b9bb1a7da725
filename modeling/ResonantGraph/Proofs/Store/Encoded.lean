import ResonantGraph.Store.Blobs
import ResonantGraph.Store.Tables
import ResonantGraph.Proofs.Codec.RoundTrip
import ResonantGraph.Proofs.Substrate.Simulation

/-!
# Bytes in place of elements

A store of bytes answers like a store of tables: what it keeps under a name is the encoding of what
the tables hold under that name (`Store.Blobs.simulation`). Encodings read back, so an element that is
loaded is the one that was saved, bit for bit, as long as what is saved fits the wire format.
-/

namespace ResonantGraph

namespace Table

variable {α β : Type}

theorem keys_mapValues (t : Table α) (f : String → α → β) : (t.mapValues f).keys = t.keys := by
  unfold keys mapValues
  rw [List.map_map]
  rfl

theorem contains_mapValues (t : Table α) (f : String → α → β) (name : String) :
    (t.mapValues f).contains name = t.contains name := by
  unfold contains
  rw [find?_mapValues, Option.isSome_map]

theorem mapValues_insert (t : Table α) (f : α → β) (name : String) (value : α) :
    (t.insert name value).mapValues (fun _ => f) =
      (t.mapValues fun _ => f).insert name (f value) := by
  refine ext_find? fun key => ?_
  rw [find?_mapValues, find?_insert, find?_insert, find?_mapValues]
  split <;> rfl

theorem mapValues_erase (t : Table α) (f : α → β) (name : String) :
    (t.erase name).mapValues (fun _ => f) = (t.mapValues fun _ => f).erase name := by
  refine ext_find? fun key => ?_
  rw [find?_mapValues, find?_erase, find?_erase, find?_mapValues]
  split <;> rfl

end Table

namespace Store.Blobs

/-- The bytes of what tables hold, under the same names. -/
def ofTables (t : Tables) : Blobs where
  nodes := t.nodes.mapValues fun _ => Codec.node.write
  edges := t.edges.mapValues fun _ => Codec.edge.write

/-- A store of bytes keeps the encoding of tables whose elements fit. -/
structure Encodes (s : Blobs) (t : Tables) : Prop where
  /-- It keeps nothing else. -/
  eq : s = ofTables t
  /-- The nodes fit. -/
  nodes : ∀ key node, t.nodes.find? key = some node → node.Fits
  /-- The edges fit. -/
  edges : ∀ key edge, t.edges.find? key = some edge → edge.Fits

theorem encodes_empty : Encodes {} {} where
  eq := rfl
  nodes := fun _ _ h => by cases h
  edges := fun _ _ h => by cases h

/-- Reading an encoded element gives the element. -/
theorem readUnder_mapValues {α : Type} {codec : Codec α} {t : Table α} {fits : α → Prop}
    (readsBack : ∀ v, fits v → codec.ReadsBack v)
    (h : ∀ key v, t.find? key = some v → fits v) (name : String) :
    readUnder codec (t.mapValues fun _ => codec.write) name = .ok (t.find? name) := by
  unfold readUnder
  rw [Table.find?_mapValues]
  cases hfind : t.find? name with
  | none => rfl
  | some v =>
    -- nothing follows the element in its bytes
    have hread : codec.read (codec.write v) = .ok (v, []) := by
      have hrest := readsBack v (h name v hfind) []
      rwa [List.append_nil] at hrest
    rw [Option.map_some]
    dsimp only
    rw [hread]

/-- What fits stays so when an entry that fits comes in. -/
theorem forall_find?_insert {α : Type} {t : Table α} {fits : α → Prop}
    (h : ∀ key v, t.find? key = some v → fits v) {value : α} (hvalue : fits value) (name : String) :
    ∀ key v, (t.insert name value).find? key = some v → fits v := by
  intro key v hv
  rw [Table.find?_insert] at hv
  split at hv
  · cases hv; exact hvalue
  · exact h key v hv

/-- What fits stays so when an entry goes. -/
theorem forall_find?_erase {α : Type} {t : Table α} {fits : α → Prop}
    (h : ∀ key v, t.find? key = some v → fits v) (name : String) :
    ∀ key v, (t.erase name).find? key = some v → fits v := by
  intro key v hv
  rw [Table.find?_erase] at hv
  split at hv
  · cases hv
  · exact h key v hv

/-- **Bytes answer like elements.** -/
theorem simulation : Simulation Encodes Node.Fits Edge.Fits where
  saveNode node hnode := by
    rintro _ t ⟨rfl, hnodes, hedges⟩
    refine ⟨rfl, ?_, forall_find?_insert hnodes hnode _, hedges⟩
    change { ofTables t with
      nodes := (ofTables t).nodes.insert node.id (Codec.node.write node) } = _
    unfold ofTables
    rw [← Table.mapValues_insert]
    rfl
  saveEdge edge hedge := by
    rintro _ t ⟨rfl, hnodes, hedges⟩
    refine ⟨rfl, ?_, hnodes, forall_find?_insert hedges hedge _⟩
    change { ofTables t with
      edges := (ofTables t).edges.insert edge.id (Codec.edge.write edge) } = _
    unfold ofTables
    rw [← Table.mapValues_insert]
    rfl
  loadNode id := by
    rintro _ t ⟨rfl, hnodes, hedges⟩
    exact ⟨readUnder_mapValues (fun _ => Codec.readsBack_node) hnodes id, rfl, hnodes, hedges⟩
  loadEdge id := by
    rintro _ t ⟨rfl, hnodes, hedges⟩
    exact ⟨readUnder_mapValues (fun _ => Codec.readsBack_edge) hedges id, rfl, hnodes, hedges⟩
  removeNode id := by
    rintro _ t ⟨rfl, hnodes, hedges⟩
    refine ⟨congrArg Except.ok (Table.contains_mapValues ..), ?_, forall_find?_erase hnodes id,
      hedges⟩
    change { ofTables t with nodes := (ofTables t).nodes.erase id } = _
    unfold ofTables
    rw [← Table.mapValues_erase]
    rfl
  removeEdge id := by
    rintro _ t ⟨rfl, hnodes, hedges⟩
    refine ⟨congrArg Except.ok (Table.contains_mapValues ..), ?_, hnodes,
      forall_find?_erase hedges id⟩
    change { ofTables t with edges := (ofTables t).edges.erase id } = _
    unfold ofTables
    rw [← Table.mapValues_erase]
    rfl
  listNodes := by
    rintro _ t ⟨rfl, hnodes, hedges⟩
    exact ⟨congrArg Except.ok (Table.keys_mapValues ..), rfl, hnodes, hedges⟩
  listEdges := by
    rintro _ t ⟨rfl, hnodes, hedges⟩
    exact ⟨congrArg Except.ok (Table.keys_mapValues ..), rfl, hnodes, hedges⟩
  loadedNode := by
    rintro _ t id node ⟨-, hnodes, -⟩ hload
    exact hnodes id node (Except.ok.inj hload)
  loadedEdge := by
    rintro _ t id edge ⟨-, -, hedges⟩ hload
    exact hedges id edge (Except.ok.inj hload)
  activated node level hnode := hnode.setActivation level.clamp

end Store.Blobs

end ResonantGraph
