import ResonantGraph.Proofs.Codec.Laws
import ResonantGraph.Proofs.Substrate.Reached
import ResonantGraph.Proofs.Substrate.Restored

/-!
# Stores of bytes, opened again

A store of bytes does not fail but where it holds something that cannot be read, and such a load is passed
over. So what a load of one gives can be said in full: the largest consistent part of what can be read
(`Substrate.load_blobs`), and where the store holds a well-formed graph, that graph
(`Substrate.load_blobs_of_held`). A restore never fails at all (`Substrate.restore_blobs`).

A store that is one of two kinds behaves like the store that it is (`Store.simulation_inr`), and a
substrate over it like one over that store.
-/

namespace ResonantGraph

open Store (Blobs Tables)

namespace Codec

variable {α : Type} {c : Codec α}

/-- A value in a table takes part of the bytes of the table. -/
theorem length_write_le_table {t : Table α} {key : String} {v : α} (h : t.find? key = some v) :
    (c.write v).length ≤ ((table c).write t).length := by
  have hentry : (key, v) ∈ t.entries := Table.mem_entries_iff.2 h
  have hpart := length_write_le_flatMap (c := text.pair c) hentry
  have hpair : ((text.pair c).write (key, v)).length =
      (text.write key).length + (c.write v).length := List.length_append
  change _ ≤ ((list (text.pair c)).write t.entries).length
  rw [length_list]
  omega

/-- What is in a graph reads back if a word can count the bytes of the graph. -/
theorem every_readsBack {g : Hypergraph} (h : (graph.write g).length < UInt64.size) :
    g.Every (fun _ => node.ReadsBack) fun _ => edge.ReadsBack := by
  have hgraph : (graph.write g).length = ((table node).write g.nodes).length +
      (((table edge).write g.edges).length + (word.write g.sequence).length) := by
    change ((table node).write g.nodes ++ ((table edge).write g.edges ++ word.write g.sequence)).length
      = _
    rw [List.length_append, List.length_append]
  refine ⟨fun key v hv => lawful_node.readsBack v ?_, fun key v hv => lawful_edge.readsBack v ?_⟩
  · have hle := length_write_le_table (c := node) hv
    omega
  · have hle := length_write_le_table (c := edge) hv
    omega

end Codec

/-! ### Bytes -/

namespace Store

/-- Calls that cannot fail do not. -/
theorem attemptAll_of_succeeds {σ α : Type} {calls : List (Call σ α)}
    (h : ∀ call ∈ calls, ∀ s, succeeded (call s).1 = true) (s : σ) :
    (attemptAll calls s).1 = true := by
  induction calls generalizing s with
  | nil => rfl
  | cons call calls ih =>
    obtain ⟨hcall, hcalls⟩ := List.forall_mem_cons.1 h
    change (succeeded (call s).1 && (attemptAll calls (call s).2).1) = true
    rw [hcall, ih hcalls]
    rfl

namespace Blobs

/-- The elements of a table that can be read, in the order of their names. -/
def readable {α : Type} (t : Table (Option α)) : List α :=
  t.keys.filterMap fun id => (t.find? id).join

/-- What cannot be read is passed over like what is not there. -/
theorem join_find?_decoded {α : Type} (codec : Codec α) (t : Table (List UInt8)) (name : String) :
    ((t.mapValues fun _ => codec.decode?).find? name).join =
      match readUnder codec t name with
      | .ok found => found
      | .error _ => none := by
  rw [Table.find?_mapValues]
  unfold readUnder Codec.decode?
  cases t.find? name with
  | none => rfl
  | some blob =>
    rw [Option.map_some]
    dsimp only
    rcases codec.read blob with _ | ⟨v, rest⟩ <;> rfl

theorem loadEach_eq {α : Type} {codec : Codec α} {call : String → Call Blobs (Option α)}
    {table : Blobs → Table (List UInt8)}
    (hcall : ∀ id s, call id s = (readUnder codec (table s) id, s)) (ids : List String) (s : Blobs) :
    loadEach call ids s =
      (ids.filterMap fun id => (((table s).mapValues fun _ => codec.decode?).find? id).join, s) := by
  induction ids with
  | nil => rfl
  | cons id ids ih =>
    rw [loadEach, hcall]
    dsimp only
    rw [ih, List.filterMap_cons, join_find?_decoded]
    rcases readUnder codec (table s) id with _ | _ | v <;> rfl

end Blobs

end Store

namespace Substrate

/-- A load from a store of bytes gives the largest consistent part of what can be read. -/
theorem load_blobs (s : Substrate Blobs) :
    ∃ g, s.load = (true, { s with graph := g }) ∧ g.sequence = s.graph.sequence ∧
      g.LargestPart (Blobs.readable s.store.heldNodes) (Blobs.readable s.store.heldEdges) := by
  have hids : (Store.listNodes s.store).1 = .ok s.store.heldNodes.keys :=
    congrArg Except.ok (Table.keys_mapValues ..).symm
  have hids' : (Store.listEdges (Store.listNodes s.store).2).1 = .ok s.store.heldEdges.keys :=
    congrArg Except.ok (Table.keys_mapValues ..).symm
  obtain ⟨largest, hsequence⟩ := largestPart_load hids hids'
  have hload := load_of_listed hids hids'
  have nodes (ids : List NodeId) : Store.loadEach Store.loadNode ids s.store =
      (ids.filterMap fun id => (s.store.heldNodes.find? id).join, s.store) :=
    Blobs.loadEach_eq (fun _ _ => rfl) ids s.store
  have edges (ids : List EdgeId) : Store.loadEach Store.loadEdge ids s.store =
      (ids.filterMap fun id => (s.store.heldEdges.find? id).join, s.store) :=
    Blobs.loadEach_eq (fun _ _ => rfl) ids s.store
  -- listing and loading leave the store as it is
  have hlisted : (Store.listEdges (Store.listNodes s.store).2).2 = s.store := rfl
  refine ⟨s.load.2.graph, ?_, hsequence, ?_⟩
  · rw [hload]
    dsimp only
    rw [hlisted, nodes]
    dsimp only
    rw [edges]
  · rw [hlisted, nodes] at largest
    dsimp only at largest
    rw [edges] at largest
    exact largest

/-- A load from a store of bytes that holds a well-formed graph gives the graph. -/
theorem load_blobs_of_held {s : Substrate Blobs} {g : Hypergraph} (hg : g.WellFormed)
    (hnodes : s.store.heldNodes = g.heldNodes) (hedges : s.store.heldEdges = g.heldEdges) :
    s.load = (true, { s with graph := { g with sequence := s.graph.sequence } }) := by
  obtain ⟨loaded, hload, hsequence, largest⟩ := s.load_blobs
  rw [hnodes, hedges] at largest
  have names {α : Type} (t : Table α) :
      Store.Names (t.mapValues fun _ => some).keys (t.mapValues fun _ => some) :=
    fun _ => Table.mem_keys_iff
  obtain ⟨hn, he⟩ := largest.unique
    (hg.largestPart (mem_filterMap_held (names g.nodes)) (mem_filterMap_held (names g.edges)))
  rw [hload]
  cases loaded
  dsimp only at hn he hsequence
  rw [hn, he, hsequence]

/-- A restore to a store of bytes never fails. -/
theorem restore_blobs (s : Substrate Blobs) (g : Hypergraph) : (s.restore g).1 = true := by
  have pruned (listing : Store.Call Blobs (List String)) (hlisting : ∀ s, ∃ ids, (listing s).1 = .ok ids)
      (keep : String → Bool) (remove : String → Store.Call Blobs Bool)
      (hremove : ∀ id s, Store.succeeded (remove id s).1 = true) (s : Blobs) :
      (prune listing keep remove s).1 = true := by
    obtain ⟨ids, hids⟩ := hlisting s
    unfold prune
    rcases hs : listing s with ⟨answer, s'⟩
    rw [hs] at hids
    cases hids
    refine Store.attemptAll_of_succeeds (fun call hcall s => ?_) s'
    obtain ⟨id, -, rfl⟩ := List.mem_map.1 hcall
    exact hremove id s
  have saved (s : Blobs) : (Store.attemptAll (saveCalls g) s).1 = true := by
    refine Store.attemptAll_of_succeeds (fun call hcall s => ?_) s
    rcases List.mem_append.1 hcall with hcall | hcall
    · obtain ⟨node, -, rfl⟩ := List.mem_map.1 hcall
      rfl
    · obtain ⟨edge, -, rfl⟩ := List.mem_map.1 hcall
      rfl
  unfold restore
  dsimp only
  rw [pruned _ (fun s => ⟨_, rfl⟩) _ _ (fun _ _ => rfl), pruned _ (fun s => ⟨_, rfl⟩) _ _ (fun _ _ => rfl),
    saved]
  rfl

/-- After a restore to a store of bytes the store holds the graph, if the graph reads back. -/
theorem held_restore_blobs (s : Substrate Blobs) {g : Hypergraph} (hg : g.WellFormed)
    (every : g.Every (fun _ => Codec.node.ReadsBack) fun _ => Codec.edge.ReadsBack) :
    (s.restore g).2.store.heldNodes = g.heldNodes ∧ (s.restore g).2.store.heldEdges = g.heldEdges :=
  held_restore Blobs.keeps hg every (s.restore_blobs g)

end Substrate

/-! ### One of two kinds -/

namespace Store

variable {σ τ : Type} [Store σ] [Store τ]

/-- A store that is the right one of two kinds answers like it. -/
theorem simulation_inr :
    Simulation (fun (x : σ ⊕ τ) t => x = .inr t) (fun _ => True) fun _ => True where
  saveNode _ _ := by
    rintro _ t rfl
    exact ⟨rfl, rfl⟩
  saveEdge _ _ := by
    rintro _ t rfl
    exact ⟨rfl, rfl⟩
  loadNode _ := by
    rintro _ t rfl
    exact ⟨rfl, rfl⟩
  loadEdge _ := by
    rintro _ t rfl
    exact ⟨rfl, rfl⟩
  removeNode _ := by
    rintro _ t rfl
    exact ⟨rfl, rfl⟩
  removeEdge _ := by
    rintro _ t rfl
    exact ⟨rfl, rfl⟩
  listNodes := by
    rintro _ t rfl
    exact ⟨rfl, rfl⟩
  listEdges := by
    rintro _ t rfl
    exact ⟨rfl, rfl⟩
  loadedNode _ _ _ _ _ _ := trivial
  loadedEdge _ _ _ _ _ _ := trivial
  activated _ _ _ := trivial

end Store

namespace Substrate

variable {σ τ : Type}

/-- A substrate over a store of one of two kinds. -/
def inRight (s : Substrate τ) : Substrate (σ ⊕ τ) := { s with store := .inr s.store }

theorem related_inRight (s : Substrate τ) :
    Related (fun (x : σ ⊕ τ) t => x = .inr t) s.inRight s := ⟨rfl, rfl, rfl⟩

theorem Related.eq_inRight {s : Substrate (σ ⊕ τ)} {t : Substrate τ}
    (h : Related (fun x t => x = .inr t) s t) : s = t.inRight := by
  obtain ⟨hgraph, hstore, hfailures⟩ := h
  cases s
  dsimp only at hgraph hstore hfailures
  rw [hgraph, hstore, hfailures]
  rfl

theorem every_true (g : Hypergraph) : g.Every (fun _ _ => True) fun _ _ => True :=
  ⟨fun _ _ _ => trivial, fun _ _ _ => trivial⟩

variable [Store σ] [Store τ]

theorem load_inRight (s : Substrate τ) :
    (s.inRight : Substrate (σ ⊕ τ)).load = (s.load.1, s.load.2.inRight) := by
  have simulation : Store.Simulation (fun (x : σ ⊕ τ) t => x = .inr t) (fun _ => True) fun _ => True :=
    Store.simulation_inr
  obtain ⟨⟨hanswer, hrelated⟩, -⟩ := simulation.load s.related_inRight (every_true _)
  exact Prod.ext hanswer hrelated.eq_inRight

theorem restore_inRight (s : Substrate τ) (g : Hypergraph) :
    (s.inRight : Substrate (σ ⊕ τ)).restore g = ((s.restore g).1, (s.restore g).2.inRight) := by
  have simulation : Store.Simulation (fun (x : σ ⊕ τ) t => x = .inr t) (fun _ => True) fun _ => True :=
    Store.simulation_inr
  obtain ⟨hanswer, hrelated⟩ := simulation.restore s.related_inRight (every_true g)
  exact Prod.ext hanswer hrelated.eq_inRight

end Substrate

end ResonantGraph
