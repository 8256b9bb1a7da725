import ResonantGraph.Proofs.Substrate.Effect
import Mathlib.Data.List.Forall2

/-!
# Stores that answer alike

Two kinds of stores may keep the same elements in different ways. They *answer alike* under a relation
between their states if every call on related states gives the same answer and leaves related states
(`Store.Simulation`). A substrate over the one then cannot be told from a substrate over the other:
operations give the same answers, count the same failures and leave the same live graph
(`Store.Simulation.performAll`).

Both halves of this are relative to what is saved. The relation need only be kept while all saved nodes
and edges have given properties, such as that a codec can write them, and these must then hold of
what is loaded too, since what was loaded is saved again.

Emptying the graph is left out. It empties some stores and not others.
-/

namespace ResonantGraph

namespace Store

variable {σ τ α β : Type}

/-- Equal answers and related states. -/
def Matches (R : σ → τ → Prop) (x : β × σ) (y : β × τ) : Prop := x.1 = y.1 ∧ R x.2 y.2

/-- Calls whose outcomes on related states match. -/
def Agree (R : σ → τ → Prop) (call : Call σ α) (call' : Call τ α) : Prop :=
  ∀ s t, R s t → Matches R (call s) (call' t)

/-- Two kinds of stores that answer alike, as long as the nodes and edges that are saved have given
properties. -/
structure Simulation [Store σ] [Store τ] (R : σ → τ → Prop) (P : Node → Prop)
    (Q : Edge → Prop) : Prop where
  /-- Nodes are saved alike. -/
  saveNode : ∀ node, P node → Agree R (saveNode node) (saveNode node)
  /-- Edges are saved alike. -/
  saveEdge : ∀ edge, Q edge → Agree R (saveEdge edge) (saveEdge edge)
  /-- Nodes are loaded alike. -/
  loadNode : ∀ id, Agree R (loadNode id) (loadNode id)
  /-- Edges are loaded alike. -/
  loadEdge : ∀ id, Agree R (loadEdge id) (loadEdge id)
  /-- Nodes are removed alike. -/
  removeNode : ∀ id, Agree R (removeNode id) (removeNode id)
  /-- Edges are removed alike. -/
  removeEdge : ∀ id, Agree R (removeEdge id) (removeEdge id)
  /-- Nodes are listed alike. -/
  listNodes : Agree R listNodes listNodes
  /-- Edges are listed alike. -/
  listEdges : Agree R listEdges listEdges
  /-- A node that is loaded might have been saved. -/
  loadedNode : ∀ s t id node, R s t → (Store.loadNode id t).1 = .ok (some node) → P node
  /-- An edge that is loaded might have been saved. -/
  loadedEdge : ∀ s t id edge, R s t → (Store.loadEdge id t).1 = .ok (some edge) → Q edge
  /-- Activations do not matter. -/
  activated : ∀ node (level : Binary64), P node → P (node.setActivation level.clamp)

/-- A request that saves nothing but elements with given properties. -/
def Request.Within (P : Node → Prop) (Q : Edge → Prop) : Request → Prop
  | .saveNode node => P node
  | .saveEdge edge => Q edge
  | _ => True

section Calls

variable {R : σ → τ → Prop}

theorem Agree.replyWith {call : Call σ α} {call' : Call τ α} (h : Agree R call call')
    (form : α → Reply) : Agree R (replyWith form call) (replyWith form call') := by
  intro s t hst
  obtain ⟨hanswer, hstate⟩ := h s t hst
  refine ⟨?_, hstate⟩
  change (call s).1.map form = (call' t).1.map form
  rw [hanswer]

/-- Calls agree if they do so as requests. -/
theorem agree_of_replyWith {call : Call σ α} {call' : Call τ α}
    {form : α → Reply} (inj : Function.Injective form)
    (h : Agree R (replyWith form call) (replyWith form call')) : Agree R call call' := by
  intro s t hst
  obtain ⟨hanswer, hstate⟩ := h s t hst
  refine ⟨?_, hstate⟩
  change (call s).1.map form = (call' t).1.map form at hanswer
  revert hanswer
  rcases (call s).1 with e | v <;> rcases (call' t).1 with e' | v' <;> intro hanswer
  · cases hanswer; rfl
  · cases hanswer
  · cases hanswer
  · exact congrArg Except.ok (inj (Except.ok.inj hanswer))

theorem Agree.attempt {call : Call σ α} {call' : Call τ α} (h : Agree R call call') {s : σ} {t : τ}
    (hst : R s t) : Matches R (attempt call s) (attempt call' t) := by
  obtain ⟨hanswer, hstate⟩ := h s t hst
  refine ⟨?_, hstate⟩
  change succeeded (call s).1 = succeeded (call' t).1
  rw [hanswer]

/-- Calls in sequence match if each does. -/
theorem matches_attemptAll {calls : List (Call σ α)} {calls' : List (Call τ α)}
    (h : List.Forall₂ (Agree R) calls calls') {s : σ} {t : τ} (hst : R s t) :
    Matches R (attemptAll calls s) (attemptAll calls' t) := by
  -- over both lists at once; each call leaves related states for the next
  induction h generalizing s t with
  | nil => exact ⟨rfl, hst⟩
  | @cons call call' calls calls' hcall _ ih =>
    obtain ⟨hfirst, hstate⟩ := hcall.attempt hst
    obtain ⟨hothers, hend⟩ := ih hstate
    refine ⟨?_, hend⟩
    change ((attempt call s).1 && (attemptAll calls (attempt call s).2).1) =
      ((attempt call' t).1 && (attemptAll calls' (attempt call' t).2).1)
    rw [hfirst, hothers]

theorem matches_loadEach {call : String → Call σ (Option α)} {call' : String → Call τ (Option α)}
    (h : ∀ id, Agree R (call id) (call' id)) (ids : List String) {s : σ} {t : τ} (hst : R s t) :
    Matches R (loadEach call ids s) (loadEach call' ids t) := by
  induction ids generalizing s t with
  | nil => exact ⟨rfl, hst⟩
  | cons id ids ih =>
    obtain ⟨hanswer, hstate⟩ := h id s t hst
    obtain ⟨hothers, hend⟩ := ih hstate
    unfold loadEach
    dsimp only
    rw [hanswer]
    -- a failure and an absent element are passed over alike
    rcases (call' id t).1 with _ | _ | v
    · exact ⟨hothers, hend⟩
    · exact ⟨hothers, hend⟩
    · exact ⟨congrArg (v :: ·) hothers, hend⟩

/-- What is collected by loading was loaded. -/
theorem forall_mem_loadEach {call : String → Call σ (Option α)}
    {call' : String → Call τ (Option α)} (h : ∀ id, Agree R (call id) (call' id)) {P : α → Prop}
    (loaded : ∀ s t id v, R s t → (call' id t).1 = .ok (some v) → P v) (ids : List String) {s : σ}
    {t : τ} (hst : R s t) : ∀ v ∈ (loadEach call' ids t).1, P v := by
  induction ids generalizing s t with
  | nil => exact fun v hv => by cases hv
  | cons id ids ih =>
    have hothers := ih (h id s t hst).2
    have hfirst := loaded s t id
    unfold loadEach
    dsimp only
    rcases hanswer : (call' id t).1 with _ | _ | v
    · exact hothers
    · exact hothers
    · exact List.forall_mem_cons.2 ⟨hfirst v hst hanswer, hothers⟩

theorem matches_prune {listing : Call σ (List String)} {listing' : Call τ (List String)}
    (hlisting : Agree R listing listing') (keep : String → Bool) {remove : String → Call σ Bool}
    {remove' : String → Call τ Bool} (hremove : ∀ id, Agree R (remove id) (remove' id)) {s : σ}
    {t : τ} (hst : R s t) :
    Matches R (Substrate.prune listing keep remove s) (Substrate.prune listing' keep remove' t) := by
  obtain ⟨hanswer, hstate⟩ := hlisting s t hst
  unfold Substrate.prune
  rcases hs : listing s with ⟨ids, s'⟩
  rcases ht : listing' t with ⟨ids', t'⟩
  rw [hs, ht] at hanswer hstate
  -- the listings are equal, so as many calls of one kind follow on both sides
  cases (hanswer : ids = ids')
  cases ids with
  | error e => exact ⟨rfl, hstate⟩
  | ok ids =>
    refine matches_attemptAll ?_ hstate
    rw [List.forall₂_map_left_iff, List.forall₂_map_right_iff, List.forall₂_same]
    exact fun id _ => hremove id

end Calls

end Store

open Store (Matches Agree Simulation Request)

namespace Operation

/-- An operation that brings nothing but elements with given properties. -/
def Within (P : Node → Prop) (Q : Edge → Prop) : Operation → Prop
  | .addNode node | .updateNode node => P node
  | .addEdge edge | .updateEdge edge => Q edge
  | .restore g => g.Every (fun _ => P) fun _ => Q
  | _ => True

variable {P : Node → Prop} {Q : Edge → Prop} {g : Hypergraph}

theorem within_saveNodes (h : g.Every (fun _ => P) fun _ => Q) (ids : List NodeId) :
    ∀ r ∈ g.saveNodes ids, r.Within P Q := by
  intro r hr
  obtain ⟨id, -, hid⟩ := List.mem_filterMap.1 hr
  obtain ⟨node, hnode, rfl⟩ := Option.map_eq_some_iff.1 hid
  exact h.nodes id node hnode

theorem within_saveEdges (h : g.Every (fun _ => P) fun _ => Q) (ids : List EdgeId) :
    ∀ r ∈ g.saveEdges ids, r.Within P Q := by
  intro r hr
  obtain ⟨id, -, hid⟩ := List.mem_filterMap.1 hr
  obtain ⟨edge, hedge, rfl⟩ := Option.map_eq_some_iff.1 hid
  exact h.edges id edge hedge

/-- What a mirroring operation saves is in the graph that it leaves. -/
theorem within_writes {op : Operation} (h : (op.after g).Every (fun _ => P) fun _ => Q) :
    ∀ r ∈ op.writes g, r.Within P Q := by
  have none : ∀ r ∈ ([] : List Request), r.Within P Q := fun r hr => by cases hr
  cases op with
  | addNode node | updateNode node =>
    rw [writes]
    split
    · exact within_saveNodes h _
    · exact none
  | removeNode id =>
    rw [writes]
    split
    · intro r hr
      rcases List.mem_append.1 hr with hr | hr
      · obtain ⟨id, -, rfl⟩ := List.mem_map.1 hr
        trivial
      · rw [List.mem_singleton.1 hr]
        trivial
    · exact none
  | addEdge edge | updateEdge edge =>
    rw [writes]
    split
    · exact within_saveEdges h _
    · exact none
  | removeEdge id =>
    rw [writes]
    split
    · intro r hr
      rw [List.mem_singleton.1 hr]
      trivial
    · exact none
  | propagate source initial =>
    rw [writes]
    split
    · exact within_saveNodes h _
    · exact none
  | updateActivation id level =>
    rw [writes]
    split
    · exact within_saveNodes h _
    · exact none
  | _ => exact none

end Operation

namespace Substrate

variable {σ τ : Type} {R : σ → τ → Prop}

/-- One live graph and one count of failures over two related stores. -/
structure Related (R : σ → τ → Prop) (s : Substrate σ) (t : Substrate τ) : Prop where
  /-- The live graphs are equal. -/
  graph : s.graph = t.graph
  /-- The stores are related. -/
  store : R s.store t.store
  /-- As many calls have failed. -/
  mirrorFailures : s.mirrorFailures = t.mirrorFailures

theorem Related.withGraph {s : Substrate σ} {t : Substrate τ} (h : Related R s t)
    (g : Hypergraph) : Related R (s.withGraph g) (t.withGraph g) :=
  ⟨rfl, h.store, h.mirrorFailures⟩

theorem Related.mirrorAll {s : Substrate σ} {t : Substrate τ} (h : Related R s t) {α : Type}
    {calls : List (Store.Call σ α)} {calls' : List (Store.Call τ α)}
    (hcalls : List.Forall₂ (Agree R) calls calls') :
    Related R (s.mirrorAll calls) (t.mirrorAll calls') := by
  induction hcalls generalizing s t with
  | nil => exact h
  | @cons call call' calls calls' hcall _ ih =>
    obtain ⟨hanswer, hstate⟩ := hcall _ _ h.store
    refine ih ⟨h.graph, hstate, ?_⟩
    change (if Store.succeeded (call s.store).1 then s.mirrorFailures else s.mirrorFailures + 1) =
      if Store.succeeded (call' t.store).1 then t.mirrorFailures else t.mirrorFailures + 1
    rw [hanswer, h.mirrorFailures]

end Substrate

namespace Store.Simulation

variable {σ τ : Type} [Store σ] [Store τ] {R : σ → τ → Prop} {P : Node → Prop} {Q : Edge → Prop}

theorem serve (h : Simulation R P Q) {r : Request} (hr : r.Within P Q) :
    Agree R (serve r) (serve r) := by
  cases r with
  | saveNode node => exact (h.saveNode node hr).replyWith _
  | saveEdge edge => exact (h.saveEdge edge hr).replyWith _
  | loadNode id => exact (h.loadNode id).replyWith _
  | loadEdge id => exact (h.loadEdge id).replyWith _
  | removeNode id => exact (h.removeNode id).replyWith _
  | removeEdge id => exact (h.removeEdge id).replyWith _
  | listNodes => exact h.listNodes.replyWith _
  | listEdges => exact h.listEdges.replyWith _

variable {g : Hypergraph}

/-- Saving a graph comes to the same. -/
theorem saveCalls (h : Simulation R P Q) (hg : g.Every (fun _ => P) fun _ => Q) {s : σ} {t : τ}
    (hst : R s t) :
    Matches R (attemptAll (Substrate.saveCalls g) s) (attemptAll (Substrate.saveCalls g) t) := by
  refine matches_attemptAll (List.rel_append ?_ ?_) hst
  · rw [List.forall₂_map_left_iff, List.forall₂_map_right_iff, List.forall₂_same]
    intro node hnode
    obtain ⟨id, hid⟩ := Table.mem_values_iff.1 hnode
    exact h.saveNode node (hg.nodes id node hid)
  · rw [List.forall₂_map_left_iff, List.forall₂_map_right_iff, List.forall₂_same]
    intro edge hedge
    obtain ⟨id, hid⟩ := Table.mem_values_iff.1 hedge
    exact h.saveEdge edge (hg.edges id edge hid)

variable {s : Substrate σ} {t : Substrate τ}

/-- A mirroring operation comes to the same. -/
theorem perform_mirroring (h : Simulation R P Q) (hst : Substrate.Related R s t)
    {op : Operation} (hop : op.mirroring = true)
    (hafter : (op.after s.graph).Every (fun _ => P) fun _ => Q) :
    Matches (Substrate.Related R) (s.perform op) (t.perform op) := by
  rw [s.perform_mirroring hop, t.perform_mirroring hop, ← hst.graph]
  refine ⟨rfl, (hst.withGraph _).mirrorAll ?_⟩
  rw [List.forall₂_map_left_iff, List.forall₂_map_right_iff, List.forall₂_same]
  exact fun r hr => h.serve (Operation.within_writes hafter r hr)

/-- Saving everything comes to the same. -/
theorem save (h : Simulation R P Q) (hst : Substrate.Related R s t)
    (hs : s.graph.Every (fun _ => P) fun _ => Q) :
    Matches (Substrate.Related R) s.save t.save := by
  unfold Substrate.save
  rw [← hst.graph]
  obtain ⟨hsaved, hstore⟩ := h.saveCalls hs hst.store
  exact ⟨hsaved, rfl, hstore, hst.mirrorFailures⟩

/-- Restoring comes to the same. -/
theorem restore (h : Simulation R P Q) (hst : Substrate.Related R s t)
    (hg : g.Every (fun _ => P) fun _ => Q) :
    Matches (Substrate.Related R) (s.restore g) (t.restore g) := by
  obtain ⟨hedges, hstore⟩ := matches_prune h.listEdges g.hasEdge h.removeEdge hst.store
  obtain ⟨hnodes, hstore⟩ := matches_prune h.listNodes g.hasNode h.removeNode hstore
  obtain ⟨hsaved, hstore⟩ := h.saveCalls hg hstore
  refine ⟨?_, rfl, hstore, hst.mirrorFailures⟩
  unfold Substrate.restore
  dsimp only
  rw [hedges, hnodes, hsaved]

/-- Loading comes to the same, and what was loaded has the given properties. -/
theorem load (h : Simulation R P Q) (hst : Substrate.Related R s t)
    (hs : s.graph.Every (fun _ => P) fun _ => Q) :
    Matches (Substrate.Related R) s.load t.load ∧ s.load.2.graph.Every (fun _ => P) fun _ => Q := by
  obtain ⟨hnodeIds, hstore⟩ := h.listNodes _ _ hst.store
  obtain ⟨hedgeIds, hstore⟩ := h.listEdges _ _ hstore
  rw [Substrate.load_eq, Substrate.load_eq]
  dsimp only
  rw [hnodeIds, hedgeIds]
  -- if a listing fails it does so on both sides, and the graph stays
  generalize (Store.listNodes t.store).1 = nodeIds
  generalize (Store.listEdges (Store.listNodes t.store).2).1 = edgeIds
  cases nodeIds with
  | error e => exact ⟨⟨rfl, hst.graph, hstore, hst.mirrorFailures⟩, hs⟩
  | ok nodeIds =>
    cases edgeIds with
    | error e => exact ⟨⟨rfl, hst.graph, hstore, hst.mirrorFailures⟩, hs⟩
    | ok edgeIds =>
      dsimp only
      -- what is loaded is known on the right, and the same on the left
      have nodesWithin := forall_mem_loadEach h.loadNode h.loadedNode nodeIds hstore
      obtain ⟨hnodes, hstore⟩ := matches_loadEach h.loadNode nodeIds hstore
      have edgesWithin := forall_mem_loadEach h.loadEdge h.loadedEdge edgeIds hstore
      obtain ⟨hedges, hstore⟩ := matches_loadEach h.loadEdge edgeIds hstore
      refine ⟨⟨rfl, ?_, hstore, hst.mirrorFailures⟩, ?_⟩
      · dsimp only
        rw [hnodes, hedges, hst.graph]
      · rw [hnodes, hedges, ← Hypergraph.applyAll_append]
        have cleared : s.graph.clear.Every (fun _ => P) fun _ => Q :=
          hs.apply (fun _ => h.activated) (c := .clear) trivial
        refine cleared.applyAll (fun _ => h.activated) fun c hc => ?_
        rcases List.mem_append.1 hc with hc | hc
        · obtain ⟨node, hnode, rfl⟩ := List.mem_map.1 hc
          exact h.activated node _ (nodesWithin node hnode)
        · obtain ⟨edge, hedge, rfl⟩ := List.mem_map.1 hc
          exact edgesWithin edge hedge

/-- The properties hold of the live graph after a mirroring operation within them. -/
theorem every_after (h : Simulation R P Q) (hg : g.Every (fun _ => P) fun _ => Q) {op : Operation}
    (hop : op.Within P Q) : (op.after g).Every (fun _ => P) fun _ => Q := by
  -- a change brings in what the operation does, clamped
  have brings : ∀ c, op.change? = some c → c.Brings (fun _ => P) fun _ => Q := by
    intro c hc
    cases op with
    | addNode node | updateNode node => cases hc; exact h.activated node _ hop
    | addEdge edge | updateEdge edge => cases hc; exact hop
    | _ => cases hc <;> trivial
  unfold Operation.after
  cases hc : op.change? with
  | none => exact hg
  | some c => exact hg.apply (fun _ => h.activated) (brings c hc)

/-- **An operation cannot tell the stores apart.** -/
theorem perform (h : Simulation R P Q) (hst : Substrate.Related R s t)
    (hs : s.graph.Every (fun _ => P) fun _ => Q) {op : Operation} (hop : op.Within P Q)
    (hclear : op ≠ .clear) :
    Matches (Substrate.Related R) (s.perform op) (t.perform op) ∧
      (s.perform op).2.graph.Every (fun _ => P) fun _ => Q := by
  cases hmirroring : op.mirroring with
  | true =>
    -- the requests are the same, for they depend on the graph alone
    have hafter := h.every_after hs hop
    refine ⟨h.perform_mirroring hst hmirroring hafter, ?_⟩
    rw [s.perform_mirroring hmirroring, Substrate.graph_settle]
    exact hafter
  | false =>
    cases op with
    | save =>
      obtain ⟨hsaved, hrelated⟩ := h.save hst hs
      exact ⟨⟨congrArg Answer.flag hsaved, hrelated⟩, hs⟩
    | load =>
      obtain ⟨⟨hloaded, hrelated⟩, hgraph⟩ := h.load hst hs
      exact ⟨⟨congrArg Answer.flag hloaded, hrelated⟩, hgraph⟩
    | restore g =>
      obtain ⟨hrestored, hrelated⟩ := h.restore hst hop
      exact ⟨⟨congrArg Answer.flag hrestored, hrelated⟩, hop⟩
    | clear => exact absurd rfl hclear
    | _ => cases hmirroring

/-- **A run cannot tell the stores apart.** -/
theorem performAll (h : Simulation R P Q) (hst : Substrate.Related R s t)
    (hs : s.graph.Every (fun _ => P) fun _ => Q) {ops : List Operation}
    (hops : ∀ op ∈ ops, op.Within P Q ∧ op ≠ .clear) :
    Matches (Substrate.Related R) (s.performAll ops) (t.performAll ops) ∧
      (s.performAll ops).2.graph.Every (fun _ => P) fun _ => Q := by
  induction ops generalizing s t with
  | nil => exact ⟨⟨rfl, hst⟩, hs⟩
  | cons op ops ih =>
    obtain ⟨⟨hop, hclear⟩, hops⟩ := List.forall_mem_cons.1 hops
    obtain ⟨⟨hanswer, hrelated⟩, hgraph⟩ := h.perform hst hs hop hclear
    obtain ⟨⟨hanswers, hend⟩, hgraph⟩ := ih hrelated hgraph hops
    exact ⟨⟨congrArg₂ List.cons hanswer hanswers, hend⟩, hgraph⟩

end Store.Simulation

end ResonantGraph
