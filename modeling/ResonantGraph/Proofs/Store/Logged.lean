import ResonantGraph.Proofs.Store.Failing

/-!
# Stores that keep a log

What a substrate asks of its store is settled by watching the store. `Store.Logged` wraps a store of any
kind: it passes every call on, and notes it together with whether it succeeded. To be watched makes no
difference, neither to a store (`Logged.transparent`) nor to a substrate over it
(`Substrate.perform_logged`), so whatever is in the log of the watched store was asked of the plain one.

`Substrate.calls` are the calls that one operation makes. Those of a mirroring operation are the
requests that `Operation.writes` announces (`Substrate.calls_of_mirroring`).

A store that answers like tables holds what its log says: under each identifier the element that was
saved last and has not been removed since (`Simulation.logged`, `Tables.find?_nodes_after`).
-/

namespace ResonantGraph

namespace Store

variable {σ τ α : Type}

/-- A store, and the calls that were made on it, each with whether it succeeded. -/
structure Logged (σ : Type) where
  /-- The store itself. -/
  store : σ
  /-- The calls, in the order in which they were made. -/
  log : List (Request × Bool) := []

namespace Logged

/-- Passes a call on and notes it as a request. -/
def noted (r : Request) (call : Call σ α) : Call (Logged σ) α := fun s =>
  let (answer, store) := call s.store
  (answer, { store, log := s.log ++ [(r, succeeded answer)] })

end Logged

instance [Store σ] : Store (Logged σ) where
  saveNode node := Logged.noted (.saveNode node) (saveNode node)
  saveEdge edge := Logged.noted (.saveEdge edge) (saveEdge edge)
  loadNode id := Logged.noted (.loadNode id) (loadNode id)
  loadEdge id := Logged.noted (.loadEdge id) (loadEdge id)
  removeNode id := Logged.noted (.removeNode id) (removeNode id)
  removeEdge id := Logged.noted (.removeEdge id) (removeEdge id)
  listNodes := Logged.noted .listNodes listNodes
  listEdges := Logged.noted .listEdges listEdges
  clearVolatile s := { s with store := clearVolatile s.store }

namespace Logged

theorem agree_noted (r : Request) (call : Call σ α) :
    Agree (fun (l : Logged σ) s => l.store = s) (noted r call) call := by
  rintro l s rfl
  exact ⟨rfl, rfl⟩

/-- **Watching makes no difference.** A watched store answers like the plain one. -/
theorem transparent [Store σ] :
    Simulation (fun (l : Logged σ) s => l.store = s) (fun _ => True) fun _ => True where
  saveNode _ _ := agree_noted _ _
  saveEdge _ _ := agree_noted _ _
  loadNode _ := agree_noted _ _
  loadEdge _ := agree_noted _ _
  removeNode _ := agree_noted _ _
  removeEdge _ := agree_noted _ _
  listNodes := agree_noted _ _
  listEdges := agree_noted _ _
  loadedNode _ _ _ _ _ _ := trivial
  loadedEdge _ _ _ _ _ _ := trivial
  activated _ _ _ := trivial

variable [Store σ]

theorem serve_eq (r : Request) (s : Logged σ) :
    serve r s = ((serve r s.store).1,
      { store := (serve r s.store).2
        log := s.log ++ [(r, succeeded (serve r s.store).1)] }) := by
  -- whether a call succeeded does not depend on the form of its reply
  have form {α : Type} (call : Call σ α) (form : α → Reply) :
      succeeded (replyWith form call s.store).1 = succeeded (call s.store).1 := by
    change succeeded ((call s.store).1.map form) = succeeded (call s.store).1
    cases (call s.store).1 <;> rfl
  cases r <;>
  · unfold serve
    rw [form]
    rfl

/-- The log of a watched store is the record of what was asked. -/
theorem log_serveAll (requests : List Request) (s : Logged σ) :
    (serveAll requests s).log = s.log ++ record requests s.store := by
  induction requests generalizing s with
  | nil => exact (List.append_nil _).symm
  | cons r requests ih =>
    change (serveAll requests (serve r s).2).log = _
    rw [ih, serve_eq, record, List.append_assoc]
    rfl

end Logged

/-! ### What a log says is stored -/

/-- What is held under an identifier after a request. -/
def heldAfter (write? : Request → Option (String × Option α)) (id : String) (held : Option α)
    (r : Request) : Option α :=
  match write? r with
  | some (key, value) => if key = id then value else held
  | none => held

/-- The element that was saved last under an identifier and has not been removed since. -/
def lastSaved (write? : Request → Option (String × Option α)) (requests : List Request)
    (id : String) : Option α :=
  requests.foldl (heldAfter write? id) none

theorem find?_writeAll_filterMap (write? : Request → Option (String × Option α)) (t : Table α)
    (requests : List Request) (id : String) :
    (t.writeAll (requests.filterMap write?)).find? id =
      requests.foldl (heldAfter write? id) (t.find? id) := by
  induction requests generalizing t with
  | nil => rfl
  | cons r requests ih =>
    rw [List.foldl_cons]
    unfold heldAfter
    cases hr : write? r with
    | none =>
      -- not a write to this table
      rw [List.filterMap_cons_none hr]
      exact ih t
    | some w =>
      rw [List.filterMap_cons_some hr]
      change ((t.write w).writeAll (requests.filterMap write?)).find? id = _
      rw [ih, Table.find?_write]
      rfl

theorem Tables.find?_nodes_after (requests : List Request) (id : NodeId) :
    (({} : Tables).after requests).nodes.find? id = lastSaved Request.nodeWrite? requests id :=
  find?_writeAll_filterMap ..

theorem Tables.find?_edges_after (requests : List Request) (id : EdgeId) :
    (({} : Tables).after requests).edges.find? id = lastSaved Request.edgeWrite? requests id :=
  find?_writeAll_filterMap ..

/-- A watched store is related to tables, and these are what the calls that succeeded have written. -/
structure Accounted (R : σ → Tables → Prop) (l : Logged σ) (t : Tables) : Prop where
  /-- The stores are related. -/
  related : R l.store t
  /-- The log accounts for all that is stored. -/
  accounted : t = ({} : Tables).after (carriedOut l.log)

theorem Agree.noted {R : σ → Tables → Prop} {call : Call σ α} {call' : Call Tables α}
    (h : Agree R call call') (r : Request)
    (writes : ∀ t, succeeded (call' t).1 = true ∧ (call' t).2 = t.after [r]) :
    Agree (Accounted R) (Logged.noted r call) call' := by
  rintro l t ⟨related, accounted⟩
  obtain ⟨hanswer, hrelated⟩ := h l.store t related
  obtain ⟨hdone, hafter⟩ := writes t
  refine ⟨hanswer, hrelated, ?_⟩
  -- the call is the last of those that succeeded
  have hlog : carriedOut (Logged.noted r call l).2.log = carriedOut l.log ++ [r] := by
    have hcall : succeeded (call l.store).1 = true := by
      rw [hanswer]
      exact hdone
    change carriedOut (l.log ++ [(r, succeeded (call l.store).1)]) = _
    unfold carriedOut
    rw [hcall, List.filter_append, List.map_append]
    rfl
  rw [hlog, Tables.after_append, ← accounted, hafter]

/-- **The log accounts for what is stored**, in a store that answers like tables. -/
theorem Simulation.logged [Store σ] {R : σ → Tables → Prop} {P : Node → Prop} {Q : Edge → Prop}
    (h : Simulation R P Q) : Simulation (Accounted R) P Q where
  saveNode node hnode := (h.saveNode node hnode).noted _ fun _ => ⟨rfl, rfl⟩
  saveEdge edge hedge := (h.saveEdge edge hedge).noted _ fun _ => ⟨rfl, rfl⟩
  loadNode id := (h.loadNode id).noted _ fun _ => ⟨rfl, rfl⟩
  loadEdge id := (h.loadEdge id).noted _ fun _ => ⟨rfl, rfl⟩
  removeNode id := (h.removeNode id).noted _ fun _ => ⟨rfl, rfl⟩
  removeEdge id := (h.removeEdge id).noted _ fun _ => ⟨rfl, rfl⟩
  listNodes := h.listNodes.noted _ fun _ => ⟨rfl, rfl⟩
  listEdges := h.listEdges.noted _ fun _ => ⟨rfl, rfl⟩
  loadedNode l t id node hl := h.loadedNode l.store t id node hl.related
  loadedEdge l t id edge hl := h.loadedEdge l.store t id edge hl.related
  activated := h.activated

end Store

/-! ### Watching a substrate -/

namespace Substrate

variable {σ : Type}

/-- The substrate with its store watched from here on. -/
def logged (s : Substrate σ) : Substrate (Store.Logged σ) where
  graph := s.graph
  store := { store := s.store }
  mirrorFailures := s.mirrorFailures

variable [Store σ]

/-- The calls that an operation makes on the store, each with whether it succeeded. -/
def calls (s : Substrate σ) (op : Operation) : List (Store.Request × Bool) :=
  (s.logged.perform op).2.store.log

/-- An operation on a watched store does what it does on the plain one. -/
theorem perform_logged (s : Substrate σ) (op : Operation) :
    Store.Matches (Related fun l s => l.store = s) (s.logged.perform op) (s.perform op) := by
  have related : Related (fun (l : Store.Logged σ) s => l.store = s) s.logged s := ⟨rfl, rfl, rfl⟩
  have every (g : Hypergraph) : g.Every (fun _ _ => True) fun _ _ => True :=
    ⟨fun _ _ _ => trivial, fun _ _ _ => trivial⟩
  by_cases hop : op = .clear
  · -- a simulation says nothing of emptying, but this is passed on too
    subst hop
    exact ⟨rfl, rfl, rfl, rfl⟩
  · have within : op.Within (fun _ => True) fun _ => True := by
      cases op with
      | restore g => exact every g
      | _ => trivial
    exact (Store.Logged.transparent.perform related (every _) within hop).1

/-- A mirroring operation makes the calls that it announces. -/
theorem calls_of_mirroring (s : Substrate σ) {op : Operation} (h : op.mirroring = true) :
    s.calls op = Store.record (op.writes s.graph) s.store := by
  unfold calls
  -- what is announced follows from the graph, which the watched substrate shares
  rw [s.logged.perform_mirroring h]
  change (s.logged.settle _ (op.writes s.graph)).store.log = _
  rw [store_settle, Store.Logged.log_serveAll]
  rfl

end Substrate

end ResonantGraph
