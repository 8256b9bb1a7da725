import ResonantGraph.Store.Tables
import Mathlib.Data.List.Basic

/-!
# What requests write

A request writes to at most one name of one table: a save puts an element there, a removal nothing.
A list of requests is therefore two lists of writes, one for the nodes and one for the edges, and its
outcome on a store of tables is the outcome of those (`Store.Tables.attemptAll_calls`).

Writes come in an order, but their outcome is mostly clear without it. Writes *turn* one table into
another (`Table.Turns`) when each of them is what the second table holds under its name and the two
tables agree on every name that is not written. Whatever the order, such writes have the second table
for their outcome (`Table.Turns.writeAll_eq`).
-/

namespace ResonantGraph

namespace Table

variable {α : Type} {t u : Table α}

/-- Stores a value under a name, or nothing. -/
def write (t : Table α) : String × Option α → Table α
  | (name, some value) => t.insert name value
  | (name, none) => t.erase name

/-- Makes writes in order. -/
def writeAll (t : Table α) (writes : List (String × Option α)) : Table α := writes.foldl write t

theorem find?_write (t : Table α) (w : String × Option α) (key : String) :
    (t.write w).find? key = if w.1 = key then w.2 else t.find? key := by
  obtain ⟨name, _ | value⟩ := w
  · exact find?_erase ..
  · exact find?_insert ..

/-- A name that is not written keeps its value. -/
theorem find?_writeAll_of_forall_ne {writes : List (String × Option α)} {key : String}
    (h : ∀ w ∈ writes, w.1 ≠ key) : (t.writeAll writes).find? key = t.find? key := by
  induction writes generalizing t with
  | nil => rfl
  | cons w writes ih =>
    rw [List.forall_mem_cons] at h
    change ((t.write w).writeAll writes).find? key = _
    rw [ih h.2, find?_write, if_neg h.1]

/-- A name that is written ends up with one of the things written to it. -/
theorem mem_of_find?_writeAll {writes : List (String × Option α)} {key : String}
    (h : ∃ w ∈ writes, w.1 = key) : (key, (t.writeAll writes).find? key) ∈ writes := by
  induction writes generalizing t with
  | nil => obtain ⟨w, hw, -⟩ := h; cases hw
  | cons w writes ih =>
    change (key, ((t.write w).writeAll writes).find? key) ∈ w :: writes
    -- a later write to the name has the last word; if there is none, the first has it
    by_cases hlater : ∃ w ∈ writes, w.1 = key
    · exact List.mem_cons_of_mem _ (ih hlater)
    · have hnone : ∀ w ∈ writes, w.1 ≠ key := fun w hw hkey => hlater ⟨w, hw, hkey⟩
      have hkey : w.1 = key := by
        obtain ⟨w', hw', hkey⟩ := h
        rcases List.mem_cons.1 hw' with rfl | hw'
        · exact hkey
        · exact absurd hkey (hnone w' hw')
      rw [find?_writeAll_of_forall_ne hnone, find?_write, if_pos hkey, ← hkey]
      exact List.mem_cons_self

/-- What holds of the entries of a table and of what is written holds after writes. -/
theorem forall_find?_writeAll {P : String → α → Prop}
    (h : ∀ key v, t.find? key = some v → P key v) {writes : List (String × Option α)}
    (hwrites : ∀ key v, (key, some v) ∈ writes → P key v) :
    ∀ key v, (t.writeAll writes).find? key = some v → P key v := by
  intro key v hv
  by_cases hkey : ∃ w ∈ writes, w.1 = key
  · -- the value was written
    have hmem := mem_of_find?_writeAll (t := t) hkey
    rw [hv] at hmem
    exact hwrites key v hmem
  · -- the value was there before
    rw [find?_writeAll_of_forall_ne fun w hw heq => hkey ⟨w, hw, heq⟩] at hv
    exact h key v hv

/-! ### From one table to another -/

/-- Writes that lead from one table to another, in whatever order they are made. -/
structure Turns (writes : List (String × Option α)) (t u : Table α) : Prop where
  /-- Each of them is what the second table holds. -/
  written : ∀ w ∈ writes, u.find? w.1 = w.2
  /-- Under every other name the tables hold the same. -/
  others : ∀ key, (∀ w ∈ writes, w.1 ≠ key) → u.find? key = t.find? key

theorem Turns.writeAll_eq {writes : List (String × Option α)} (h : Turns writes t u) :
    t.writeAll writes = u := by
  -- which of several writes to a name came last does not matter: they all agree with `u`
  refine ext_find? fun key => ?_
  by_cases hkey : ∃ w ∈ writes, w.1 = key
  · exact (h.written _ (mem_of_find?_writeAll hkey)).symm
  · have hnone : ∀ w ∈ writes, w.1 ≠ key := fun w hw heq => hkey ⟨w, hw, heq⟩
    rw [find?_writeAll_of_forall_ne hnone, h.others key hnone]

theorem Turns.refl (t : Table α) : Turns [] t t where
  written := fun w hw => by cases hw
  others := fun _ _ => rfl

/-- The removal of some names. -/
theorem turns_erase {names : List String} (gone : ∀ name ∈ names, u.find? name = none)
    (kept : ∀ key, ¬ key ∈ names → u.find? key = t.find? key) :
    Turns (names.map (·, none)) t u where
  written := by
    intro w hw
    obtain ⟨name, hname, rfl⟩ := List.mem_map.1 hw
    exact gone name hname
  others := fun key hkey =>
    kept key fun hmem => hkey (key, none) (List.mem_map_of_mem hmem) rfl

/-- The removal of one name. -/
theorem turns_erase_self (t : Table α) (name : String) : Turns [(name, none)] t (t.erase name) where
  written := by
    intro w hw
    rw [List.mem_singleton.1 hw, find?_erase, if_pos rfl]
  others := by
    intro key hkey
    rw [find?_erase, if_neg (hkey _ List.mem_cons_self)]

theorem find?_insert_of_not_mem {name key : String} {value : α} (h : ¬ key ∈ [name]) :
    (t.insert name value).find? key = t.find? key := by
  rw [find?_insert, if_neg]
  exact fun heq => h (heq ▸ List.mem_cons_self)

theorem find?_eq_none_of_insert {name key : String} {value : α}
    (h : (t.insert name value).find? key = none) : t.find? key = none := by
  rw [find?_insert] at h
  split at h
  · cases h
  · exact h

section Saving

variable {idOf : α → String}

/-- The renewal of what a table holds under some names, where nothing is lost. -/
theorem turns_save (filed : ∀ key v, u.find? key = some v → idOf v = key) {names : List String}
    (kept : ∀ key, ¬ key ∈ names → u.find? key = t.find? key)
    (lost : ∀ key, u.find? key = none → t.find? key = none) :
    Turns (names.filterMap fun name => (u.find? name).map fun v => (idOf v, some v)) t u where
  written := by
    intro w hw
    obtain ⟨name, -, hname⟩ := List.mem_filterMap.1 hw
    obtain ⟨v, hv, rfl⟩ := Option.map_eq_some_iff.1 hname
    change u.find? (idOf v) = some v
    rw [filed name v hv, hv]
  others := by
    intro key hkey
    by_cases hmem : key ∈ names
    · cases hv : u.find? key with
      | none => rw [lost key hv]
      | some v =>
        -- the value is saved under its own identifier, which is the name
        have hw : (idOf v, some v) ∈
            names.filterMap fun name => (u.find? name).map fun v => (idOf v, some v) :=
          List.mem_filterMap.2 ⟨key, hmem, by rw [hv]; rfl⟩
        exact absurd (filed key v hv) (hkey _ hw)
    · exact kept key hmem

/-- Saving all values of a table lays it over what was there. -/
theorem turns_values (filed : ∀ key v, u.find? key = some v → idOf v = key) (t : Table α) :
    Turns (u.values.map fun v => (idOf v, some v)) t (t.mergeWith u) where
  written := by
    intro w hw
    obtain ⟨v, hv, rfl⟩ := List.mem_map.1 hw
    obtain ⟨key, hkey⟩ := mem_values_iff.1 hv
    change (t.mergeWith u).find? (idOf v) = some v
    rw [find?_mergeWith, filed key v hkey, hkey, Option.some_or]
  others := by
    intro key hkey
    have hnone : u.find? key = none := by
      cases hv : u.find? key with
      | none => rfl
      | some v =>
        have hmem : v ∈ u.values := mem_values_iff.2 ⟨key, hv⟩
        exact absurd (filed key v hv) (hkey _ (List.mem_map_of_mem hmem))
    rw [find?_mergeWith, hnone, Option.none_or]

end Saving

/-- What laying one table over another keeps of a property of entries. -/
theorem forall_find?_mergeWith {P : String → α → Prop}
    (ht : ∀ key v, t.find? key = some v → P key v) (hu : ∀ key v, u.find? key = some v → P key v) :
    ∀ key v, (t.mergeWith u).find? key = some v → P key v := by
  intro key v hv
  rw [find?_mergeWith, Option.or_eq_some_iff] at hv
  rcases hv with hv | ⟨-, hv⟩
  · exact hu key v hv
  · exact ht key v hv

/-- A table laid over one that has no other names covers it. -/
theorem mergeWith_eq_right (h : ∀ key, u.find? key = none → t.find? key = none) :
    t.mergeWith u = u := by
  refine ext_find? fun key => ?_
  rw [find?_mergeWith]
  cases hu : u.find? key with
  | none => rw [h key hu, Option.none_or]
  | some v => rw [Option.some_or]

end Table

/-! ### Requests -/

namespace Store

open Table (Turns)

namespace Request

/-- What a request writes among the nodes. -/
def nodeWrite? : Request → Option (NodeId × Option Node)
  | .saveNode node => some (node.id, some node)
  | .removeNode id => some (id, none)
  | _ => none

/-- What a request writes among the edges. -/
def edgeWrite? : Request → Option (EdgeId × Option Edge)
  | .saveEdge edge => some (edge.id, some edge)
  | .removeEdge id => some (id, none)
  | _ => none

theorem id_of_nodeWrite {r : Request} {key : NodeId} {node : Node}
    (h : r.nodeWrite? = some (key, some node)) : node.id = key := by
  cases r <;> cases h
  rfl

theorem id_of_edgeWrite {r : Request} {key : EdgeId} {edge : Edge}
    (h : r.edgeWrite? = some (key, some edge)) : edge.id = key := by
  cases r <;> cases h
  rfl

theorem eq_removeNode {r : Request} {key : NodeId} (h : r.nodeWrite? = some (key, none)) :
    r = .removeNode key := by
  cases r <;> cases h
  rfl

theorem eq_removeEdge {r : Request} {key : EdgeId} (h : r.edgeWrite? = some (key, none)) :
    r = .removeEdge key := by
  cases r <;> cases h
  rfl

/-! What requests of one kind write. -/

section Lists

variable {β γ : Type} {request : β → Request} {write? : Request → Option γ}

theorem filterMap_map_some {w : β → γ} (h : ∀ b, write? (request b) = some (w b)) (l : List β) :
    (l.map request).filterMap write? = l.map w := by
  rw [List.filterMap_map, ← List.filterMap_eq_map]
  exact List.filterMap_congr fun b _ => h b

theorem filterMap_map_none (h : ∀ b, write? (request b) = none) (l : List β) :
    (l.map request).filterMap write? = [] := by
  rw [List.filterMap_map, List.filterMap_eq_nil_iff]
  exact fun b _ => h b

end Lists

@[simp] theorem nodeWrites_saveNode (l : List Node) :
    (l.map saveNode).filterMap nodeWrite? = l.map fun node => (node.id, some node) :=
  filterMap_map_some (fun _ => by rfl) l

@[simp] theorem edgeWrites_saveNode (l : List Node) :
    (l.map saveNode).filterMap edgeWrite? = [] :=
  filterMap_map_none (fun _ => by rfl) l

@[simp] theorem nodeWrites_saveEdge (l : List Edge) :
    (l.map saveEdge).filterMap nodeWrite? = [] :=
  filterMap_map_none (fun _ => by rfl) l

@[simp] theorem edgeWrites_saveEdge (l : List Edge) :
    (l.map saveEdge).filterMap edgeWrite? = l.map fun edge => (edge.id, some edge) :=
  filterMap_map_some (fun _ => by rfl) l

@[simp] theorem nodeWrites_removeNode (ids : List NodeId) :
    (ids.map removeNode).filterMap nodeWrite? = ids.map (·, none) :=
  filterMap_map_some (fun _ => by rfl) ids

@[simp] theorem edgeWrites_removeNode (ids : List NodeId) :
    (ids.map removeNode).filterMap edgeWrite? = [] :=
  filterMap_map_none (fun _ => by rfl) ids

@[simp] theorem nodeWrites_removeEdge (ids : List EdgeId) :
    (ids.map removeEdge).filterMap nodeWrite? = [] :=
  filterMap_map_none (fun _ => by rfl) ids

@[simp] theorem edgeWrites_removeEdge (ids : List EdgeId) :
    (ids.map removeEdge).filterMap edgeWrite? = ids.map (·, none) :=
  filterMap_map_some (fun _ => by rfl) ids

end Request

/-- Makes calls in order, and then more. -/
theorem attemptAll_append {σ α : Type} (calls calls' : List (Call σ α)) (s : σ) :
    attemptAll (calls ++ calls') s =
      ((attemptAll calls s).1 && (attemptAll calls' (attemptAll calls s).2).1,
        (attemptAll calls' (attemptAll calls s).2).2) := by
  induction calls generalizing s with
  | nil => rfl
  | cons call calls ih =>
    rw [List.cons_append, attemptAll, attemptAll]
    dsimp only
    rw [ih, Bool.and_assoc]

namespace Tables

/-- The tables after requests. -/
def after (t : Tables) (requests : List Request) : Tables where
  nodes := t.nodes.writeAll (requests.filterMap Request.nodeWrite?)
  edges := t.edges.writeAll (requests.filterMap Request.edgeWrite?)

/-- Requests that turn both tables into others. -/
structure Turned (requests : List Request) (t u : Tables) : Prop where
  /-- They do so for the nodes. -/
  nodes : Turns (requests.filterMap Request.nodeWrite?) t.nodes u.nodes
  /-- They do so for the edges. -/
  edges : Turns (requests.filterMap Request.edgeWrite?) t.edges u.edges

theorem Turned.after_eq {requests : List Request} {t u : Tables} (h : Turned requests t u) :
    t.after requests = u := by
  unfold after
  rw [h.nodes.writeAll_eq, h.edges.writeAll_eq]

/-- A request to tables never fails and does what it writes. -/
theorem attempt_serve (r : Request) (t : Tables) : attempt (serve r) t = (true, t.after [r]) := by
  cases r <;> rfl

theorem after_cons (t : Tables) (r : Request) (requests : List Request) :
    t.after (r :: requests) = (t.after [r]).after requests := by
  cases r <;> rfl

theorem after_append (t : Tables) (requests requests' : List Request) :
    t.after (requests ++ requests') = (t.after requests).after requests' := by
  unfold after Table.writeAll
  simp only [List.filterMap_append, List.foldl_append]

/-- **Calls that come to requests**, made in order on tables, never fail and do what these write. -/
theorem attemptAll_calls {α β : Type} (call : β → Call Tables α) (request : β → Request)
    (h : ∀ b t, attempt (call b) t = attempt (serve (request b)) t) (l : List β) (t : Tables) :
    attemptAll (l.map call) t = (true, t.after (l.map request)) := by
  induction l generalizing t with
  | nil => rfl
  | cons b l ih =>
    rw [List.map_cons, List.map_cons, attemptAll, h, attempt_serve]
    dsimp only
    rw [ih, ← after_cons]
    rfl

end Tables

end Store

end ResonantGraph
