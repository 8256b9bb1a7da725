import ResonantGraph.Store.Faulty
import ResonantGraph.Proofs.Hypergraph.WellFormed
import ResonantGraph.Proofs.Store.Writes
import ResonantGraph.Proofs.Substrate.Simulation

/-!
# Stores of tables that may fail

A store may keep tables and fail all the same. `Store.MapLike` says of a store, by way of a view of its
states as tables, that it carries every request out on them or refuses it without effect. Which ones it
refuses is up to the store: it may go by the request, by what it holds, or by what came before.

Requests that are made in order leave a `Store.record`. The tables after them are what the requests
that were carried out have made of the tables before (`MapLike.view_serveAll`), so what is stored and
should not be was due to be removed by a request that was refused (`Table.Turns.leftover`).

From a state on which nothing fails, such a store answers like tables (`MapLike.simulation`).
-/

namespace ResonantGraph

/-- Where writes turn one table into another but some of them are not made, a name that the second
table lacks is stored only if it was stored for a reason of its own before, or if a removal was not
made. -/
theorem Table.Turns.leftover {α : Type} {t u stored : Table α}
    {writes made : List (String × Option α)} (h : Turns writes t u) (hmade : ∀ w ∈ made, w ∈ writes)
    {P : String → Prop} (hstored : ∀ key, t.find? key = none → stored.find? key = none ∨ P key)
    {key : String} (hkey : u.find? key = none) :
    (stored.writeAll made).find? key = none ∨ P key ∨ (key, none) ∈ writes ∧ ¬ (key, none) ∈ made := by
  by_cases hwritten : ∃ w ∈ made, w.1 = key
  · -- the write that came last is one of those that lead to the second table
    have hlast := hmade _ (mem_of_find?_writeAll (t := stored) hwritten)
    exact .inl ((h.written _ hlast).symm.trans hkey)
  · -- nothing was written there, so it is what it was: due to be removed, or not due at all
    have hnone : ∀ w ∈ made, w.1 ≠ key := fun w hw heq => hwritten ⟨w, hw, heq⟩
    rw [find?_writeAll_of_forall_ne hnone]
    by_cases hdue : ∃ w ∈ writes, w.1 = key
    · obtain ⟨⟨name, value⟩, hw, rfl⟩ := hdue
      have hvalue : value = none := (h.written _ hw).symm.trans hkey
      subst hvalue
      exact .inr (.inr ⟨hw, fun hin => hnone _ hin rfl⟩)
    · have hother : u.find? key = t.find? key :=
        h.others key fun w hw heq => hdue ⟨w, hw, heq⟩
      rcases hstored key (hother.symm.trans hkey) with hold | hold
      · exact .inl hold
      · exact .inr (.inl hold)

namespace Store

variable {σ : Type} [Store σ]

/-- The state after requests that are made in order. -/
def serveAll (requests : List Request) (s : σ) : σ := requests.foldl (fun s r => (serve r s).2) s

/-- Requests that are made in order, each with whether it was carried out. -/
def record : List Request → σ → List (Request × Bool)
  | [], _ => []
  | r :: requests, s => (r, succeeded (serve r s).1) :: record requests (serve r s).2

/-- The requests of a record that were carried out. -/
def carriedOut (record : List (Request × Bool)) : List Request :=
  (record.filter (·.2)).map (·.1)

/-- The number of requests of a record that were refused. -/
def refusals (record : List (Request × Bool)) : Nat := record.countP fun entry => !entry.2

theorem refusals_cons (r : Request) (done : Bool) (record : List (Request × Bool)) :
    refusals ((r, done) :: record) = refusals record + if done then 0 else 1 := by
  unfold refusals
  rw [List.countP_cons]
  cases done <;> rfl

/-- A store that keeps tables: it carries a request out on them, or refuses it without effect. -/
def MapLike (view : σ → Tables) : Prop :=
  ∀ r s, (serve r s).1 = (serve r (view s)).1 ∧ view (serve r s).2 = (serve r (view s)).2 ∨
    succeeded (serve r s).1 = false ∧ view (serve r s).2 = view s

/-- A state from which on no request is refused. -/
def Reliable (s : σ) : Prop := ∀ requests, ∀ entry ∈ record requests s, entry.2 = true

theorem map_fst_record (requests : List Request) (s : σ) :
    (record requests s).map (·.1) = requests := by
  induction requests generalizing s with
  | nil => rfl
  | cons r requests ih => exact congrArg (r :: ·) (ih _)

theorem mem_of_mem_carriedOut {requests : List Request} {s : σ} {r : Request}
    (h : r ∈ carriedOut (record requests s)) : r ∈ requests := by
  obtain ⟨entry, hentry, rfl⟩ := List.mem_map.1 h
  rw [← map_fst_record requests s]
  exact List.mem_map_of_mem (List.mem_filter.1 hentry).1

/-- A request was carried out, or there is a refusal on record. -/
theorem mem_carriedOut_or {requests : List Request} {s : σ} {r : Request} (h : r ∈ requests) :
    r ∈ carriedOut (record requests s) ∨ (r, false) ∈ record requests s := by
  rw [← map_fst_record requests s] at h
  obtain ⟨⟨r, done⟩, hentry, rfl⟩ := List.mem_map.1 h
  cases done with
  | true => exact .inl (List.mem_map_of_mem (List.mem_filter.2 ⟨hentry, rfl⟩))
  | false => exact .inr hentry

theorem succeeded_serve (r : Request) (t : Tables) : succeeded (serve r t).1 = true :=
  congrArg Prod.fst (Tables.attempt_serve r t)

/-- **Requests to a store that keeps tables** come to those that are carried out. -/
theorem MapLike.view_serveAll {view : σ → Tables} (h : MapLike view) (requests : List Request)
    (s : σ) :
    view (serveAll requests s) = (view s).after (carriedOut (record requests s)) := by
  induction requests generalizing s with
  | nil => rfl
  | cons r requests ih =>
    change view (serveAll requests (serve r s).2) = _
    rw [ih]
    rcases h r s with ⟨hanswer, hview⟩ | ⟨hrefused, hview⟩
    · -- carried out: tables never refuse, so the record has it as such
      have hcarried : carriedOut (record (r :: requests) s) =
          r :: carriedOut (record requests (serve r s).2) := by
        rw [record, hanswer, succeeded_serve]
        rfl
      have hserve : (serve r (view s)).2 = (view s).after [r] :=
        congrArg Prod.snd (Tables.attempt_serve r (view s))
      rw [hcarried, Tables.after_cons, hview, hserve]
    · -- refused: neither the tables nor what was carried out have changed
      have hcarried : carriedOut (record (r :: requests) s) =
          carriedOut (record requests (serve r s).2) := by
        rw [record, hrefused]
        rfl
      rw [hcarried, hview]

/-- Where requests lead from one table to another, a name that the second lacks is left behind only if
its removal was refused. -/
theorem leftover {α : Type} {write? : Request → Option (String × Option α)}
    {requests : List Request} {t u stored : Table α}
    (turned : Table.Turns (requests.filterMap write?) t u) {s : σ} {P : String → Prop}
    (hstored : ∀ key, t.find? key = none → stored.find? key = none ∨ P key) {key : String}
    (hkey : u.find? key = none) :
    (stored.writeAll ((carriedOut (record requests s)).filterMap write?)).find? key = none ∨ P key ∨
      ∃ r, write? r = some (key, none) ∧ (r, false) ∈ record requests s := by
  have hmade : ∀ w ∈ (carriedOut (record requests s)).filterMap write?,
      w ∈ requests.filterMap write? := by
    intro w hw
    obtain ⟨r, hr, hrw⟩ := List.mem_filterMap.1 hw
    exact List.mem_filterMap.2 ⟨r, mem_of_mem_carriedOut hr, hrw⟩
  rcases turned.leftover hmade hstored hkey with hnone | hold | ⟨hdue, hmissed⟩
  · exact .inl hnone
  · exact .inr (.inl hold)
  · obtain ⟨r, hr, hrw⟩ := List.mem_filterMap.1 hdue
    rcases mem_carriedOut_or (s := s) hr with hdone | hrefused
    · exact absurd (List.mem_filterMap.2 ⟨r, hdone, hrw⟩) hmissed
    · exact .inr (.inr ⟨r, hrw, hrefused⟩)

/-! ### When nothing fails any more -/

theorem Reliable.serve {s : σ} (h : Reliable s) (r : Request) :
    succeeded (serve r s).1 = true ∧ Reliable (serve r s).2 :=
  ⟨h [r] _ List.mem_cons_self,
    fun requests entry hentry => h (r :: requests) entry (List.mem_cons_of_mem _ hentry)⟩

/-- A store shows tables, and nothing fails any more. -/
structure Shows (view : σ → Tables) (s : σ) (t : Tables) : Prop where
  /-- These are the tables. -/
  view : view s = t
  /-- No request is refused from here on. -/
  reliable : Reliable s

theorem MapLike.agree {view : σ → Tables} (h : MapLike view) (r : Request) :
    Agree (Shows view) (serve r) (serve r) := by
  rintro s t ⟨rfl, reliable⟩
  obtain ⟨hdone, hnext⟩ := reliable.serve r
  rcases h r s with ⟨hanswer, hview⟩ | ⟨hrefused, -⟩
  · exact ⟨hanswer, hview, hnext⟩
  · -- no request is refused any more
    rw [hdone] at hrefused
    cases hrefused

/-- **A store that keeps tables answers like them** once nothing fails any more. -/
theorem MapLike.simulation {view : σ → Tables} (h : MapLike view) :
    Simulation (Shows view) (fun _ => True) fun _ => True where
  saveNode node _ := agree_of_replyWith (fun _ _ _ => rfl) (h.agree (.saveNode node))
  saveEdge edge _ := agree_of_replyWith (fun _ _ _ => rfl) (h.agree (.saveEdge edge))
  loadNode id := agree_of_replyWith (fun _ _ => Reply.node.inj) (h.agree (.loadNode id))
  loadEdge id := agree_of_replyWith (fun _ _ => Reply.edge.inj) (h.agree (.loadEdge id))
  removeNode id := agree_of_replyWith (fun _ _ => Reply.removed.inj) (h.agree (.removeNode id))
  removeEdge id := agree_of_replyWith (fun _ _ => Reply.removed.inj) (h.agree (.removeEdge id))
  listNodes := agree_of_replyWith (fun _ _ => Reply.listed.inj) (h.agree .listNodes)
  listEdges := agree_of_replyWith (fun _ _ => Reply.listed.inj) (h.agree .listEdges)
  loadedNode _ _ _ _ _ _ := trivial
  loadedEdge _ _ _ _ _ _ := trivial
  activated _ _ _ := trivial

/-! ### A store that fails on demand -/

theorem Faulty.guarded_cases {α : Type} (name id : String) (call : Call Tables α)
    (form : α → Reply) (s : Faulty) :
    (replyWith form (guarded name id call) s).1 = (replyWith form call s.tables).1 ∧
        (replyWith form (guarded name id call) s).2.tables = (replyWith form call s.tables).2 ∨
      succeeded (replyWith form (guarded name id call) s).1 = false ∧
        (replyWith form (guarded name id call) s).2.tables = s.tables := by
  unfold replyWith guarded
  cases s.refused.contains name || s.refused.contains (name ++ ":" ++ id) with
  | true => exact .inr ⟨rfl, rfl⟩
  | false => exact .inl ⟨rfl, rfl⟩

/-- A store that refuses some calls by name keeps tables all the same. -/
theorem Faulty.mapLike : MapLike Faulty.tables := by
  intro r s
  cases r <;> exact guarded_cases ..

/-! ### A store that fails on schedule -/

/-- Tables, and a schedule of failures. -/
structure Scripted where
  /-- What is stored. -/
  tables : Tables := {}
  /-- Whether each of the next calls is carried out. All are when the schedule is over. -/
  schedule : List Bool := []
deriving DecidableEq

namespace Scripted

/-- Makes a call on the tables if it is its turn. -/
def guarded {α : Type} (name id : String) (call : Call Tables α) : Call Scripted α := fun s =>
  match s.schedule with
  | false :: schedule => (.error (.io (.refused name id)), { s with schedule })
  | schedule =>
    let (answer, tables) := call s.tables
    (answer, { tables, schedule := schedule.tail })

end Scripted

instance : Store Scripted where
  saveNode node := Scripted.guarded "save_node" node.id (saveNode node)
  saveEdge edge := Scripted.guarded "save_edge" edge.id (saveEdge edge)
  loadNode id := Scripted.guarded "load_node" id (loadNode id)
  loadEdge id := Scripted.guarded "load_edge" id (loadEdge id)
  removeNode id := Scripted.guarded "remove_node" id (removeNode id)
  removeEdge id := Scripted.guarded "remove_edge" id (removeEdge id)
  listNodes := Scripted.guarded "list_node_ids" "" listNodes
  listEdges := Scripted.guarded "list_edge_ids" "" listEdges

namespace Scripted

theorem mapLike : MapLike Scripted.tables := by
  -- the schedule is over, or refuses the next call, or lets it through
  rintro r ⟨tables, _ | ⟨_ | _, schedule⟩⟩
  · exact .inl (by cases r <;> exact ⟨rfl, rfl⟩)
  · exact .inr (by cases r <;> exact ⟨rfl, rfl⟩)
  · exact .inl (by cases r <;> exact ⟨rfl, rfl⟩)

/-- Once no failure is scheduled, nothing fails. -/
theorem reliable {s : Scripted} (h : s.schedule = []) : Reliable s := by
  intro requests
  induction requests generalizing s with
  | nil => exact fun entry hentry => by cases hentry
  | cons r requests ih =>
    obtain ⟨tables, schedule⟩ := s
    cases (h : schedule = [])
    have hnext : (serve r ({ tables } : Scripted)).2.schedule = [] := by cases r <;> rfl
    have hdone : succeeded (serve r ({ tables } : Scripted)).1 = true := by cases r <;> rfl
    exact List.forall_mem_cons.2 ⟨hdone, ih hnext⟩

end Scripted

end Store

/-! ### What mirroring leaves -/

namespace Substrate

variable {σ : Type} [Store σ]

theorem store_settle (s : Substrate σ) (g : Hypergraph) (requests : List Store.Request) :
    (s.settle g requests).store = Store.serveAll requests s.store := by
  have hall : ∀ s : Substrate σ, (s.mirrorAll (requests.map Store.serve)).store =
      Store.serveAll requests s.store := by
    induction requests with
    | nil => exact fun _ => rfl
    | cons r requests ih => exact fun s => ih (s.mirror (Store.serve r))
  exact hall (s.withGraph g)

/-- Every refusal is counted. -/
theorem mirrorFailures_settle (s : Substrate σ) (g : Hypergraph) (requests : List Store.Request) :
    (s.settle g requests).mirrorFailures =
      s.mirrorFailures + UInt64.ofNat (Store.refusals (Store.record requests s.store)) := by
  -- for any substrate, so that the induction may go on from the one after the first request
  have hall : ∀ s : Substrate σ, (s.mirrorAll (requests.map Store.serve)).mirrorFailures =
      s.mirrorFailures + UInt64.ofNat (Store.refusals (Store.record requests s.store)) := by
    induction requests with
    | nil => exact fun s => (UInt64.add_zero s.mirrorFailures).symm
    | cons r requests ih =>
      intro s
      have hfirst : (s.mirror (Store.serve r)).mirrorFailures =
          if Store.succeeded (Store.serve r s.store).1 then s.mirrorFailures
          else s.mirrorFailures + 1 := rfl
      change ((s.mirror (Store.serve r)).mirrorAll (requests.map Store.serve)).mirrorFailures = _
      rw [ih, hfirst, Store.record, Store.refusals_cons]
      cases Store.succeeded (Store.serve r s.store).1 with
      | true => rfl
      | false => exact add_one_add_ofNat ..
  exact hall (s.withGraph g)

end Substrate

end ResonantGraph
