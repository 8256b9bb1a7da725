import ResonantGraph.Proofs.Store.Encoded
import ResonantGraph.Proofs.Store.Logged
import ResonantGraph.Proofs.Substrate.Tables

/-!
# Stores that are maps when they work

How a store behaves when a call fails is nobody's promise: it may have done the work, half of it, or
none. What a client may count on is the calls that succeed. A store *keeps* two tables (`Store.Keeps`) if
every call that succeeds acts on them as on maps: a save puts the element under its identifier, a removal
takes one away, a listing names the identifiers in some order, and a load finds what is there. What is
there need not be an element. Under some identifiers there may be something that no load can read, and
then every load of it fails.

Whether calls have failed is read off the log of a watched store. A log is *clean* if no call on it has
failed, and every way of making calls on a watched store that is used here says, in its verdict, whether
it kept the log clean (`Store.Logged.clean_attemptAll`, `Store.Logged.clean_prune`).
-/

namespace ResonantGraph

theorem Table.values_mapValues {α β : Type} (t : Table α) (f : String → α → β) :
    (t.mapValues f).values = t.entries.map fun e => f e.1 e.2 := by
  unfold values mapValues
  rw [List.map_map]
  rfl

namespace Store

variable {σ α β γ : Type}

/-! ### Calls that succeed -/

/-- A call that, if it succeeds, makes a write to one table of a store and leaves another alone. -/
def Writes (table : σ → Table α) (other : σ → Table β) (w : String × Option α) (call : Call σ γ) :
    Prop :=
  ∀ s, succeeded (call s).1 = true →
    table (call s).2 = (table s).write w ∧ other (call s).2 = other s

/-- A call that, if it succeeds, tells something of one table of a store and leaves the store alone. -/
def Tells (table : σ → Table α) (other : σ → Table β) (truth : γ → Table α → Prop)
    (call : Call σ γ) : Prop :=
  ∀ s v, (call s).1 = .ok v →
    truth v (table s) ∧ table (call s).2 = table s ∧ other (call s).2 = other s

/-- An answer that names exactly the identifiers under which something is stored. -/
def Names (ids : List String) (t : Table α) : Prop := ∀ id, id ∈ ids ↔ t.contains id = true

/-- An answer that is what is stored under an identifier, if it can be read at all. -/
def Finds (id : String) (found : Option α) (t : Table (Option α)) : Prop :=
  t.find? id = found.map some

/-- A store that keeps tables of what can and what cannot be read, as far as its calls succeed and the
elements that are saved have given properties. -/
structure Keeps [Store σ] (nodes : σ → Table (Option Node)) (edges : σ → Table (Option Edge))
    (P : Node → Prop) (Q : Edge → Prop) : Prop where
  saveNode : ∀ node, P node → Writes nodes edges (node.id, some (some node)) (saveNode node)
  saveEdge : ∀ edge, Q edge → Writes edges nodes (edge.id, some (some edge)) (saveEdge edge)
  loadNode : ∀ id, Tells nodes edges (Finds id) (loadNode id)
  loadEdge : ∀ id, Tells edges nodes (Finds id) (loadEdge id)
  removeNode : ∀ id, Writes nodes edges (id, none) (removeNode id)
  removeEdge : ∀ id, Writes edges nodes (id, none) (removeEdge id)
  listNodes : Tells nodes edges Names listNodes
  listEdges : Tells edges nodes Names listEdges

section Calls

variable {table : σ → Table α} {other : σ → Table β}

theorem attemptAll_writes {ι : Type} {call : ι → Call σ γ} {w : ι → String × Option α} {l : List ι}
    (h : ∀ i ∈ l, Writes table other (w i) (call i)) {s : σ}
    (hdone : (attemptAll (l.map call) s).1 = true) :
    table (attemptAll (l.map call) s).2 = (table s).writeAll (l.map w) ∧
      other (attemptAll (l.map call) s).2 = other s := by
  induction l generalizing s with
  | nil => exact ⟨rfl, rfl⟩
  | cons i l ih =>
    obtain ⟨hi, hl⟩ := List.forall_mem_cons.1 h
    have hboth : succeeded (call i s).1 = true ∧
        (attemptAll (l.map call) (call i s).2).1 = true :=
      Bool.and_eq_true_iff.1 hdone
    -- the first call writes, and the others go on from there
    obtain ⟨htable, hother⟩ := hi s hboth.1
    obtain ⟨htables, hothers⟩ := ih hl hboth.2
    change table (attemptAll (l.map call) (call i s).2).2 = _ ∧
      other (attemptAll (l.map call) (call i s).2).2 = _
    rw [htables, hothers, htable, hother]
    exact ⟨rfl, rfl⟩

/-- Pruning that succeeds leaves what is to be kept. -/
theorem prune_filter {listing : Call σ (List String)} (hlisting : Tells table other Names listing)
    {remove : String → Call σ Bool} (hremove : ∀ id, Writes table other (id, none) (remove id))
    {keep : String → Bool} {s : σ} (hdone : (Substrate.prune listing keep remove s).1 = true) :
    table (Substrate.prune listing keep remove s).2 = (table s).filter (fun id _ => keep id) ∧
      other (Substrate.prune listing keep remove s).2 = other s := by
  have hlisted := hlisting s
  unfold Substrate.prune at hdone ⊢
  rcases hs : listing s with ⟨ids, s'⟩
  rw [hs] at hdone hlisted
  cases ids with
  | error e => cases hdone
  | ok ids =>
    obtain ⟨names, htable, hother⟩ := hlisted ids rfl
    obtain ⟨hpruned, hrest⟩ := attemptAll_writes (fun id _ => hremove id) hdone
    dsimp only at htable hother hpruned hrest ⊢
    rw [hpruned, hrest, htable, hother]
    exact ⟨(Tables.turns_filter (table s) keep names).writeAll_eq, rfl⟩

/-- Saving the values of a table lays it over what was there. -/
theorem attemptAll_save {table : σ → Table (Option α)} {save : α → Call σ γ} {idOf : α → String}
    {u : Table α} (hsave : ∀ v ∈ u.values, Writes table other (idOf v, some (some v)) (save v))
    (filed : ∀ key v, u.find? key = some v → idOf v = key) {s : σ}
    (hdone : (attemptAll (u.values.map save) s).1 = true) :
    table (attemptAll (u.values.map save) s).2 =
        (table s).mergeWith (u.mapValues fun _ v => some v) ∧
      other (attemptAll (u.values.map save) s).2 = other s := by
  obtain ⟨htable, hother⟩ := attemptAll_writes hsave hdone
  -- what is saved is readable, and filed as it was
  have filed' : ∀ key (held : Option α), (u.mapValues fun _ v => some v).find? key = some held →
      (held.map idOf).getD "" = key := by
    intro key held hheld
    rw [Table.find?_mapValues, Option.map_eq_some_iff] at hheld
    obtain ⟨v, hv, rfl⟩ := hheld
    exact filed key v hv
  refine ⟨?_, hother⟩
  calc table (attemptAll (u.values.map save) s).2
      _ = (table s).writeAll (u.values.map fun v => (idOf v, some (some v))) := htable
      _ = (table s).writeAll ((u.mapValues fun _ v => some v).values.map fun held =>
            ((held.map idOf).getD "", some held)) := by
        rw [Table.values_mapValues, List.map_map, Table.values, List.map_map]
        rfl
      _ = (table s).mergeWith (u.mapValues fun _ v => some v) :=
        (Table.turns_values filed' (table s)).writeAll_eq

end Calls

/-! ### Clean logs -/

namespace Logged

/-- No call on the log has failed. -/
def Clean (l : Logged σ) : Prop := ∀ entry ∈ l.log, entry.2 = true

/-- A call on a watched store that keeps the log clean exactly if it succeeds. -/
def Noted (call : Call (Logged σ) α) : Prop :=
  ∀ l, (call l).2.Clean ↔ l.Clean ∧ succeeded (call l).1 = true

theorem noted_noted (r : Request) (call : Call σ α) : Noted (noted r call) := by
  intro l
  change (∀ entry ∈ l.log ++ [(r, succeeded (call l.store).1)], entry.2 = true) ↔ _
  rw [List.forall_mem_append, List.forall_mem_singleton]
  rfl

/-- Calls in sequence keep the log clean exactly if all succeed. -/
theorem clean_attemptAll {ι : Type} {call : ι → Call (Logged σ) α} (h : ∀ i, Noted (call i))
    (l : List ι) (s : Logged σ) :
    (attemptAll (l.map call) s).2.Clean ↔ s.Clean ∧ (attemptAll (l.map call) s).1 = true := by
  induction l generalizing s with
  | nil => exact (and_iff_left rfl).symm
  | cons i l ih =>
    change (attemptAll (l.map call) (call i s).2).2.Clean ↔ s.Clean ∧
      (succeeded (call i s).1 && (attemptAll (l.map call) (call i s).2).1) = true
    rw [ih, h, Bool.and_eq_true, and_assoc]

theorem clean_prune {listing : Call (Logged σ) (List String)} (hlisting : Noted listing)
    {remove : String → Call (Logged σ) Bool} (hremove : ∀ id, Noted (remove id))
    (keep : String → Bool) (s : Logged σ) :
    (Substrate.prune listing keep remove s).2.Clean ↔
      s.Clean ∧ (Substrate.prune listing keep remove s).1 = true := by
  have hlisted := hlisting s
  unfold Substrate.prune
  rcases hs : listing s with ⟨ids, s'⟩
  rw [hs] at hlisted
  dsimp only at hlisted ⊢
  cases ids with
  | error e => exact hlisted
  | ok ids =>
    -- the listing has succeeded, so it is up to the removals
    have hclean : s'.Clean ↔ s.Clean := hlisted.trans (and_iff_left rfl)
    dsimp only
    rw [clean_attemptAll hremove, hclean]

/-- Loads that keep the log clean give what is there and can be read. -/
theorem loadEach_of_clean {table : Logged σ → Table (Option α)} {other : Logged σ → Table β}
    {call : String → Call (Logged σ) (Option α)} (hnoted : ∀ id, Noted (call id))
    (hcall : ∀ id, Tells table other (Finds id) (call id)) {ids : List String} {s : Logged σ}
    (hclean : (loadEach call ids s).2.Clean) :
    (loadEach call ids s).1 = ids.filterMap (fun id => ((table s).find? id).join) ∧
      table (loadEach call ids s).2 = table s ∧ other (loadEach call ids s).2 = other s ∧
      s.Clean := by
  induction ids generalizing s with
  | nil => exact ⟨rfl, rfl, rfl, hclean⟩
  | cons id ids ih =>
    have hfirst := hnoted id s
    have hfound := hcall id s
    unfold loadEach at hclean ⊢
    rcases hs : call id s with ⟨answer, s'⟩
    rw [hs] at hclean hfirst hfound
    dsimp only at hclean hfirst hfound ⊢
    have hrest : (loadEach call ids s').2.Clean := by
      rcases answer with _ | _ | v <;> exact hclean
    obtain ⟨hothers, htable, hother, hclean'⟩ := ih hrest
    obtain ⟨hs', hdone⟩ := hfirst.1 hclean'
    cases answer with
    | error e => cases hdone
    | ok found =>
      -- the load that succeeded found what is there, and left the store alone
      obtain ⟨finds, htable', hother'⟩ := hfound found rfl
      rw [htable'] at htable hothers
      rw [hother'] at hother
      have hjoin : ((table s).find? id).join = found := by
        rw [finds]
        cases found <;> rfl
      rw [List.filterMap_cons, hjoin]
      cases found with
      | none => exact ⟨hothers, htable, hother, hs'⟩
      | some v => exact ⟨congrArg (v :: ·) hothers, htable, hother, hs'⟩

end Logged

section Watched

variable {table : σ → Table α} {other : σ → Table β}

theorem Writes.noted {w : String × Option α} {call : Call σ γ} (h : Writes table other w call)
    (r : Request) :
    Writes (fun l => table l.store) (fun l => other l.store) w (Logged.noted r call) :=
  fun l hdone => h l.store hdone

theorem Tells.noted {truth : γ → Table α → Prop} {call : Call σ γ}
    (h : Tells table other truth call) (r : Request) :
    Tells (fun l => table l.store) (fun l => other l.store) truth (Logged.noted r call) :=
  fun l v hv => h l.store v hv

end Watched

variable [Store σ]

/-- A watched store keeps what the plain one does. -/
theorem Keeps.logged {nodes : σ → Table (Option Node)} {edges : σ → Table (Option Edge)}
    {P : Node → Prop} {Q : Edge → Prop} (h : Keeps nodes edges P Q) :
    Keeps (fun l : Logged σ => nodes l.store) (fun l => edges l.store) P Q where
  saveNode node hnode := (h.saveNode node hnode).noted _
  saveEdge edge hedge := (h.saveEdge edge hedge).noted _
  loadNode id := (h.loadNode id).noted _
  loadEdge id := (h.loadEdge id).noted _
  removeNode id := (h.removeNode id).noted _
  removeEdge id := (h.removeEdge id).noted _
  listNodes := h.listNodes.noted _
  listEdges := h.listEdges.noted _

/-! ### Stores that keep tables -/

/-- The nodes of tables, all of them readable. -/
def Tables.heldNodes (t : Tables) : Table (Option Node) := t.nodes.mapValues fun _ => some

/-- The edges of tables, all of them readable. -/
def Tables.heldEdges (t : Tables) : Table (Option Edge) := t.edges.mapValues fun _ => some

omit [Store σ] in
theorem succeeded_replyWith (form : α → Reply) (call : Call σ α) (s : σ) :
    succeeded (replyWith form call s).1 = succeeded (call s).1 := by
  unfold replyWith
  rcases call s with ⟨_ | _, _⟩ <;> rfl

namespace MapLike

variable {view : σ → Tables}

theorem view_of_succeeded (h : MapLike view) {r : Request} {s : σ}
    (hdone : succeeded (serve r s).1 = true) : view (serve r s).2 = (serve r (view s)).2 := by
  rcases h r s with ⟨-, hview⟩ | ⟨hrefused, -⟩
  · exact hview
  · exact absurd (hdone.symm.trans hrefused) Bool.noConfusion

theorem answer_of_ok (h : MapLike view) {r : Request} {s : σ} {reply : Reply}
    (hreply : (serve r s).1 = .ok reply) :
    (serve r (view s)).1 = .ok reply ∧ view (serve r s).2 = (serve r (view s)).2 := by
  rcases h r s with ⟨hanswer, hview⟩ | ⟨hrefused, -⟩
  · exact ⟨hanswer.symm.trans hreply, hview⟩
  · rw [hreply] at hrefused
    cases hrefused

/-- **A store that carries out or refuses** keeps tables in which everything can be read. -/
theorem keeps (h : MapLike view) :
    Keeps (fun s => (view s).heldNodes) (fun s => (view s).heldEdges) (fun _ => True)
      fun _ => True where
  saveNode node _ s hdone := by
    have hview : view (saveNode node s).2 =
        { view s with nodes := (view s).nodes.insert node.id node } :=
      h.view_of_succeeded (r := .saveNode node) ((succeeded_replyWith ..).trans hdone)
    dsimp only
    rw [hview]
    exact ⟨Table.mapValues_insert .., rfl⟩
  saveEdge edge _ s hdone := by
    have hview : view (saveEdge edge s).2 =
        { view s with edges := (view s).edges.insert edge.id edge } :=
      h.view_of_succeeded (r := .saveEdge edge) ((succeeded_replyWith ..).trans hdone)
    dsimp only
    rw [hview]
    exact ⟨Table.mapValues_insert .., rfl⟩
  removeNode id s hdone := by
    have hview : view (removeNode id s).2 = { view s with nodes := (view s).nodes.erase id } :=
      h.view_of_succeeded (r := .removeNode id) ((succeeded_replyWith ..).trans hdone)
    dsimp only
    rw [hview]
    exact ⟨Table.mapValues_erase .., rfl⟩
  removeEdge id s hdone := by
    have hview : view (removeEdge id s).2 = { view s with edges := (view s).edges.erase id } :=
      h.view_of_succeeded (r := .removeEdge id) ((succeeded_replyWith ..).trans hdone)
    dsimp only
    rw [hview]
    exact ⟨Table.mapValues_erase .., rfl⟩
  loadNode id s found hfound := by
    have hreply : (serve (.loadNode id) s).1 = .ok (.node found) := congrArg (Except.map _) hfound
    obtain ⟨hanswer, hview⟩ := h.answer_of_ok hreply
    have hsame : view (loadNode id s).2 = view s := hview
    refine ⟨?_, congrArg Tables.heldNodes hsame, congrArg Tables.heldEdges hsame⟩
    change ((view s).nodes.mapValues _).find? id = found.map some
    rw [Table.find?_mapValues, Reply.node.inj (Except.ok.inj hanswer)]
  loadEdge id s found hfound := by
    have hreply : (serve (.loadEdge id) s).1 = .ok (.edge found) := congrArg (Except.map _) hfound
    obtain ⟨hanswer, hview⟩ := h.answer_of_ok hreply
    have hsame : view (loadEdge id s).2 = view s := hview
    refine ⟨?_, congrArg Tables.heldEdges hsame, congrArg Tables.heldNodes hsame⟩
    change ((view s).edges.mapValues _).find? id = found.map some
    rw [Table.find?_mapValues, Reply.edge.inj (Except.ok.inj hanswer)]
  listNodes s ids hids := by
    have hreply : (serve .listNodes s).1 = .ok (.listed ids) := congrArg (Except.map _) hids
    obtain ⟨hanswer, hview⟩ := h.answer_of_ok hreply
    have hsame : view (listNodes s).2 = view s := hview
    have hkeys : (view s).nodes.keys = ids := Reply.listed.inj (Except.ok.inj hanswer)
    refine ⟨fun id => ?_, congrArg Tables.heldNodes hsame, congrArg Tables.heldEdges hsame⟩
    change id ∈ ids ↔ ((view s).nodes.mapValues fun _ => some).contains id = true
    rw [← hkeys, Table.mem_keys_iff, Table.contains_mapValues]
  listEdges s ids hids := by
    have hreply : (serve .listEdges s).1 = .ok (.listed ids) := congrArg (Except.map _) hids
    obtain ⟨hanswer, hview⟩ := h.answer_of_ok hreply
    have hsame : view (listEdges s).2 = view s := hview
    have hkeys : (view s).edges.keys = ids := Reply.listed.inj (Except.ok.inj hanswer)
    refine ⟨fun id => ?_, congrArg Tables.heldEdges hsame, congrArg Tables.heldNodes hsame⟩
    change id ∈ ids ↔ ((view s).edges.mapValues fun _ => some).contains id = true
    rw [← hkeys, Table.mem_keys_iff, Table.contains_mapValues]

end MapLike

end Store

/-- The value at the front of some bytes, if there is one. -/
def Codec.decode? {α : Type} (c : Codec α) (data : List UInt8) : Option α :=
  match c.read data with
  | .ok (v, _) => some v
  | .error _ => Option.none

theorem Codec.ReadsBack.decode?_write {α : Type} {c : Codec α} {v : α} (h : c.ReadsBack v) :
    c.decode? (c.write v) = some v := by
  have hread := h []
  rw [List.append_nil] at hread
  unfold decode?
  rw [hread]

namespace Store.Blobs

/-- What a store of bytes holds among the nodes, whether it can be read or not. -/
def heldNodes (s : Blobs) : Table (Option Node) := s.nodes.mapValues fun _ => Codec.node.decode?

/-- What a store of bytes holds among the edges, whether it can be read or not. -/
def heldEdges (s : Blobs) : Table (Option Edge) := s.edges.mapValues fun _ => Codec.edge.decode?

theorem finds_of_readUnder {α : Type} {codec : Codec α} {table : Table (List UInt8)} {name : String}
    {found : Option α} (h : readUnder codec table name = .ok found) :
    Finds name found (table.mapValues fun _ => codec.decode?) := by
  unfold readUnder at h
  unfold Finds Codec.decode?
  rw [Table.find?_mapValues]
  cases hblob : table.find? name with
  | none =>
    rw [hblob] at h
    cases h
    rfl
  | some blob =>
    rw [hblob] at h
    dsimp only at h
    rcases hread : codec.read blob with e | ⟨v, rest⟩
    · rw [hread] at h
      cases h
    · rw [hread] at h
      cases h
      rw [Option.map_some, hread]
      rfl

/-- **A store of bytes** keeps what its bytes can be read as, as far as what is saved reads back. -/
theorem keeps : Keeps heldNodes heldEdges Codec.node.ReadsBack Codec.edge.ReadsBack where
  saveNode node hnode s _ := by
    refine ⟨?_, rfl⟩
    change (s.nodes.insert node.id (Codec.node.write node)).mapValues _ =
      s.heldNodes.insert node.id (some node)
    rw [Table.mapValues_insert, hnode.decode?_write]
    rfl
  saveEdge edge hedge s _ := by
    refine ⟨?_, rfl⟩
    change (s.edges.insert edge.id (Codec.edge.write edge)).mapValues _ =
      s.heldEdges.insert edge.id (some edge)
    rw [Table.mapValues_insert, hedge.decode?_write]
    rfl
  removeNode id s _ := ⟨Table.mapValues_erase .., rfl⟩
  removeEdge id s _ := ⟨Table.mapValues_erase .., rfl⟩
  loadNode id s found hfound := ⟨finds_of_readUnder hfound, rfl, rfl⟩
  loadEdge id s found hfound := ⟨finds_of_readUnder hfound, rfl, rfl⟩
  listNodes s ids hids := by
    refine ⟨fun id => ?_, rfl, rfl⟩
    rw [← Except.ok.inj hids, Table.mem_keys_iff, heldNodes, Table.contains_mapValues]
  listEdges s ids hids := by
    refine ⟨fun id => ?_, rfl, rfl⟩
    rw [← Except.ok.inj hids, Table.mem_keys_iff, heldEdges, Table.contains_mapValues]

end Store.Blobs

end ResonantGraph
