import ResonantGraph.Proofs.Hypergraph.Alike
import ResonantGraph.Proofs.Hypergraph.WellFormed
import Mathlib.Data.List.Chain

/-!
# Who is in reach

A node is *within* a number of hops of another if a chain of at most so many steps leads there, each step
between two members of one edge (`Hypergraph.Within`). What `Hypergraph.reachable` collects, round by round,
are the nodes within the given bound, the source left out (`Hypergraph.mem_reachable_iff`).

The same search can be made with a queue in the place of rounds: take the first node that waits, mark what it
is connected to and has not been seen, and let that wait at the end, one hop further away
(`Hypergraph.advance`). A node is marked when it is found, and never looked at again with fewer hops. That
nothing is lost by this rests on the order: those that wait are of one distance, or of that and the next one,
so a pass over the queue is a round (`Hypergraph.exists_iterate_pass`). The search ends after one turn for
each node that it sees, with what the rounds collect (`Hypergraph.exists_iterate_advance`).
-/

namespace ResonantGraph

namespace Hypergraph

variable {g : Hypergraph} {source u v : NodeId}

/-! ### Chains of edges -/

/-- Two nodes are members of one edge. -/
def ShareEdge (g : Hypergraph) (u v : NodeId) : Prop :=
  ∃ key edge, g.edges.find? key = some edge ∧ u ∈ edge.members ∧ v ∈ edge.members

/-- A chain of at most the given number of steps leads from one node to another. The path lists the nodes
after the first. -/
def Within (g : Hypergraph) (hops : Nat) (u v : NodeId) : Prop :=
  ∃ path : List NodeId, path.length ≤ hops ∧ (u :: path).IsChain g.ShareEdge ∧
    (u :: path).getLast (List.cons_ne_nil _ _) = v

theorem mem_connected_iff_shareEdge : v ∈ g.connected u ↔ v ≠ u ∧ g.ShareEdge u v := mem_connected

theorem within_zero : g.Within 0 u v ↔ v = u := by
  constructor
  · rintro ⟨path, hlength, -, rfl⟩
    rw [Nat.le_zero, List.length_eq_zero_iff] at hlength
    subst hlength
    rfl
  · rintro rfl
    exact ⟨[], Nat.le_refl 0, .singleton v, rfl⟩

theorem Within.mono {m n : Nat} (h : g.Within m u v) (hmn : m ≤ n) : g.Within n u v := by
  obtain ⟨path, hlength, hchain, hlast⟩ := h
  exact ⟨path, hlength.trans hmn, hchain, hlast⟩

/-- A chain is made longer at its end. -/
theorem Within.step {hops : Nat} {w : NodeId} (h : g.Within hops u v) (hw : g.ShareEdge v w) :
    g.Within (hops + 1) u w := by
  obtain ⟨path, hlength, hchain, rfl⟩ := h
  refine ⟨path ++ [w], ?_, ?_, ?_⟩
  · rw [List.length_append, List.length_singleton]
    exact Nat.succ_le_succ hlength
  · rw [← List.cons_append, List.isChain_append]
    refine ⟨hchain, .singleton w, fun x hx y hy => ?_⟩
    rw [List.getLast?_eq_some_getLast (List.cons_ne_nil _ _)] at hx
    cases hx
    cases hy
    exact hw
  · exact List.getLast_append_singleton (u :: path)

/-- What is within one hop more is within as many hops, or connected to what is. -/
theorem within_succ {hops : Nat} :
    g.Within (hops + 1) u v ↔ g.Within hops u v ∨ ∃ w, g.Within hops u w ∧ v ∈ g.connected w := by
  constructor
  · rintro ⟨path, hlength, hchain, hlast⟩
    rcases List.eq_nil_or_concat path with rfl | ⟨front, last, rfl⟩
    · exact .inl ⟨[], Nat.zero_le _, hchain, hlast⟩
    rw [List.concat_eq_append] at hlength hchain hlast
    -- the chain without its last node, and the step to that
    have hlast' : last = v := by
      rw [← hlast]
      exact (List.getLast_append_singleton (u :: front)).symm
    rw [hlast', ← List.cons_append, List.isChain_append] at hchain
    obtain ⟨hfront, -, hstep⟩ := hchain
    have hshort : g.Within hops u ((u :: front).getLast (List.cons_ne_nil _ _)) := by
      rw [List.length_append, List.length_singleton] at hlength
      exact ⟨front, Nat.le_of_succ_le_succ hlength, hfront, rfl⟩
    have hshare := hstep _ (List.getLast?_eq_some_getLast (List.cons_ne_nil u front)) v rfl
    by_cases heq : v = (u :: front).getLast (List.cons_ne_nil _ _)
    · -- a step that stays where it is
      rw [← heq] at hshort
      exact .inl hshort
    · exact .inr ⟨_, hshort, mem_connected_iff_shareEdge.2 ⟨heq, hshare⟩⟩
  · rintro (h | ⟨w, hw, hv⟩)
    · exact h.mono (Nat.le_succ hops)
    · exact hw.step (mem_connected_iff_shareEdge.1 hv).2

/-- If one hop more finds nothing new, more hops do not either. -/
theorem Within.of_stable {hops : Nat} (stable : ∀ v, g.Within (hops + 1) u v → g.Within hops u v)
    (more : Nat) (h : g.Within (hops + more) u v) : g.Within hops u v := by
  induction more generalizing v with
  | zero => exact h
  | succ more ih =>
    rcases within_succ.1 h with h | ⟨w, hw, hv⟩
    · exact ih h
    · exact stable v (within_succ.2 (.inr ⟨w, ih hw, hv⟩))

/-- All that a stored node leads to is stored. -/
theorem MembersStored.hasNode_of_within (h : g.MembersStored) {hops : Nat} (hu : g.hasNode u = true)
    (hv : g.Within hops u v) : g.hasNode v = true := by
  induction hops generalizing v with
  | zero => exact within_zero.1 hv ▸ hu
  | succ hops ih =>
    rcases within_succ.1 hv with hv | ⟨w, -, hv⟩
    · exact ih hv
    · obtain ⟨-, key, edge, hedge, -, hmember⟩ := mem_connected_iff_shareEdge.1 hv
      exact h key edge hedge v hmember

/-! ### Search by rounds -/

/-- A search that has got so many hops from its source: it has seen what is within that, and what it has
seen before the last round it has left behind. -/
structure Explored (g : Hypergraph) (source : NodeId) (hops : Nat) (seen last : NameSet) : Prop where
  /-- What is seen is what is within the hops. -/
  mem_seen : ∀ v, v ∈ seen ↔ g.Within hops source v
  /-- The last finds are seen. -/
  last_seen : ∀ v ∈ last, v ∈ seen
  /-- The connected nodes of earlier finds are seen. -/
  earlier : ∀ v ∈ seen, v ∉ last → ∀ w ∈ g.connected v, w ∈ seen

theorem mem_connectedToAny {ids : NameSet} : v ∈ g.connectedToAny ids ↔ ∃ w ∈ ids, v ∈ g.connected w := by
  unfold connectedToAny
  simp only [NameSet.mem_unions, List.mem_map, exists_exists_and_eq_and, NameSet.mem_names]

/-- The connected nodes of the last finds that are new. -/
theorem mem_found {seen last : NameSet} :
    v ∈ (g.connectedToAny last).filter (fun id _ => id ∉ seen) ↔
      (∃ w ∈ last, v ∈ g.connected w) ∧ v ∉ seen := by
  rw [NameSet.mem_filter, mem_connectedToAny, decide_eq_true_iff]

theorem explored_start (g : Hypergraph) (source : NodeId) :
    g.Explored source 0 (.ofNames [source]) (.ofNames [source]) where
  mem_seen v := by rw [NameSet.mem_ofNames, List.mem_singleton, within_zero]
  last_seen _ hv := hv
  earlier _ hv hnot := absurd hv hnot

namespace Explored

variable {hops : Nat} {seen last found : NameSet}

/-- What is within one hop more was seen, or is new and connected to a last find. -/
theorem within_succ_iff (h : g.Explored source hops seen last)
    (hfound : ∀ v, v ∈ found ↔ (∃ w ∈ last, v ∈ g.connected w) ∧ v ∉ seen) (v : NodeId) :
    g.Within (hops + 1) source v ↔ v ∈ seen ∨ v ∈ found := by
  rw [within_succ, ← h.mem_seen, hfound]
  constructor
  · rintro (hv | ⟨w, hw, hv⟩)
    · exact .inl hv
    rw [← h.mem_seen] at hw
    by_cases hlast : w ∈ last
    · exact or_iff_not_imp_left.2 fun hnew => ⟨⟨w, hlast, hv⟩, hnew⟩
    · exact .inl (h.earlier w hw hlast v hv)
  · rintro (hv | ⟨⟨w, hw, hv⟩, -⟩)
    · exact .inl hv
    · exact .inr ⟨w, (h.mem_seen w).1 (h.last_seen w hw), hv⟩

/-- A round. -/
theorem next (h : g.Explored source hops seen last)
    (hfound : ∀ v, v ∈ found ↔ (∃ w ∈ last, v ∈ g.connected w) ∧ v ∉ seen) :
    g.Explored source (hops + 1) (seen.union found) found where
  mem_seen v := by rw [NameSet.mem_union, h.within_succ_iff hfound]
  last_seen v hv := NameSet.mem_union.2 (.inr hv)
  earlier v hv hnot w hw := by
    have hseen : v ∈ seen := (NameSet.mem_union.1 hv).resolve_right hnot
    have hwithin : g.Within (hops + 1) source w := within_succ.2 (.inr ⟨v, (h.mem_seen v).1 hseen, hw⟩)
    exact NameSet.mem_union.2 ((h.within_succ_iff hfound w).1 hwithin)

/-- **A search of some rounds** sees what is within as many hops more. -/
theorem mem_searchFrom (h : g.Explored source hops seen last) (rounds : Nat) (v : NodeId) :
    v ∈ g.searchFrom rounds seen last ↔ g.Within (hops + rounds) source v := by
  induction rounds generalizing hops seen last with
  | zero => exact h.mem_seen v
  | succ rounds ih =>
    rw [searchFrom]
    split
    · next hnone =>
      -- a round that finds nothing is the last one that could
      have stable (w : NodeId) (hw : g.Within (hops + 1) source w) : g.Within hops source w := by
        rw [h.within_succ_iff (fun _ => mem_found), hnone] at hw
        exact (h.mem_seen w).1 (hw.resolve_right (NameSet.not_mem_empty w))
      rw [h.mem_seen]
      exact ⟨fun hv => hv.mono (Nat.le_add_right ..), fun hv => hv.of_stable stable _⟩
    · rw [ih (h.next fun _ => mem_found), Nat.add_assoc, Nat.add_comm 1]

end Explored

/-- **What is in reach**, on any graph: what is within the hops of a stored source, the source left out. -/
theorem mem_reachable_iff {hops : Nat} :
    v ∈ g.reachable source hops ↔ g.hasNode source = true ∧ v ≠ source ∧ g.Within hops source v := by
  unfold reachable
  cases g.hasNode source with
  | true =>
    rw [if_pos rfl, NameSet.mem_erase, (g.explored_start source).mem_searchFrom, Nat.zero_add]
    exact ⟨fun h => ⟨rfl, h.2, h.1⟩, fun h => ⟨h.2.2, h.2.1⟩⟩
  | false =>
    rw [if_neg Bool.false_ne_true]
    exact ⟨fun h => absurd h (NameSet.not_mem_empty v), fun h => absurd h.1 Bool.false_ne_true⟩

/-! ### Search with a queue -/

/-- A search under way. -/
structure Visit where
  /-- The nodes that were seen. -/
  seen : NameSet
  /-- The nodes that wait for their turn, each with the number of hops to it. -/
  queue : List (NodeId × Nat)
deriving DecidableEq

namespace Visit

/-- A search that begins. -/
def start (source : NodeId) : Visit := ⟨.ofNames [source], [(source, 0)]⟩

/-- Lets a node wait, unless it was seen. -/
def discover (hops : Nat) (s : Visit) (id : NodeId) : Visit :=
  if id ∈ s.seen then s else ⟨s.seen.insert id (), s.queue ++ [(id, hops)]⟩

end Visit

/-- One turn of the search: the first node that waits is done with, and what it leads to waits one hop further
away, unless it is at the greatest distance. Numbers of hops stay at the greatest number once they are
there. -/
def advance (g : Hypergraph) (greatest hops : Nat) : Visit → Visit
  | ⟨seen, []⟩ => ⟨seen, []⟩
  | ⟨seen, (current, distance) :: rest⟩ =>
    if hops ≤ distance then ⟨seen, rest⟩
    else (g.connected current).names.foldl (Visit.discover (min (distance + 1) greatest)) ⟨seen, rest⟩

section Queue

variable {greatest hops distance : Nat}

theorem size_insert_of_notMem {s : NameSet} {id : String} (h : id ∉ s) :
    Table.size (s.insert id ()) = Table.size s + 1 := by
  have habsent : Table.contains s id = false := (Bool.not_eq_true _).mp h
  have hlength := (Table.values_insert_perm habsent ()).length_eq
  unfold Table.values at hlength
  rw [List.length_map, List.length_cons, List.length_map] at hlength
  exact hlength

/-- What is new among some nodes waits at the end and counts as seen. -/
theorem exists_foldl_discover (distance : Nat) (ids : List NodeId) (s : Visit) :
    ∃ (seen : NameSet) (new : List NodeId),
      ids.foldl (Visit.discover distance) s = ⟨seen, s.queue ++ new.map (·, distance)⟩ ∧
      (∀ v, v ∈ seen ↔ v ∈ s.seen ∨ v ∈ ids) ∧ (∀ v, v ∈ new ↔ v ∈ ids ∧ v ∉ s.seen) ∧
      seen.size = s.seen.size + new.length := by
  induction ids generalizing s with
  | nil => exact ⟨s.seen, [], by simp, by simp, by simp, rfl⟩
  | cons id ids ih =>
    obtain ⟨seen, new, hfold, hseen, hnew, hsize⟩ := ih (s.discover distance id)
    rw [List.foldl_cons, hfold]
    unfold Visit.discover at hseen hnew hsize ⊢
    by_cases hid : id ∈ s.seen
    · rw [if_pos hid] at hseen hnew hsize ⊢
      refine ⟨seen, new, rfl, fun v => ?_, fun v => ?_, hsize⟩
      · rw [hseen, List.mem_cons]
        grind
      · rw [hnew, List.mem_cons]
        grind
    · rw [if_neg hid] at hseen hnew hsize ⊢
      refine ⟨seen, id :: new, by simp, fun v => ?_, fun v => ?_, ?_⟩
      · rw [hseen, NameSet.mem_insert, List.mem_cons]
        grind
      · rw [List.mem_cons, hnew, NameSet.mem_insert, List.mem_cons]
        grind
      · rw [hsize, size_insert_of_notMem hid, List.length_cons, Nat.add_assoc, Nat.add_comm 1]

/-- **A pass over the queue** is a round: those that wait, all at one distance, make way for what they are
connected to and is new, all one hop further away. -/
theorem exists_iterate_pass (hword : hops ≤ greatest) (hdistance : distance < hops)
    (pending found : List NodeId) (seen : NameSet) (hfound : ∀ v ∈ found, v ∈ seen) :
    ∃ (seen' : NameSet) (found' : List NodeId),
      (g.advance greatest hops)^[pending.length]
          ⟨seen, pending.map (·, distance) ++ found.map (·, distance + 1)⟩ =
        ⟨seen', found'.map (·, distance + 1)⟩ ∧
      (∀ v, v ∈ seen' ↔ v ∈ seen ∨ ∃ w ∈ pending, v ∈ g.connected w) ∧
      (∀ v, v ∈ found' ↔ v ∈ found ∨ v ∉ seen ∧ ∃ w ∈ pending, v ∈ g.connected w) ∧
      seen'.size + found.length = seen.size + found'.length := by
  induction pending generalizing found seen with
  | nil => exact ⟨seen, found, by simp, by simp, by simp, rfl⟩
  | cons current pending ih =>
    -- the turn of the first
    obtain ⟨seen₁, new, hfold, hseen₁, hnew, hsize₁⟩ :=
      exists_foldl_discover (distance + 1) (g.connected current).names
        ⟨seen, pending.map (·, distance) ++ found.map (·, distance + 1)⟩
    have hturn : g.advance greatest hops
        ⟨seen, (current :: pending).map (·, distance) ++ found.map (·, distance + 1)⟩ =
          ⟨seen₁, pending.map (·, distance) ++ (found ++ new).map (·, distance + 1)⟩ := by
      have hnext : min (distance + 1) greatest = distance + 1 := min_eq_left (by omega)
      rw [List.map_cons, List.cons_append, advance, if_neg (by omega), hnext, hfold, List.append_assoc,
        List.map_append]
    dsimp only at hseen₁ hnew hsize₁
    simp only [NameSet.mem_names] at hseen₁ hnew
    have hfound₁ : ∀ v ∈ found ++ new, v ∈ seen₁ := by
      intro v hv
      rw [hseen₁]
      rcases List.mem_append.1 hv with hv | hv
      · exact .inl (hfound v hv)
      · exact .inr ((hnew v).1 hv).1
    -- the turns of the others
    obtain ⟨seen', found', hrest, hseen', hfound', hsize'⟩ := ih (found ++ new) seen₁ hfound₁
    refine ⟨seen', found', ?_, fun v => ?_, fun v => ?_, ?_⟩
    · rw [List.length_cons, Function.iterate_succ_apply, hturn, hrest]
    · rw [hseen', hseen₁, List.exists_mem_cons_iff, or_assoc]
    · rw [hfound', List.mem_append, hnew, hseen₁, List.exists_mem_cons_iff]
      grind
    · rw [List.length_append] at hsize'
      omega

/-- At the greatest distance those that wait are done with, and that is all. -/
theorem iterate_advance_of_le (hdistance : hops ≤ distance) (pending : List NodeId) (seen : NameSet) :
    (g.advance greatest hops)^[pending.length] ⟨seen, pending.map (·, distance)⟩ = ⟨seen, []⟩ := by
  induction pending with
  | nil => rfl
  | cons current pending ih =>
    rw [List.length_cons, Function.iterate_succ_apply, List.map_cons, advance, if_pos hdistance, ih]

/-- **A search with a queue ends**, and has then seen what a search by rounds sees. It takes one turn for each
node that waits at the beginning and for each that it sees later. -/
theorem exists_iterate_advance (hword : hops ≤ greatest) (rounds : Nat) (hrounds : distance + rounds = hops)
    (pending : List NodeId) (seen last : NameSet) (hlast : ∀ v, v ∈ last ↔ v ∈ pending) :
    ∃ turns, (g.advance greatest hops)^[turns] ⟨seen, pending.map (·, distance)⟩ =
        ⟨g.searchFrom rounds seen last, []⟩ ∧
      turns + seen.size = pending.length + (g.searchFrom rounds seen last).size := by
  induction rounds generalizing distance pending seen last with
  | zero =>
    exact ⟨pending.length, iterate_advance_of_le (by omega) pending seen, rfl⟩
  | succ rounds ih =>
    obtain ⟨seen', found', hpass, hseen', hfound', hsize⟩ :=
      exists_iterate_pass (g := g) hword (show distance < hops by omega) pending [] seen nofun
    rw [List.map_nil, List.append_nil] at hpass
    rw [List.length_nil, Nat.add_zero] at hsize
    obtain ⟨found, hdef⟩ : ∃ found : NameSet,
        (g.connectedToAny last).filter (fun id _ => id ∉ seen) = found := ⟨_, rfl⟩
    have hfound (v : NodeId) : v ∈ found ↔ v ∈ found' := by
      rw [← hdef, mem_found, hfound']
      simp only [hlast, List.not_mem_nil, false_or]
      exact and_comm
    have hunion : seen' = seen.union found := by
      refine NameSet.ext_mem fun v => ?_
      rw [hseen', NameSet.mem_union, ← hdef, mem_found]
      simp only [hlast]
      grind
    rw [searchFrom, hdef]
    split
    · next hnone =>
      -- nothing waits any more
      have hnil : found' = [] := by
        refine List.eq_nil_iff_forall_not_mem.2 fun v hv => ?_
        rw [← hfound, hnone] at hv
        exact NameSet.not_mem_empty v hv
      have hsame : seen' = seen := by
        rw [hunion, hnone]
        exact NameSet.ext_mem fun v => by simp
      rw [hnil, hsame] at hpass
      exact ⟨pending.length, hpass, rfl⟩
    · obtain ⟨turns, hturns, hcount⟩ := ih (show distance + 1 + rounds = hops by omega) found' seen' found hfound
      rw [hunion] at hpass hturns hcount hsize
      refine ⟨turns + pending.length, ?_, ?_⟩
      · rw [Function.iterate_add_apply, hpass, hturns]
      · omega

end Queue

/-! ### Reach -/

/-- **Reach is exact.** On a well-formed graph, what a source that is not stored reaches is nothing. From one
that is, a search with a queue ends after as many turns as it has seen nodes, and what it has seen is, less
the source, what is in reach: the nodes other than the source to which a chain of shared edges leads, none
longer than the bound. All of them are stored. -/
theorem reachable_exact (h : g.WellFormed) (source : NodeId) {hops greatest : Nat} (hword : hops ≤ greatest) :
    (g.hasNode source = false → g.reachable source hops = ∅) ∧
      (g.hasNode source = true →
        ∃ seen : NameSet,
          (g.advance greatest hops)^[seen.size] (Visit.start source) = ⟨seen, []⟩ ∧
          g.reachable source hops = seen.erase source) ∧
      (∀ v, v ∈ g.reachable source hops ↔
        g.hasNode source = true ∧ v ≠ source ∧
          ∃ path : List NodeId, path.length ≤ hops ∧ (source :: path).IsChain g.ShareEdge ∧
            (source :: path).getLast (List.cons_ne_nil _ _) = v) ∧
      ∀ v ∈ g.reachable source hops, g.hasNode v = true := by
  refine ⟨fun habsent => ?_, fun hstored => ?_, fun v => mem_reachable_iff, fun v hv => ?_⟩
  · unfold reachable
    rw [habsent]
    rfl
  · let start := NameSet.ofNames [source]
    have hlast (v : NodeId) : v ∈ start ↔ v ∈ [source] := NameSet.mem_ofNames
    obtain ⟨turns, hturns, hcount⟩ :=
      exists_iterate_advance (g := g) hword hops (Nat.zero_add hops) [source] start start hlast
    have hcount' : turns = (g.searchFrom hops start start).size := by
      have hone : start.size = 1 := rfl
      rw [hone, List.length_singleton] at hcount
      omega
    rw [hcount'] at hturns
    refine ⟨_, hturns, ?_⟩
    unfold reachable
    rw [if_pos hstored]
  · obtain ⟨hstored, -, hwithin⟩ := mem_reachable_iff.1 hv
    exact h.members.hasNode_of_within hstored hwithin

/-- Five nodes: a triangle of overlapping edges, one node behind it, and one on its own. -/
def kite : Hypergraph :=
  applyAll ∅
    [.addNode { id := "a" }, .addNode { id := "b" }, .addNode { id := "c" }, .addNode { id := "d" },
      .addNode { id := "e" },
      .addEdge { id := "abc", members := NameSet.ofNames ["a", "b", "c"] },
      .addEdge { id := "bc", members := NameSet.ofNames ["b", "c"] },
      .addEdge { id := "cd", members := NameSet.ofNames ["c", "d"] }]

/-- `reachable_exact` on a graph with a cycle: two hops lead to the node behind the triangle, the chain goes
through a member of both edges, and the search has taken four turns. -/
theorem reachable_exact_kite :
    kite.WellFormed ∧ 2 ≤ UInt64.size - 1 ∧ kite.hasNode "a" = true ∧ "d" ∈ kite.reachable "a" 2 ∧
      (kite.advance (UInt64.size - 1) 2)^[4] (Visit.start "a") = ⟨.ofNames ["a", "b", "c", "d"], []⟩ := by
  have hwf : kite.WellFormed := wellFormed_empty.applyAll _
  have hword : 2 ≤ UInt64.size - 1 := by decide
  have hstored : kite.hasNode "a" = true := by decide
  obtain ⟨-, -, hreach, -⟩ := reachable_exact hwf "a" hword
  have hac : kite.ShareEdge "a" "c" := ⟨"abc", _, rfl, by decide, by decide⟩
  have hcd : kite.ShareEdge "c" "d" := ⟨"cd", _, rfl, by decide, by decide⟩
  have hd : "d" ∈ kite.reachable "a" 2 :=
    (hreach "d").2 ⟨hstored, by decide, ["c", "d"], Nat.le_refl 2,
      .cons_cons hac (.cons_cons hcd (.singleton _)), rfl⟩
  exact ⟨hwf, hword, hstored, hd, by decide +kernel⟩

end Hypergraph

end ResonantGraph
