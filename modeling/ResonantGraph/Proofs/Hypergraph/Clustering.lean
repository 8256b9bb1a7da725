import ResonantGraph.Hypergraph.Metrics
import ResonantGraph.Proofs.Hypergraph.Search
import Mathlib.Algebra.BigOperators.Fin
import Mathlib.Data.Finset.Powerset

/-!
# What the clustering coefficient counts

The numerator of a clustering coefficient is found by looking at each pair of connected nodes from one side
only. What it counts are the pairs as sets, those two-element sets of connected nodes that some edge contains
(`Hypergraph.joinedPairs`): connection is symmetric, so the side does not matter, and a list without
repetitions has each such set at exactly one pair of positions. The count may be made by merging ordered lists
(`Hypergraph.closedPairs_eq_card`) or with two indices over the connected nodes in any order
(`Hypergraph.scannedPairs_eq_card`).

The denominator is the number of all two-element sets, computed by a product that is kept within a word. For
up to `2 ^ 32` connected nodes it fits, so the coefficient is a share (`Hypergraph.clustering_exact`).
-/

namespace ResonantGraph

/-- The product behind the number of pairs fits into a word, for up to `2 ^ 32` things. -/
theorem pairCount_eq_choose {n : Nat} (h : n ≤ 2 ^ 32) : pairCount n = n.choose 2 := by
  have hfits : n * (n - 1) ≤ UInt64.size - 1 :=
    calc n * (n - 1)
        _ ≤ 2 ^ 32 * (2 ^ 32 - 1) := Nat.mul_le_mul h (Nat.sub_le_sub_right h 1)
        _ ≤ UInt64.size - 1 := by decide
  rw [pairCount, Nat.min_eq_left hfits, Nat.choose_two_right]

namespace Hypergraph

variable {g : Hypergraph} {u v : NodeId}

/-- The two-element sets of listed nodes that some edge contains. -/
def joinedPairs (g : Hypergraph) (around : List NodeId) : Finset (Finset NodeId) :=
  {pair ∈ around.toFinset.powersetCard 2 | ∃ edge ∈ g.edges.values, ∀ v ∈ pair, v ∈ edge.members}

/-- The count with two indices: for each position of a list, the later entries that are connected to the entry
there. -/
def scannedPairs (g : Hypergraph) (around : List NodeId) : Nat :=
  ∑ i : Fin around.length, (around.drop (i + 1)).countP fun v => v ∈ g.connected around[i]

/-- Different nodes are connected if an edge contains both. -/
theorem mem_connected_iff_exists_edge (h : v ≠ u) :
    v ∈ g.connected u ↔ ∃ edge ∈ g.edges.values, ∀ w ∈ ({u, v} : Finset NodeId), w ∈ edge.members := by
  simp only [mem_connected, Table.mem_values_iff, Finset.mem_insert, Finset.mem_singleton, forall_eq_or_imp,
    forall_eq]
  constructor
  · rintro ⟨-, key, edge, hkey, hu, hv⟩
    exact ⟨edge, ⟨key, hkey⟩, hu, hv⟩
  · rintro ⟨edge, ⟨key, hkey⟩, hu, hv⟩
    exact ⟨h, key, edge, hkey, hu, hv⟩

/-- The joined pairs of a list are those of its rest and those of its head with a node that is connected to
it. -/
theorem joinedPairs_cons {rest : List NodeId} (h : u ∉ rest) :
    g.joinedPairs (u :: rest) =
      g.joinedPairs rest ∪ {v ∈ rest.toFinset | v ∈ g.connected u}.image fun v => {u, v} := by
  have hnew : u ∉ rest.toFinset := fun hmem => h (List.mem_toFinset.1 hmem)
  unfold joinedPairs
  rw [List.toFinset_cons, Finset.powersetCard_succ_insert hnew, Finset.filter_union, Finset.powersetCard_one,
    Finset.map_eq_image, Finset.image_image, Finset.filter_image]
  congr 2
  refine Finset.filter_congr fun v hv => ?_
  have hne : v ≠ u := by
    rintro rfl
    exact hnew hv
  exact (mem_connected_iff_exists_edge hne).symm

theorem card_joinedPairs_cons {rest : List NodeId} (hhead : u ∉ rest) (hrest : rest.Nodup) :
    (g.joinedPairs (u :: rest)).card =
      rest.countP (fun v => v ∈ g.connected u) + (g.joinedPairs rest).card := by
  -- a pair with the head is no pair of the rest
  have hdisjoint : Disjoint (g.joinedPairs rest)
      ({v ∈ rest.toFinset | v ∈ g.connected u}.image fun v => {u, v}) := by
    rw [Finset.disjoint_left]
    intro pair hpair himage
    obtain ⟨v, -, rfl⟩ := Finset.mem_image.1 himage
    obtain ⟨hsubset, -⟩ := Finset.mem_powersetCard.1 (Finset.mem_filter.1 hpair).1
    exact hhead (List.mem_toFinset.1 (hsubset (Finset.mem_insert_self u {v})))
  -- and is known by the other of its two nodes
  have hinjective : Set.InjOn (fun v => ({u, v} : Finset NodeId))
      ({v ∈ rest.toFinset | v ∈ g.connected u} : Finset NodeId) := by
    intro v hv w _ (heq : ({u, v} : Finset NodeId) = {u, w})
    have hne : v ≠ u := (mem_connected.1 (Finset.mem_filter.1 hv).2).1
    have hmem : v ∈ ({u, w} : Finset NodeId) := by
      rw [← heq]
      exact Finset.mem_insert_of_mem (Finset.mem_singleton_self v)
    rcases Finset.mem_insert.1 hmem with rfl | hmem
    · exact absurd rfl hne
    · exact Finset.mem_singleton.1 hmem
  have hcount : ({v ∈ rest.toFinset | v ∈ g.connected u} : Finset NodeId).card =
      rest.countP fun v => v ∈ g.connected u := by
    rw [List.countP_eq_length_filter, ← List.toFinset_card_of_nodup (hrest.filter _), List.toFinset_filter]
    simp only [decide_eq_true_eq]
  rw [joinedPairs_cons hhead, Finset.card_union_of_disjoint hdisjoint, Finset.card_image_of_injOn hinjective,
    hcount, Nat.add_comm]

/-- **Merging ordered lists counts the joined pairs.** -/
theorem closedPairs_eq_card {around : List NodeId} (h : around.Pairwise (· < ·)) :
    g.closedPairs around = (g.joinedPairs around).card := by
  induction around with
  | nil => rfl
  | cons u rest ih =>
    obtain ⟨hhead, hrest⟩ := List.nodup_cons.1 (h.imp String.ne_of_lt)
    rw [g.closedPairs_cons h, ih (List.pairwise_cons.1 h).2, card_joinedPairs_cons hhead hrest,
      List.countP_eq_length_filter]

theorem scannedPairs_cons (g : Hypergraph) (u : NodeId) (rest : List NodeId) :
    g.scannedPairs (u :: rest) = rest.countP (fun v => v ∈ g.connected u) + g.scannedPairs rest :=
  Fin.sum_univ_succ _

/-- **Two indices count the joined pairs**, whatever the order of the nodes. -/
theorem scannedPairs_eq_card {around : List NodeId} (h : around.Nodup) :
    g.scannedPairs around = (g.joinedPairs around).card := by
  induction around with
  | nil => rfl
  | cons u rest ih =>
    obtain ⟨hhead, hrest⟩ := List.nodup_cons.1 h
    rw [scannedPairs_cons, ih hrest, card_joinedPairs_cons hhead hrest]

/-- There are at most as many joined pairs as pairs. -/
theorem card_joinedPairs_le {around : List NodeId} (h : around.Nodup) :
    (g.joinedPairs around).card ≤ around.length.choose 2 := by
  refine (Finset.card_filter_le ..).trans_eq ?_
  rw [Finset.card_powersetCard, List.toFinset_card_of_nodup h]

/-- Where one edge contains all nodes, every pair is joined. -/
theorem card_joinedPairs_of_edge {around : List NodeId} (h : around.Nodup) {edge : Edge}
    (hedge : edge ∈ g.edges.values) (hall : ∀ v ∈ around, v ∈ edge.members) :
    (g.joinedPairs around).card = around.length.choose 2 := by
  have hjoined : g.joinedPairs around = around.toFinset.powersetCard 2 := by
    refine Finset.filter_true_of_mem fun pair hpair => ⟨edge, hedge, fun v hv => hall v ?_⟩
    exact List.mem_toFinset.1 ((Finset.mem_powersetCard.1 hpair).1 hv)
  rw [hjoined, Finset.card_powersetCard, List.toFinset_card_of_nodup h]

/-- **The clustering coefficient is an exact share**, for every graph. A node with fewer than two connected
nodes has the coefficient zero. Otherwise it is a quotient. Its numerator is the number of two-element sets of
connected nodes that some edge contains, in whatever order the nodes are gone through with two indices. For up
to `2 ^ 32` connected nodes its denominator is the number of all two-element sets of them, which is not zero;
the numerator is never greater, and as great if one edge contains all connected nodes. -/
theorem clustering_exact (g : Hypergraph) (id : NodeId) :
    let around := (g.connected id).names
    let n := around.length
    (n < 2 → g.clusteringCoefficient id = 0) ∧
      (2 ≤ n → n ≤ 2 ^ 32 →
        g.clusteringCoefficient id = .ofNat (g.closedPairs around) / .ofNat (pairCount n) ∧
        g.closedPairs around = (g.joinedPairs around).card ∧
        (∀ order : List NodeId, order.Perm around → g.scannedPairs order = g.closedPairs around) ∧
        pairCount n = n * (n - 1) / 2 ∧ pairCount n ≠ 0 ∧ g.closedPairs around ≤ pairCount n ∧
        ((∃ edge ∈ g.edges.values, ∀ v ∈ g.connected id, v ∈ edge.members) →
          g.closedPairs around = pairCount n)) := by
  intro around n
  have hascending : around.Pairwise (· < ·) := NameSet.names_ascending _
  have hnodup : around.Nodup := NameSet.nodup_names _
  have hclosed : g.closedPairs around = (g.joinedPairs around).card := closedPairs_eq_card hascending
  refine ⟨fun hfew => if_pos hfew, fun hmany hfits => ?_⟩
  have hpairs : pairCount n = n.choose 2 := pairCount_eq_choose hfits
  refine ⟨if_neg (Nat.not_lt.2 hmany), hclosed, fun order horder => ?_, ?_, ?_, ?_, ?_⟩
  · -- the order of a list does not show in its set of entries
    rw [scannedPairs_eq_card (horder.nodup_iff.2 hnodup), hclosed]
    unfold joinedPairs
    rw [List.toFinset_eq_of_perm _ _ horder]
  · rw [hpairs, Nat.choose_two_right]
  · rw [hpairs]
    exact (Nat.choose_pos hmany).ne'
  · rw [hclosed, hpairs]
    exact card_joinedPairs_le hnodup
  · rintro ⟨edge, hedge, hall⟩
    rw [hclosed, hpairs]
    exact card_joinedPairs_of_edge hnodup hedge fun v hv => hall v (NameSet.mem_names.1 hv)

/-- A node with three connected nodes, two edges of three and an edge of two that joins none of the pairs. -/
def fanned : Hypergraph :=
  applyAll ∅
    [.addNode { id := "a" }, .addNode { id := "b" }, .addNode { id := "c" }, .addNode { id := "d" },
      .addEdge { id := "abc", members := NameSet.ofNames ["a", "b", "c"] },
      .addEdge { id := "acd", members := NameSet.ofNames ["a", "c", "d"] },
      .addEdge { id := "ad", members := NameSet.ofNames ["a", "d"] }]

/-- `clustering_exact` where two of three pairs are joined, by edges of three members. -/
theorem clustering_exact_fanned :
    (fanned.connected "a").names = ["b", "c", "d"] ∧
      fanned.clusteringCoefficient "a" = .ofNat 2 / .ofNat 3 ∧
      fanned.scannedPairs ["d", "b", "c"] = 2 ∧ (fanned.joinedPairs ["b", "c", "d"]).card = 2 := by
  have haround : (fanned.connected "a").names = ["b", "c", "d"] := by decide +kernel
  have hclosed : fanned.closedPairs ["b", "c", "d"] = 2 := by decide +kernel
  obtain ⟨-, hmany⟩ := clustering_exact fanned "a"
  rw [haround] at hmany
  obtain ⟨hquotient, hcard, hscanned, -⟩ := hmany (by decide) (by decide)
  rw [hclosed] at hquotient hcard hscanned
  exact ⟨haround, hquotient, hscanned _ (by decide), hcard.symm⟩

end Hypergraph

end ResonantGraph
