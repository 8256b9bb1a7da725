import ResonantGraph.Snapshot
import ResonantGraph.Proofs.Substrate.Reached

/-!
# What an accepted snapshot is worth

`Snapshot.decode` checks the members of the edges that it reads and nothing else about them: it takes
the names that a payload files its entries under as they come, and the activations too. So a graph
that was read keeps one clause of well-formedness for certain and the others only where the payload
does.

* `decode_eq_ok_iff` — what is accepted: not too many bytes, with the current header and a payload
  that reads as a graph whose edges pass the check;
* `membersStored_of_decode` — every member of every edge is a stored node;
* `decode_guarantees` — the graph is one that operations lead to exactly if the payload files its
  entries under their own identifiers and clamps its activations, and it stays free of dangling edges
  under every run of changes exactly if the payload files those edges under their own identifiers
  that have members.

A snapshot that falls short of the first is at hand: `misfiled` holds one edge, known as `x` and filed
under `e`, and the removal of its only member leaves it behind.
-/

namespace ResonantGraph

/-- A check passes on a list exactly if it passes on each of its elements. -/
theorem forM_eq_ok_iff {α ε : Type} {check : α → Except ε Unit} {l : List α} :
    l.forM check = .ok () ↔ ∀ x ∈ l, check x = .ok () := by
  induction l with
  | nil => simp only [List.not_mem_nil, false_implies, implies_true, iff_true]; rfl
  | cons y l ih =>
    rw [List.forall_mem_cons, ← ih]
    change (check y >>= fun _ => l.forM check) = .ok () ↔ _
    cases check y with
    | error e =>
      -- the first failure is the last that is heard
      constructor
      · intro h
        cases h
      · rintro ⟨h, -⟩
        cases h
    | ok => exact ⟨fun h => ⟨rfl, h⟩, And.right⟩

theorem Hypergraph.checkMembers_eq_ok_iff {g : Hypergraph} {edge : Edge} :
    g.checkMembers edge = .ok () ↔ ∀ id ∈ edge.members, g.hasNode id = true := by
  rw [← missingMember?_eq_none_iff]
  unfold checkMembers
  cases g.missingMember? edge with
  | some id => exact iff_of_false nofun nofun
  | none => exact iff_of_true rfl rfl

/-- The check of all edges passes exactly if none is dangling. -/
theorem Hypergraph.forM_checkMembers_iff {g : Hypergraph} :
    g.edges.values.forM g.checkMembers = .ok () ↔ g.MembersStored := by
  rw [forM_eq_ok_iff]
  constructor
  · intro h key edge hedge
    exact checkMembers_eq_ok_iff.1 (h edge (Table.mem_values_iff.2 ⟨key, hedge⟩))
  · intro h edge hedge
    obtain ⟨key, hkey⟩ := Table.mem_values_iff.1 hedge
    exact checkMembers_eq_ok_iff.2 (h key edge hkey)

namespace Snapshot

/-! ### What is accepted -/

theorem checkStart_short {data : List UInt8} (h : data.length < headerSize) :
    checkStart data.length data = .error (.data (.snapshotTooShort headerSize)) := by
  unfold checkStart
  rw [if_pos h]
  rfl

theorem checkStart_append {payload : List UInt8}
    (h : (Header.current.toBytes ++ payload).length ≤ maxSize) :
    checkStart (Header.current.toBytes ++ payload).length (Header.current.toBytes ++ payload) =
      .ok () := by
  have hlong : ¬ (Header.current.toBytes ++ payload).length < headerSize := by
    rw [List.length_append]
    exact Nat.not_lt.2 (Nat.le_add_right 5 _)
  unfold checkStart
  rw [if_neg hlong, if_neg (Nat.not_lt.2 h)]
  rfl

/-- What passes the first checks begins with the current header. -/
theorem eq_append_of_checkStart {data : List UInt8} (h : checkStart data.length data = .ok ()) :
    data.length ≤ maxSize ∧ ∃ payload, data = Header.current.toBytes ++ payload := by
  by_cases hshort : data.length < headerSize
  · rw [checkStart_short hshort] at h
    cases h
  unfold checkStart at h
  rw [if_neg hshort] at h
  by_cases hlong : maxSize < data.length
  · rw [if_pos hlong] at h
    cases h
  rw [if_neg hlong] at h
  refine ⟨Nat.not_lt.1 hlong, ?_⟩
  rcases data with _ | ⟨a, _ | ⟨b, _ | ⟨c, _ | ⟨d, _ | ⟨v, payload⟩⟩⟩⟩⟩
  -- there is room for a header
  iterate 5 exact absurd (by simp [headerSize]) hshort
  change Header.validate ⟨[a, b, c, d], v⟩ = .ok () at h
  unfold Header.validate at h
  split at h
  · cases h
  · next hmagic =>
    split at h
    · cases h
    · next hversion =>
      rw [not_not] at hmagic hversion
      refine ⟨payload, ?_⟩
      change [a, b, c, d] ++ v :: payload = magic ++ version :: payload
      rw [show [a, b, c, d] = magic from hmagic, show v = version from hversion]

/-- Past the header it is up to the payload and the members. -/
theorem decode_append {payload : List UInt8}
    (h : (Header.current.toBytes ++ payload).length ≤ maxSize) :
    decode (Header.current.toBytes ++ payload) =
      readPayload payload >>= fun g => g.edges.values.forM g.checkMembers >>= fun _ => .ok g := by
  unfold decode
  rw [checkStart_append h]
  rfl

/-- **What is accepted**: no more bytes than allowed, with the current header and a payload that reads
as a graph without dangling edges. -/
theorem decode_eq_ok_iff {data : List UInt8} {g : Hypergraph} :
    decode data = .ok g ↔
      data.length ≤ maxSize ∧ g.MembersStored ∧
        ∃ payload rest, data = Header.current.toBytes ++ payload ∧
          Codec.graph.read payload = .ok (g, rest) := by
  constructor
  · intro h
    cases hstart : checkStart data.length data with
    | error e =>
      unfold decode at h
      rw [hstart] at h
      cases h
    | ok =>
      obtain ⟨size, payload, rfl⟩ := eq_append_of_checkStart hstart
      rw [decode_append size] at h
      unfold readPayload at h
      cases hread : Codec.graph.read payload with
      | error e =>
        rw [hread] at h
        cases h
      | ok found =>
        obtain ⟨read, rest⟩ := found
        rw [hread] at h
        change (read.edges.values.forM read.checkMembers >>= fun _ => Except.ok read) = .ok g at h
        cases hcheck : read.edges.values.forM read.checkMembers with
        | error e =>
          rw [hcheck] at h
          cases h
        | ok =>
          -- the check has passed, and what was read is what comes out
          rw [hcheck] at h
          cases h
          exact ⟨size, Hypergraph.forM_checkMembers_iff.1 hcheck, payload, rest, rfl, hread⟩
  · rintro ⟨size, members, payload, rest, rfl, hread⟩
    rw [decode_append size]
    unfold readPayload
    rw [hread]
    change (g.edges.values.forM g.checkMembers >>= fun _ => Except.ok g) = .ok g
    rw [Hypergraph.forM_checkMembers_iff.2 members]
    rfl

/-- Every member of every edge of a graph that was read is a stored node. -/
theorem membersStored_of_decode {data : List UInt8} {g : Hypergraph} (h : decode data = .ok g) :
    g.MembersStored :=
  (decode_eq_ok_iff.1 h).2.1

/-! ### What it is worth -/

/-- **What reading guarantees.** Every member of every edge is stored. The graph is one that
operations lead to exactly if each node and edge is filed under its own identifier and each activation
is clamped; and no run of changes leaves a dangling edge exactly if each edge with members is filed
under its own identifier. -/
theorem decode_guarantees {data : List UInt8} {g : Hypergraph} (h : decode data = .ok g) :
    g.MembersStored ∧
      (g.Reached ↔
        (∀ key node, g.nodes.find? key = some node →
          node.id = key ∧ node.activation.clamp = node.activation) ∧
        ∀ key edge, g.edges.find? key = some edge → edge.id = key) ∧
      ((∀ changes, (g.applyAll changes).MembersStored) ↔ g.JoiningEdgesFiled) := by
  have members : g.MembersStored := membersStored_of_decode h
  refine ⟨members, ⟨fun reached => ?_, fun ⟨nodes, edges⟩ => ?_⟩, ?_⟩
  · -- what operations lead to is well formed, which is more than is claimed
    have wf : g.WellFormed := reached.wellFormed
    exact ⟨wf.every.nodes, wf.every.edges⟩
  · -- the payload grants every clause but that of the members, and this was checked
    exact Hypergraph.WellFormed.reached {
      node_id := fun key node hn => (nodes key node hn).1
      edge_id := edges
      members := members
      clamped := fun key node hn => (nodes key node hn).2 }
  · exact ⟨Hypergraph.JoiningEdgesFiled.of_applyAll, fun filed => members.applyAll filed⟩

/-! ### An edge under a foreign name -/

/-- A snapshot of a node `a` and of an edge that is known as `x`, has the member `a` and is filed
under `e`. -/
def misfiled : List UInt8 :=
  [0x48, 0x59, 0x50, 0x45, 0x01,
    0x01, 0x01, 0x61, 0x01, 0x61, 0x00, 0x00, 0x00, 0x00, 0x00,
    0x00, 0x00, 0x00, 0x00, 0x00, 0x00, 0xf0, 0x3f,
    0x00, 0x00, 0x00, 0x00, 0x00, 0x00, 0x00, 0x00,
    0x01, 0x01, 0x65, 0x01, 0x78, 0x00, 0x01, 0x01, 0x61, 0x00,
    0x00, 0x00, 0x00, 0x00, 0x00, 0x00, 0xf0, 0x3f,
    0x00]

/-- The graph of `misfiled`. -/
def misfiledGraph : Hypergraph where
  nodes := (∅ : Table Node).insert "a" { id := "a" }
  edges := (∅ : Table Edge).insert "e" { id := "x", members := NameSet.ofNames ["a"] }

/-- `decode_guarantees` on the snapshot with the misfiled edge, which is accepted and does not make a
graph that operations lead to. -/
theorem decode_guarantees_misfiled :
    decode misfiled = .ok misfiledGraph ∧ misfiledGraph.MembersStored ∧
      ¬ misfiledGraph.Reached := by
  have read : decode misfiled = .ok misfiledGraph := by rfl
  refine ⟨read, (decode_guarantees read).1, fun reached => ?_⟩
  have edges := ((decode_guarantees read).2.1.1 reached).2
  have hid : "x" = "e" := edges "e" _ rfl
  revert hid
  decide

/-- Not every accepted graph is one that operations lead to, and not every one stays free of dangling
edges: the removal of `a` leaves the edge of `misfiled` behind. -/
theorem exists_accepted_dangling :
    ¬ ∀ (data : List UInt8) (g : Hypergraph), decode data = .ok g →
      g.WellFormed ∧ ∀ changes, (g.applyAll changes).MembersStored := by
  intro claim
  obtain ⟨-, members⟩ := claim misfiled misfiledGraph (by rfl)
  have stored : (misfiledGraph.applyAll [.removeNode "a"]).hasNode "a" = true :=
    members [.removeNode "a"] "e" _ rfl "a" (by decide)
  revert stored
  decide

end Snapshot

end ResonantGraph
