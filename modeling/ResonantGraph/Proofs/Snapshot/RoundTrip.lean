import ResonantGraph.Proofs.Codec.Format
import ResonantGraph.Proofs.Snapshot.Accepted

/-!
# Snapshots there and back

The payload of a snapshot is a graph in the wire format, and the codec of graphs is lawful. Two things
follow, one for each direction.

* `decode_encode_append` — a graph that may be read at all reads back from its snapshot, bit for bit,
  with anything after it, and from no strict beginning of it.
* `encode_decode` — what was read is written in no more bytes than it was read from, and is read from
  these again. Readers are tolerant: `untidy` has numbers in too many digits, a node and a member twice
  and bytes at its end, and its graph is written without any of that.
-/

namespace ResonantGraph

namespace Snapshot

/-! ### Writing, then reading -/

theorem maxSize_lt : maxSize < UInt64.size := by decide

/-- A word can count the bytes of a payload that is not too long. -/
theorem length_payload_lt {g : Hypergraph} (h : (encode g).length ≤ maxSize) :
    (Codec.graph.write g).length < UInt64.size := by
  have hlt := maxSize_lt
  unfold encode at h
  rw [List.length_append] at h
  omega

/-- Reading takes no notice of what follows a snapshot that is not too long. -/
theorem decode_encode_more {g : Hypergraph} (members : g.MembersStored) {more : List UInt8}
    (size : (encode g ++ more).length ≤ maxSize) : decode (encode g ++ more) = .ok g := by
  have hwhole : (encode g).length ≤ maxSize := by
    rw [List.length_append] at size
    omega
  refine decode_eq_ok_iff.2 ⟨size, members, Codec.graph.write g ++ more, more, ?_, ?_⟩
  · exact List.append_assoc ..
  · exact Codec.lawful_graph.readsBack g (length_payload_lt hwhole) more

theorem decode_encode {g : Hypergraph} (members : g.MembersStored)
    (size : (encode g).length ≤ maxSize) : decode (encode g) = .ok g := by
  have hsize : (encode g ++ []).length ≤ maxSize := by rwa [List.append_nil]
  have h := decode_encode_more members hsize
  rwa [List.append_nil] at h

/-- **A snapshot reads back**, whatever follows it, and no strict beginning of it is accepted. It is the
header, and then the graph in the wire format as it is spelled out. -/
theorem decode_encode_append {g : Hypergraph} (members : g.MembersStored) :
    (∀ more, (encode g ++ more).length ≤ maxSize → decode (encode g ++ more) = .ok g) ∧
      ((encode g).length ≤ maxSize → ∀ part, part <+: encode g → part ≠ encode g →
        ∃ fault, decode part = .error (.data fault)) ∧
      ((encode g).length < UInt64.size → encode g = magic ++ version :: Wire.graph g) := by
  refine ⟨fun _ => decode_encode_more members, fun size part hpart hne => ?_, fun size => ?_⟩
  · by_cases hshort : part.length < headerSize
    · -- the cut falls into the header
      refine ⟨.snapshotTooShort headerSize, ?_⟩
      unfold decode
      rw [checkStart_short hshort]
      rfl
    · -- the header is whole, so the cut falls into the payload
      have hheader : Header.current.toBytes <+: part :=
        List.prefix_of_prefix_length_le (List.prefix_append ..) hpart (Nat.not_lt.1 hshort)
      obtain ⟨payload, rfl⟩ := hheader
      have hpayload : payload <+: Codec.graph.write g := (List.prefix_append_right_inj _).1 hpart
      have hcut : payload ≠ Codec.graph.write g := fun heq => hne (by rw [heq]; rfl)
      obtain ⟨e, he⟩ := Codec.lawful_graph.read_strict_prefix (length_payload_lt size) hpayload hcut
      refine ⟨.payload e, ?_⟩
      rw [decode_append (hpart.length_le.trans size)]
      unfold readPayload
      rw [he]
      rfl
  · have hpayload : (Codec.graph.write g).length < UInt64.size := by
      unfold encode at size
      rw [List.length_append] at size
      omega
    change Header.current.toBytes ++ Codec.graph.write g = magic ++ version :: Wire.graph g
    rw [Codec.writesAs_graph g hpayload]
    rfl

/-- A node that is filed under a foreign name and has for its activation one of the many bit patterns
that stand for no number, an edge that joins it, and a sequence at its end. -/
def oddGraph : Hypergraph where
  nodes := (∅ : Table Node).insert "a"
    { id := "ä", identity := { frequency := -1, patterns := ["", "b"] },
      activation := ⟨0xfff8000000000001⟩ }
  edges := (∅ : Table Edge).insert "e"
    { id := "x", members := NameSet.ofNames ["a"], attributes := Table.ofList [("k", "v")] }
  sequence := -1

/-- `decode_encode_append` on a graph that no operations lead to. -/
theorem decode_encode_oddGraph :
    oddGraph.MembersStored ∧ decode (encode oddGraph ++ [0]) = .ok oddGraph ∧
      ∃ fault, decode (encode oddGraph).dropLast = .error (.data fault) := by
  have members : oddGraph.MembersStored := by
    -- the only edge joins the only node
    intro key edge hedge id hid
    change ((∅ : Table Edge).insert "e" _).find? key = some edge at hedge
    rw [Table.find?_insert] at hedge
    split at hedge
    · cases hedge
      rw [NameSet.mem_ofNames, List.mem_singleton] at hid
      subst hid
      rfl
    · cases hedge
  have h := decode_encode_append members
  refine ⟨members, h.1 [0] (by decide), h.2.1 (by decide) _ (List.dropLast_prefix _) fun heq => ?_⟩
  have hlen := congrArg List.length heq
  revert hlen
  decide

/-! ### Reading, then writing -/

/-- **Writing what was read** takes no more bytes than it was read from. The graph reads back from them,
and is written in them again. -/
theorem encode_decode {data : List UInt8} {g : Hypergraph} (h : decode data = .ok g) :
    (encode g).length ≤ data.length ∧ (encode g).length ≤ maxSize ∧
      decode (encode g) = .ok g ∧ (decode (encode g)).map encode = .ok (encode g) := by
  obtain ⟨size, members, payload, rest, rfl, hread⟩ := decode_eq_ok_iff.1 h
  have hpayload := Codec.lawful_graph.length_write hread
  have shorter : (encode g).length ≤ (Header.current.toBytes ++ payload).length := by
    unfold encode
    rw [List.length_append, List.length_append]
    omega
  have hsize : (encode g).length ≤ maxSize := shorter.trans size
  have back : decode (encode g) = .ok g := decode_encode members hsize
  refine ⟨shorter, hsize, back, ?_⟩
  rw [back]
  rfl

/-- A snapshot with two nodes `a`, of which the second counts, an edge that has `a` for a member twice,
two numbers with a digit too many, and a byte at its end. -/
def untidy : List UInt8 :=
  [0x48, 0x59, 0x50, 0x45, 0x01,
    0x82, 0x00,
    0x01, 0x61, 0x01, 0x61, 0x00, 0x00, 0x00, 0x00, 0x00,
    0x00, 0x00, 0x00, 0x00, 0x00, 0x00, 0xf0, 0x3f,
    0x00, 0x00, 0x00, 0x00, 0x00, 0x00, 0x00, 0x00,
    0x01, 0x61, 0x01, 0x61, 0x01, 0x62, 0x00, 0x00, 0x00, 0x00,
    0x00, 0x00, 0x00, 0x00, 0x00, 0x00, 0xf0, 0x3f,
    0x00, 0x00, 0x00, 0x00, 0x00, 0x00, 0x00, 0x00,
    0x01, 0x01, 0x65, 0x01, 0x65, 0x00, 0x02, 0x01, 0x61, 0x01, 0x61, 0x00,
    0x00, 0x00, 0x00, 0x00, 0x00, 0x00, 0xf0, 0x3f,
    0x80, 0x00,
    0xff]

/-- The graph of `untidy`. -/
def tidied : Hypergraph where
  nodes := (∅ : Table Node).insert "a" { id := "a", label := "b" }
  edges := (∅ : Table Edge).insert "e" { id := "e", members := NameSet.ofNames ["a"] }

/-- `encode_decode` on a snapshot that is written in fewer bytes. -/
theorem encode_decode_untidy :
    decode untidy = .ok tidied ∧ (encode tidied).length ≤ untidy.length ∧
      decode (encode tidied) = .ok tidied ∧ encode tidied ≠ untidy := by
  have read : decode untidy = .ok tidied := by rfl
  obtain ⟨shorter, -, back, -⟩ := encode_decode read
  refine ⟨read, shorter, back, fun heq => ?_⟩
  have hlen := congrArg List.length heq
  revert hlen
  decide

end Snapshot

end ResonantGraph
