import ResonantGraph.Codec
import ResonantGraph.Hypergraph.Basic

/-!
# Snapshots

A snapshot is a graph as bytes: a header of four magic bytes and a version, then the node table, the
edge table and the sequence in the wire format.

`Snapshot.decode` looks at its input in a fixed order and names the first thing that is wrong: its
length, the header, the payload, and last the members of the edges. It does not look at what comes
after the payload.
-/

namespace ResonantGraph

namespace Codec

/-- Graphs. -/
def graph : Codec Hypergraph :=
  ((table node).pair ((table edge).pair word)).convert
    (fun (nodes, edges, sequence) => { nodes, edges, sequence })
    (fun g => (g.nodes, g.edges, g.sequence))

end Codec

namespace Snapshot

/-- The bytes that every snapshot begins with. -/
def magic : List UInt8 := [0x48, 0x59, 0x50, 0x45]

/-- The version of the format. -/
def version : UInt8 := 1

/-- How many bytes a header takes. -/
def headerSize : Nat := 5

/-- The greatest size of a snapshot that is read, in bytes. -/
def maxSize : Nat := 500 * 1024 * 1024

/-! ### Headers -/

/-- What comes before the payload. -/
structure Header where
  /-- The first four bytes. -/
  magic : List UInt8
  /-- The version of the format. -/
  version : UInt8
deriving DecidableEq

namespace Header

/-- The header of the snapshots that are written. -/
def current : Header := ⟨Snapshot.magic, Snapshot.version⟩

/-- The bytes of a header. -/
def toBytes (h : Header) : List UInt8 := h.magic ++ [h.version]

/-- Reads a header from the front of a list of bytes. -/
def ofBytes (data : List UInt8) : Except Failure Header :=
  match data with
  | a :: b :: c :: d :: version :: _ => .ok ⟨[a, b, c, d], version⟩
  | _ => .error (.data .headerTooShort)

/-- Fails unless a header is the one that is written. -/
def validate (h : Header) : Except Failure Unit :=
  if h.magic ≠ Snapshot.magic then .error (.data .foreignMagic)
  else if h.version ≠ Snapshot.version then
    .error (.data (.foreignVersion h.version Snapshot.version))
  else .ok ()

end Header

/-! ### Graphs as bytes -/

/-- The snapshot of a graph. -/
def encode (g : Hypergraph) : List UInt8 := Header.current.toBytes ++ Codec.graph.write g

/-- Reads the payload of a snapshot. -/
def readPayload (data : List UInt8) : Except Failure Hypergraph :=
  match Codec.graph.read data with
  | .error e => .error (.data (.payload e))
  | .ok (g, _) => .ok g

/-- Fails unless bytes of a given number and with the given front may be a snapshot. -/
def checkStart (size : Nat) (front : List UInt8) : Except Failure Unit := do
  if size < headerSize then
    throw (.data (.snapshotTooShort headerSize))
  if maxSize < size then
    throw (.data (.snapshotTooLong size maxSize))
  (← Header.ofBytes front).validate

/-- Reads a snapshot. -/
def decode (data : List UInt8) : Except Failure Hypergraph := do
  checkStart data.length data
  let g ← readPayload (data.drop headerSize)
  g.edges.values.forM g.checkMembers
  return g

end Snapshot

end ResonantGraph
