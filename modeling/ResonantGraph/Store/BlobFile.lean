import ResonantGraph.Store.Blobs

/-!
# Stores as files

A store of bytes is kept in one file: ten bytes that no text and no snapshot begins with, then the
table of nodes and the table of edges in the wire format. A file without a byte is a store without
elements.
-/

namespace ResonantGraph

namespace Codec

/-- Stretches of bytes. -/
def blob : Codec (List UInt8) where
  write data := count.write data.length ++ data
  read data :=
    match count.read data with
    | .error e => .error e
    | .ok (n, rest) => readBytes n rest

/-- Stores of bytes. -/
def blobs : Codec Store.Blobs :=
  ((table blob).pair (table blob)).convert
    (fun (nodes, edges) => { nodes, edges })
    (fun s => (s.nodes, s.edges))

end Codec

namespace Store.Blobs

/-- The bytes that the file of a store begins with. -/
def mark : List UInt8 := [0x67, 0x72, 0x61, 0x70, 0x68, 0x1a, 0x0a, 0xa9, 0x0d, 0x0a]

/-- The file of a store. -/
def toFile (s : Blobs) : List UInt8 := mark ++ Codec.blobs.write s

/-- The store of a file, if the file is one. -/
def ofFile? (data : List UInt8) : Option Blobs :=
  if data.isEmpty then some {}
  else if data.take mark.length = mark then
    match Codec.blobs.read (data.drop mark.length) with
    | .ok (s, []) => some s
    | _ => none
  else none

end Store.Blobs

end ResonantGraph
