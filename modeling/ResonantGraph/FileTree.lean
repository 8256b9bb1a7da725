import ResonantGraph.FileTree.Path
import ResonantGraph.Store.BlobFile

/-!
# File trees

What commands see of a file system: directories, files of bytes, stores, and devices that hold
nothing. A `Place` is where an entry stands, as the names on the way to it from the root. There are
no links, so that an entry has one place.

A path leads from the root or from the working directory along its parts (`FileTree.step`). It is
looked up in one piece (`FileTree.locate`), and then the path itself has to be short enough, or place
by place (`FileTree.resolve`), and then the path of each place on the way has to be.
-/

namespace ResonantGraph

/-- The bytes of a file. A long stretch of zeros is told by its length. -/
inductive Content
  /-- The bytes in order. -/
  | bytes (data : List UInt8)
  /-- A number of zeros. -/
  | zeros (size : Nat)

namespace Content

/-- How many bytes there are. -/
def size : Content → Nat
  | bytes data => data.length
  | zeros size => size

/-- The bytes in order. -/
def toBytes : Content → List UInt8
  | bytes data => data
  | zeros size => List.replicate size 0

/-- The bytes in order up to a number. -/
def front (c : Content) (n : Nat) : List UInt8 :=
  match c with
  | bytes data => data.take n
  | zeros size => List.replicate (min n size) 0

theorem length_toBytes (c : Content) : c.toBytes.length = c.size := by
  cases c <;> simp [size, toBytes]

theorem take_toBytes (c : Content) (n : Nat) : c.toBytes.take n = c.front n := by
  cases c <;> simp [front, toBytes, List.take_replicate]

end Content

/-- What stands at a place. -/
inductive Entry
  /-- A directory. -/
  | directory
  /-- A file of bytes. -/
  | file (content : Content)
  /-- A file that is a store. -/
  | store (contents : Store.Blobs)
  /-- A device, which reads as empty and swallows what is written to it. -/
  | device

namespace Entry

/-- Whether an entry is a file. -/
def isFile : Entry → Bool
  | file _ | store _ => true
  | directory | device => false

/-- What is read from an entry. -/
def read : Entry → Except FileFault Content
  | directory => .error .isDirectory
  | file content => .ok content
  | store contents => .ok (.bytes contents.toFile)
  | device => .ok (.bytes [])

end Entry

/-- Where an entry stands: the names on the way from the root. -/
abbrev Place : Type := List String

/-- The absolute path of a place. -/
def Place.path (place : Place) : String := "/" ++ "/".intercalate place

/-- The entries of a file system, and the directory that relative paths begin at. -/
structure FileTree where
  /-- The entries under their absolute paths, without the root. -/
  entries : Table Entry := ∅
  /-- The directory that relative paths begin at. -/
  workingDirectory : Place := []

namespace FileTree

/-- What stands at a place; the root is a directory. -/
def entry? (t : FileTree) (place : Place) : Option Entry :=
  if place = [] then some .directory else t.entries.find? place.path

/-- Puts an entry at a place. -/
def put (t : FileTree) (place : Place) (entry : Entry) : FileTree :=
  { t with entries := t.entries.insert place.path entry }

/-- Whether a directory stands at a place. -/
def isDirectory (t : FileTree) (place : Place) : Bool :=
  match t.entry? place with
  | some .directory => true
  | _ => false

/-- The greatest number of bytes of a name. -/
def maxNameSize : Nat := 255

/-- The greatest number of bytes of a path that is looked up in one piece. -/
def maxPathSize : Nat := 4095

/-- Goes from a place along one part of a path. Every part, idle ones included, needs a directory to
go from. -/
def step (t : FileTree) (here : Place) (part : String) : Except FileFault Place :=
  if !t.isDirectory here then .error .notDirectory
  else if Path.isIdle part then .ok here
  else if part = ".." then .ok here.dropLast
  else if maxNameSize < part.utf8ByteSize then .error .nameTooLong
  else if (t.entry? (here ++ [part])).isSome then .ok (here ++ [part])
  else .error .noEntry

/-- The place that a path begins at. -/
def start (t : FileTree) (path : String) : Place :=
  if Path.isAbsolute path then [] else t.workingDirectory

/-- Goes along one part of a path after a look at the place that it leads to under its own path,
which has to be short enough. -/
def lookedUpStep (t : FileTree) (here : Place) (part : String) : Except FileFault Place :=
  if Path.isName part && maxPathSize < (Place.path (here ++ [part])).utf8ByteSize then
    .error .nameTooLong
  else t.step here part

/-- The place that a path leads to, when the path is looked up in one piece. -/
def locate (t : FileTree) (path : String) : Except FileFault Place :=
  if path.toList.contains '\x00' then .error .nullInPath
  else if path = "" then .error .noEntry
  else if maxPathSize < path.utf8ByteSize then .error .nameTooLong
  else (Path.parts path).foldlM t.step (t.start path)

/-- The place that a path leads to, when every place on the way is looked up. -/
def resolve (t : FileTree) (path : String) : Except FileFault Place :=
  if path.toList.contains '\x00' then .error .nullInPath
  else if path = "" then .error .noEntry
  else (Path.parts path).foldlM t.lookedUpStep (t.start path)

/-- The place that a path leads to, or the vacant place in a directory that it names. -/
def locateOrVacant (t : FileTree) (path : String) : Except FileFault Place :=
  match t.locate path with
  | .error .noEntry => do
    let parts := Path.parts path
    let here ← parts.dropLast.foldlM t.step (t.start path)
    match parts.getLast?.filter Path.isName with
    | some name => return here ++ [name]
    | none => throw .noEntry
  | verdict => verdict

/-- What is found at a place. -/
def entryAt (t : FileTree) (place : Place) : Except FileFault Entry :=
  match t.entry? place with
  | some entry => .ok entry
  | none => .error .noEntry

/-- What stands at the end of a path that is looked up in one piece. -/
def find (t : FileTree) (path : String) : Except FileFault Entry := t.locate path >>= t.entryAt

/-- Writes a file of a given name into a directory, over a file that was there. -/
def write (t : FileTree) (directory : Place) (name : String) (data : List UInt8) :
    Except FileFault FileTree :=
  let place := directory ++ [name]
  if name.toList.contains '\x00' then .error .nullInPath
  else if maxPathSize < place.path.utf8ByteSize then .error .nameTooLong
  else if !t.isDirectory directory then .error .notDirectory
  else if maxNameSize < name.utf8ByteSize then .error .nameTooLong
  else
    match t.entry? place with
    | some .directory => .error .isDirectory
    | some .device => .ok t
    | _ => .ok (t.put place (.file (.bytes data)))

end FileTree

end ResonantGraph
