import ResonantGraph.FileTree
import ResonantGraph.Settings
import ResonantGraph.Store.Tables
import ResonantGraph.Substrate
import ResonantGraph.Text.Quoted

/-!
# The host of a command

A command runs against a `Host`: a file tree, what is left of standard input, and what has been
printed. A `Job` is a step that may fail; what it did to the host before it failed stays done.

A command keeps its graph in memory, or in a store that a path names. The store is opened when the
graph is, which makes it if there is none, and it is a file like any other afterwards.
-/

namespace ResonantGraph.Command

/-- What a command runs against. -/
structure Host where
  /-- The file system. -/
  files : FileTree := {}
  /-- What is left of standard input. -/
  input : List UInt8 := []
  /-- What has been printed. -/
  output : String := ""

/-- A step that may change the host and may fail. -/
abbrev Job : Type → Type := ExceptT Failure (StateM Host)

/-- The result of a job and the host after it. -/
def Job.on {α : Type} (job : Job α) (host : Host) : Except Failure α × Host := job.run.run host

/-! ### Output and input -/

/-- Prints a line. -/
def say (line : String) : Job Unit :=
  modify fun host => { host with output := host.output ++ line ++ "\n" }

/-- Prints lines in order. -/
def sayAll (lines : List String) : Job Unit := lines.forM say

/-- The path that stands for standard input. -/
def standardInput : String := "-"

/-- Reads all that is left of standard input, which has to be text. -/
def readStandardInput : Job String := do
  let data := (← get).input
  modify fun host => { host with input := [] }
  match Text.ofBytes? data with
  | some text => return text
  | none => throw (.io (.readInput .invalidText))

/-! ### Files -/

/-- The greatest size of a settings document, in bytes. -/
def maxSettingsSize : Nat := 1024 * 1024

/-- The greatest size of an input file, in bytes. -/
def maxInputSize : Nat := 100 * 1024 * 1024

/-- Reads a settings document; nothing at the path means the defaults. -/
def settingsAt (files : FileTree) (path : String) : Except Failure Settings :=
  match files.find path with
  | .error _ => .ok {}
  | .ok entry =>
    match entry.read with
    | .error e => .error (.io (.readSettings e))
    | .ok content =>
      if maxSettingsSize < content.size then
        .error (.data (.settingsTooLong content.size maxSettingsSize))
      else
        match Text.ofBytes? content.toBytes with
        | none => .error (.io (.readSettings .invalidText))
        | some document => Settings.ofDocument document

/-- Reads a file of at most a given size. -/
def fileAt (files : FileTree) (path : String) (limit : Nat) : Except Failure Content :=
  match files.resolve path >>= files.entryAt with
  | .error e => .error (.io (.inputPath path e))
  | .ok entry =>
    if !entry.isFile then .error (.io (.notRegular path))
    else
      match entry.read with
      | .error e => .error (.io (.readFile e))
      | .ok content =>
        if limit < content.size then .error (.data (.fileTooLong content.size limit))
        else .ok content

/-- Reads the text of an input; what is no text in a file is replaced. -/
def readContent (path : String) : Job String := do
  if path = standardInput then readStandardInput
  else return Text.lossy (← fileAt (← get).files path maxInputSize).toBytes

/-- The directory and the name that an output path leads to. -/
def outputPlace (files : FileTree) (path : String) : Except Failure (Place × String) :=
  let directory := Path.directory path
  match files.resolve directory with
  | .error e => .error (.io (.outputDirectory directory e))
  | .ok place =>
    match Path.fileName? path with
    | some name => .ok (place, name)
    | none => .error (.io .outputUnnamed)

/-- Writes a file of a given name into a directory. -/
def writeFile (directory : Place) (name : String) (data : List UInt8) : Job Unit := do
  let host ← get
  match host.files.write directory name data with
  | .ok files => set { host with files }
  | .error e => throw (.io (.writeFile e))

/-! ### Stores -/

/-- A graph over a store in memory or a store of bytes. -/
abbrev HostSubstrate : Type := Substrate (Store.Tables ⊕ Store.Blobs)

/-- The contents of the store at a place; nothing there, or a file without a byte, is a store without
elements. -/
def storeAt? (files : FileTree) (place : Place) : Option Store.Blobs :=
  match files.entry? place with
  | none => some {}
  | some (.store contents) => some contents
  | some (.file content) => if content.size = 0 then some {} else none
  | some .directory | some .device => none

/-- Opens the store at a path, which makes it if there is none. -/
def openStore (path : String) : Job Store.Blobs := do
  let host ← get
  match host.files.locateOrVacant path with
  | .error _ => throw (.io .unusableStore)
  | .ok place =>
    match storeAt? host.files place with
    | none => throw (.io .unusableStore)
    | some contents =>
      set { host with files := host.files.put place (.store contents) }
      return contents

/-- Opens the graph of a store, or an empty one in memory. -/
def openSubstrate : Option String → Job HostSubstrate
  | none => return .ofStore (.inl {})
  | some path => do
    let (listed, s) := (Substrate.ofStore (.inr (← openStore path))).load
    if listed then return s else throw (.io (.listStore (Text.quote path)))

/-- Keeps what a graph has in its store at the path that the store was opened at. -/
def keep (path : Option String) (s : HostSubstrate) : Job Unit := do
  let host ← get
  match path, s.store with
  | some path, .inr contents =>
    match host.files.locateOrVacant path with
    | .ok place => set { host with files := host.files.put place (.store contents) }
    | .error _ => return
  | _, _ => return

end ResonantGraph.Command
