import ResonantGraph.Command

/-!
# The program

The outer layer reads the files that a command line names into a file tree, carries out the command
on it, and writes back what the command changed. What a command prints goes to standard output, a
failure to standard error, with exit status 1, or 2 where the command line is not understood.
-/

namespace ResonantGraph.Main

open Command

/-- The version of the program. -/
def version : String := "0.4.2"

/-- What is said before a command is carried out. -/
def banner : String := "HyperEcho v" ++ version ++ " - hypergraph substrate, cognitive echo"

/-- What is printed when help is asked for. -/
def help : List String :=
  ["Usage: hyperecho [OPTIONS] [COMMAND]",
    "",
    "Commands:",
    "  echo FILE...             Echo files through the resonance handler",
    "  map FILE... [-a K=V]     Map files into the substrate",
    "  status [-n NODE]         Show substrate metrics (default)",
    "  export -o FILE           Export the substrate as a snapshot file",
    "  import -i FILE           Replace the stored substrate with a snapshot file",
    "  resonance -t TEXT        Compute resonance of a text against the unit identity",
    "",
    "Options:",
    "  -v, --verbose            Enable verbose output",
    "  -q, --quiet              Suppress banner output",
    "  -D, --store FILE         Path to the substrate database (in-memory when omitted)",
    "  -c, --config FILE        Path to the configuration file [default: hyperecho.toml]",
    "      --json               Output in JSON format",
    "  -h, --help               Print help",
    "  -V, --version            Print version"]

/-- The paths that an invocation looks at. -/
def pathsOf (invocation : Invocation) : List String :=
  invocation.settings :: invocation.store.toList ++
    match invocation.action with
    | .echo files | .map files _ => files
    | .exportSnapshot output => [Path.directory output, output]
    | .importSnapshot input => [input]
    | .status _ | .resonance _ => []

/-- Whether an invocation reads standard input. -/
def readsInput (invocation : Invocation) : Bool :=
  match invocation.action with
  | .echo files | .map files _ => files.contains standardInput
  | _ => false

/-- The greatest number of bytes of a file that is read at all; no command takes a longer one. -/
def maxReadSize : Nat := Snapshot.maxSize

/-- The entry that the file system has under an absolute path. -/
def entryAt? (path : String) : IO (Option Entry) := do
  try
    let real ← IO.FS.realPath path
    if ← real.isDir then return some .directory
    let status ← real.metadata
    match status.type with
    | .file =>
      let size := status.byteSize.toNat
      if maxReadSize < size then return some (.file (.zeros size))
      let data := (← IO.FS.readBinFile real).toList
      match if data.isEmpty then none else Store.Blobs.ofFile? data with
      | some contents => return some (.store contents)
      | none => return some (.file (.bytes data))
    | _ => return some .device
  catch _ => return none

/-- Adds what stands at a place to a tree. -/
def addPlace (t : FileTree) (place : Place) : IO FileTree := do
  if place = [] then return t
  match ← entryAt? place.path with
  | some entry => return t.put place entry
  | none => return t

/-- Adds what stands on the way along a path to a tree. -/
def addPath (t : FileTree) (path : String) : IO FileTree := do
  let follow (here : Place) (part : String) : Place :=
    if Path.isIdle part then here else if part = ".." then here.dropLast else here ++ [part]
  let mut here := t.start path
  let mut t := t
  for part in Path.parts path do
    here := follow here part
    t ← addPlace t here
  return t

/-- The tree of what an invocation looks at. -/
def loadFiles (invocation : Invocation) : IO FileTree := do
  let current := (Path.parts (← IO.currentDir).toString).filter Path.isName
  let mut t : FileTree := { workingDirectory := current }
  for depth in List.range current.length do
    t := t.put (current.take (depth + 1)) .directory
  for path in pathsOf invocation do
    t ← addPath t path
  return t

/-- Writes back the entries that an invocation may have changed: its store and its output. -/
def storeFiles (invocation : Invocation) (before after : FileTree) : IO Unit := do
  let changed := (after.entries.entries.filter fun (path, entry) =>
    match entry, before.entries.find? path with
    | .store contents, some (.store old) => contents ≠ old
    | .store _, _ => true
    | .file _, some (.store _) => true
    | .file _, _ =>
      match invocation.action with
      | .exportSnapshot output =>
        match after.resolve output with
        | .ok place => place.path = path
        | .error _ => false
      | _ => false
    | .directory, _ | .device, _ => false)
  for (path, entry) in changed do
    match entry.read with
    | .ok content => IO.FS.writeBinFile path ⟨content.toBytes.toArray⟩
    | .error _ => pure ()

/-- Carries out an invocation on the file system and returns the exit status. -/
def carryOut (invocation : Invocation) : IO UInt32 := do
  let files ← loadFiles invocation
  let input ←
    if readsInput invocation then do
      let stdin ← IO.getStdin
      pure (← stdin.readBinToEnd).toList
    else pure []
  let (result, host) := (Command.run invocation).on { files, input }
  storeFiles invocation files host.files
  IO.print host.output
  match result with
  | .ok () => return 0
  | .error e =>
    IO.eprintln ("Error: " ++ e.message)
    return 1

end ResonantGraph.Main

/-- Reads the command line and carries it out. -/
def main (arguments : List String) : IO UInt32 := do
  match ResonantGraph.Command.readCommandLine arguments with
  | .ok invocation =>
    if !invocation.quiet && !invocation.json then
      IO.eprintln ResonantGraph.Main.banner
    ResonantGraph.Main.carryOut invocation
  | .error .helpWanted =>
    ResonantGraph.Main.help.forM IO.println
    return 0
  | .error .versionWanted =>
    IO.println ("hyperecho " ++ ResonantGraph.Main.version)
    return 0
  | .error e =>
    IO.eprintln ("error: " ++ e.message)
    return 2
