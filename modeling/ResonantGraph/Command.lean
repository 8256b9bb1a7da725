import ResonantGraph.Command.Arguments
import ResonantGraph.Command.Host
import ResonantGraph.Command.Report
import ResonantGraph.Processor.Echo
import ResonantGraph.Snapshot

/-!
# Commands

What the host program does for each command. The settings are read first, whatever the command;
then the command runs until it is done or fails, and what it printed, wrote and stored until then
stays.

* `runEcho` and `runMap` process files in order, each printing its outcome before the next is read.
  Mapping keeps the store up to date after every file, and saves the whole graph at the end.
* `runStatus` and `runScore` report.
* `runExport` writes a snapshot of the graph; `runImport` puts the graph of a snapshot in place of
  the stored one.
-/

namespace ResonantGraph.Command

/-! ### Processing files -/

/-- The unit that the settings describe, with a handler. -/
def unitOf {σ : Type} (settings : Settings) (handler : Handler σ) : Processor σ where
  name := settings.unitName
  extraPatterns := settings.extraPatterns
  handler := handler

/-- The attribute of a record that names its file. -/
def fileNameAttribute : String := "filename"

/-- The record of a content that was read from a path: it bears the name of the file, and attributes
that may replace it. -/
def recordOf (path content : String) (attributes : List (String × String)) : Record where
  content := content
  attributes :=
    let name := if path = standardInput then none else Path.fileName? path
    Table.ofList ((name.map fun name => (fileNameAttribute, name)).toList ++ attributes)

/-- Reads a file, has a unit process it, and prints the outcome. `keepUp` is told of the workspace
after the unit is done with it. -/
def processFile {σ : Type} [Store σ] (unit : Processor σ) (attributes : List (String × String))
    (json : Bool) (keepUp : Workspace σ → Job Unit) (w : Workspace σ) (path : String) :
    Job (Workspace σ) := do
  let record := recordOf path (← readContent path) attributes
  let (result, w) := unit.process record w
  keepUp w
  let outcome ← result
  sayAll ((Report.ofOutcome path outcome).shown json)
  return w

/-- Echoes files. No store is opened. -/
def runEcho (settings : Settings) (json : Bool) (files : List String) : Job Unit := do
  let unit := unitOf settings (Echo.handler Store.Tables settings.resonanceThreshold)
  let _ ← files.foldlM (processFile unit [] json fun _ => pure ()) (unit.setUp {})

/-- Keeps the store of a workspace up to date. -/
def keepWorkspace (store : Option String) (w : Workspace (Store.Tables ⊕ Store.Blobs)) : Job Unit :=
  match w.substrate with
  | some s => keep store s
  | none => pure ()

/-- Maps files into the graph of a store. -/
def runMap (settings : Settings) (store : Option String) (json : Bool) (files : List String)
    (attributes : List (String × String)) : Job Unit := do
  let unit := unitOf settings settings.mapper.handler
  let w := unit.setUp { substrate := some (← openSubstrate store) }
  keepWorkspace store w
  let w ← files.foldlM (processFile unit attributes json (keepWorkspace store)) w
  keepWorkspace store { w with substrate := w.substrate.map fun s => s.save.2 }

/-! ### Reports -/

/-- Reports figures about the graph of a store. -/
def runStatus (store : Option String) (json : Bool) (node : Option NodeId) : Job Unit := do
  let s ← openSubstrate store
  sayAll ((Report.ofStatus store node (s.graph.metrics node)).shown json)

/-- Reports the score of a text against the unit's identity. -/
def runScore (settings : Settings) (json : Bool) (text : String) : Job Unit := do
  let unit := unitOf settings (Echo.handler Store.Tables settings.resonanceThreshold)
  let kernel := (unit.setUp {}).kernel
  sayAll ((Report.ofScore text kernel.identity (kernel.resonanceOf text)).shown json)

/-! ### Snapshots -/

/-- Writes a snapshot of the graph of a store. -/
def runExport (store : Option String) (output : String) : Job Unit := do
  let (directory, name) ← outputPlace (← get).files output
  let s ← openSubstrate store
  let data := Snapshot.encode s.graph
  writeFile directory name data
  say ("Exported " ++ toString data.length ++ " bytes to " ++
    Text.quote (Place.path (directory ++ [name])))

/-- Puts the graph of a snapshot in place of the graph of a store. A file that begins otherwise than a
snapshot is refused before the rest of it is looked at. -/
def runImport (store : Option String) (input : String) : Job Unit := do
  if store.isNone then throw (.io .importTarget)
  let content ← fileAt (← get).files input Snapshot.maxSize
  Snapshot.checkStart content.size (content.front Snapshot.headerSize)
  let graph ← Snapshot.decode content.toBytes
  let s := ((← openSubstrate store).restore graph).2
  keep store s
  say ("Imported substrate: " ++ toString s.graph.nodes.size ++ " nodes, " ++
    toString s.graph.edges.size ++ " edges")

/-! ### Invocations -/

/-- Carries out an invocation. -/
def run (invocation : Invocation) : Job Unit := do
  let settings ← settingsAt (← get).files invocation.settings
  match invocation.action with
  | .echo files => runEcho settings invocation.json files
  | .map files attributes => runMap settings invocation.store invocation.json files attributes
  | .status node => runStatus invocation.store invocation.json node
  | .exportSnapshot output => runExport invocation.store output
  | .importSnapshot input => runImport invocation.store input
  | .resonance text => runScore settings invocation.json text

end ResonantGraph.Command
