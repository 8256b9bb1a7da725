import ResonantGraph.Proofs.Command.Jobs
import ResonantGraph.Proofs.Mapper.Session

/-!
# Runs of the mapper

A run opens the store, sets up its unit, and takes in files one after the other, keeping the store up to
date after each. So the store holds the graph at every point, and a session of the mapper goes on in the
store as it would in memory (`returns_mapFiles`). The save in the end finds everything saved
(`runMap_of_mapFiles`), and a file that cannot be read ends the run and undoes nothing (`runMap_fails`).

All of this is for files that can be read and texts that are far from the limits of a machine
(`Modest`), so that whatever comes up fits the store.
-/

namespace ResonantGraph.Command

open Operation (nextAll)
open Store (Blobs Tables)

/-! ### What is asked of the command line -/

/-- Settings, attributes and files that are far from any limit of a machine. -/
structure Modest (settings : Settings) (attributes : List (String × String)) (files : Nat) : Prop where
  /-- The name of the unit is a text of modest size. -/
  unitName : Text.Takes 1 settings.unitName
  /-- So is each of its patterns. -/
  patterns : ∀ pattern ∈ settings.extraPatterns, Text.Takes 1 pattern
  /-- A word can count the patterns. -/
  patternCount : settings.extraPatterns.length < 2 ^ 63
  /-- There are no more attributes than a command line has room for. -/
  attributeCount : attributes.length < 2 ^ 30
  /-- Their names and values are of modest size. -/
  attributes : ∀ a ∈ attributes, Text.Takes 1 a.1 ∧ Text.Takes 1 a.2
  /-- There are no more files than a command line has room for. -/
  fileCount : files < 2 ^ 30

/-- The identity of the unit that the settings describe. -/
def identityIn (settings : Settings) : Identity :=
  Processor.identityOf settings.unitName settings.extraPatterns

/-- The root node of the unit that the settings describe, as a mapper. -/
def rootIn (settings : Settings) : Node :=
  (unitOf settings (settings.mapper.handler : Handler Tables)).rootNode

/-- The record of a file with some content. -/
def recordAt (attributes : List (String × String)) (file : String × Content) : Record :=
  recordOf file.1 (Text.lossy file.2.toBytes) attributes

/-- The attribute that a path gives the record of its file, if it does. -/
def attributeOf? (path : String) : Option (String × String) :=
  (if path = standardInput then none else Path.fileName? path).map fun name => (fileNameAttribute, name)

theorem attributes_recordAt (attributes : List (String × String)) (file : String × Content) :
    (recordAt attributes file).attributes =
      Table.ofList ((attributeOf? file.1).toList ++ attributes) := rfl

/-- It is the name of the file. -/
theorem attributeOf?_eq_some {path : String} {a : String × String} (h : attributeOf? path = some a) :
    ∃ name, Path.fileName? path = some name ∧ a = (fileNameAttribute, name) := by
  obtain ⟨name, hname, rfl⟩ := Option.map_eq_some_iff.1 h
  split at hname
  · cases hname
  · exact ⟨name, hname, rfl⟩

section Modest

variable {settings : Settings} {attributes : List (String × String)} {files : Nat}

theorem Modest.identity (h : Modest settings attributes files) : (identityIn settings).Fits where
  signature := (h.unitName.append (.of_length (by decide))).fits (by decide)
  patternCount := by
    have hcount := h.patternCount
    change (settings.extraPatterns.length + 1) + 3 < UInt64.size
    unfold UInt64.size
    omega
  patterns := by
    change ∀ pattern ∈ Processor.basePatterns ++ settings.unitName :: settings.extraPatterns,
      Text.Fits pattern
    refine List.forall_mem_append.2 ⟨by decide, List.forall_mem_cons.2
      ⟨h.unitName.fits (by decide), fun pattern hpattern => (h.patterns pattern hpattern).fits (by decide)⟩⟩

theorem Modest.root (h : Modest settings attributes files) : (rootIn settings).Fits where
  id := (h.unitName.append (.of_length (by decide))).fits (by decide)
  label := (h.unitName.append (.of_length (by decide))).fits (by decide)
  attributes := by
    refine Table.fits_ofList (by decide : 2 < UInt64.size) ?_
    refine List.forall_mem_cons.2 ⟨⟨?_, ?_⟩, List.forall_mem_singleton.2 ⟨?_, ?_⟩⟩
    · exact (by decide : Text.Fits "processor_type")
    · exact (by decide : Text.Fits "mapper")
    · exact (by decide : Text.Fits "processor_name")
    · exact h.unitName.fits (by decide)
  identity := h.identity

/-- The record of a file that can be read is of modest size. -/
theorem Modest.record (h : Modest settings attributes files) {tree : FileTree} {file : String × Content}
    (hread : fileAt tree file.1 maxInputSize = .ok file.2) : (recordAt attributes file).Modest := by
  obtain ⟨hsize, hname⟩ := fileAt_eq_ok hread
  have hcount := h.attributeCount
  refine ⟨?content, ?count, fun e he => ?attributes⟩
  case content =>
    have hlossy := Text.length_lossy_le file.2.toBytes
    rw [Content.length_toBytes] at hlossy
    unfold maxInputSize at hsize
    change (Text.lossy file.2.toBytes).length ≤ _
    omega
  case count =>
    have hofList := Table.size_ofList_le ((attributeOf? file.1).toList ++ attributes)
    have hnamed : (attributeOf? file.1).toList.length ≤ 1 := Option.length_toList_le
    rw [List.length_append] at hofList
    rw [attributes_recordAt]
    omega
  case attributes =>
    rcases List.mem_append.1 (Table.mem_of_mem_ofList he) with hnamed | hattribute
    · -- a name in a directory has a limit of its own
      obtain ⟨name, hfound, rfl⟩ := attributeOf?_eq_some (Option.mem_toList.1 hnamed)
      have hshort : Text.Takes 1 name := by
        have hsize := hname name hfound
        constructor
        rw [Text.length_bytes]
        unfold FileTree.maxNameSize at hsize
        unfold Text.share
        omega
      exact ⟨.of_length (by decide : fileNameAttribute.length ≤ 2 ^ 57), hshort⟩
    · exact h.attributes e hattribute

end Modest

/-- With given attributes, the names of all flows have one length. -/
theorem exists_length_flowOf (attributes : List (String × String)) :
    ∃ length, ∀ file, (Mapper.flowOf (recordAt attributes file)).length = length := by
  have huuid (file : String × Content) : (recordAt attributes file).uuid? =
      (Table.lookup Record.flowAttribute attributes.reverse).filter (· ≠ "") := by
    -- the name of the file is no attribute that names a flow
    have hnamed : (Table.ofList (attributeOf? file.1).toList).find? Record.flowAttribute = none := by
      cases hattribute : attributeOf? file.1 with
      | none => rfl
      | some a =>
        obtain ⟨name, -, rfl⟩ := attributeOf?_eq_some hattribute
        rfl
    have hparts : (recordAt attributes file).attributes =
        (Table.ofList (attributeOf? file.1).toList).insertAll attributes := List.foldl_append
    unfold Record.uuid?
    rw [hparts, Table.find?_insertAll, hnamed, Option.or_none]
  cases hflow : (Table.lookup Record.flowAttribute attributes.reverse).filter (· ≠ "") with
  | some uuid =>
    refine ⟨uuid.length, fun file => ?_⟩
    unfold Mapper.flowOf
    rw [huuid, hflow, Option.getD_some]
  | none =>
    refine ⟨5 + 16, fun file => ?_⟩
    unfold Mapper.flowOf
    rw [huuid, hflow, Option.getD_none, String.length_append, Mapper.length_hexOfText]
    rfl

/-! ### Hosts of a run -/

/-- The host with contents in the store at a place, and with more output. -/
def Host.mapped (host : Host) (place : Place) (contents : Blobs) (text : String) : Host :=
  { host with
    files := host.files.put place (.store contents)
    output := host.output ++ text }

/-- A path leads to a file with some content, whatever is in the store at a place. -/
structure Readable (tree : FileTree) (place : Place) (file : String × Content) : Prop where
  /-- It does not stand for standard input. -/
  named : file.1 ≠ standardInput
  /-- It reads as the content. -/
  reads : ∀ contents, fileAt (tree.put place (.store contents)) file.1 maxInputSize = .ok file.2

/-- A path leads to no file that can be read, whatever is in the store at a place. -/
structure Unreadable (tree : FileTree) (place : Place) (path : String) : Prop where
  /-- It does not stand for standard input. -/
  named : path ≠ standardInput
  /-- It cannot be read. -/
  fails : ∀ contents, ∃ e, fileAt (tree.put place (.store contents)) path maxInputSize = .error e

/-- A file that can be read stays as it is, as long as it is not the store. -/
theorem Readable.of_fileAt {tree : FileTree} {path store : String} {place source : Place}
    {content : Content} (hstore : StoreAt tree store place {}) (named : path ≠ standardInput)
    (hread : fileAt tree path maxInputSize = .ok content) (hsource : tree.resolve path = .ok source)
    (other : place.path ≠ source.path) : Readable tree place (path, content) where
  named := named
  reads contents := by
    rw [← hread]
    exact fileAt_grows (hstore.grows contents) hsource (FileTree.entry?_put_of_ne _ other _) _

/-- What is printed about files and their outcomes. -/
def reported (json : Bool) : List String → List Outcome → String
  | path :: paths, outcome :: outcomes =>
    printed ((Report.ofOutcome path outcome).shown json) ++ reported json paths outcomes
  | _, _ => ""

theorem reported_single (json : Bool) (path : String) (outcome : Outcome) :
    reported json [path] [outcome] = printed ((Report.ofOutcome path outcome).shown json) :=
  String.append_empty

theorem reported_cons (json : Bool) (path : String) (paths : List String) (outcome : Outcome)
    (outcomes : List Outcome) :
    reported json (path :: paths) (outcome :: outcomes) =
      reported json [path] [outcome] ++ reported json paths outcomes := by
  rw [reported_single]
  rfl

section Hosts

variable {h : Host} {path : String} {place : Place}

theorem StoreAt.mapped (hstore : StoreAt h.files path place {}) (contents : Blobs) (text : String) :
    StoreAt (h.mapped place contents text).files path place contents := hstore.put contents

theorem withStore_mapped (contents contents' : Blobs) (text : String) :
    (h.mapped place contents text).withStore place contents' = h.mapped place contents' text := by
  unfold Host.withStore Host.mapped
  dsimp only
  rw [FileTree.put_put]

theorem returns_sayAll_mapped (json : Bool) (source : String) (outcome : Outcome) (contents : Blobs)
    (text : String) :
    (sayAll ((Report.ofOutcome source outcome).shown json)).Returns (h.mapped place contents text) ()
      (h.mapped place contents (text ++ reported json [source] [outcome])) := by
  have hsaid := returns_sayAll ((Report.ofOutcome source outcome).shown json)
    (h.mapped place contents text)
  have hafter : h.mapped place contents (text ++ reported json [source] [outcome]) =
      { h.mapped place contents text with
        output := (h.mapped place contents text).output ++
          printed ((Report.ofOutcome source outcome).shown json) } := by
    unfold Host.mapped
    dsimp only
    rw [reported_single, String.append_assoc]
  rwa [← hafter] at hsaid

/-- Opening the store of a substrate that is kept gives the substrate again. -/
theorem returns_openSubstrate_mapped (hstore : StoreAt h.files path place {}) {room : Nat}
    {s : Substrate Blobs} (kept : s.Kept room) (text : String) :
    (openSubstrate (some path)).Returns (h.mapped place s.store text) s.opened.inRight
      (h.mapped place s.store text) := by
  have hopen := returns_openSubstrate (hstore.mapped s.store text)
  rwa [kept.load_opened, withStore_mapped] at hopen

theorem returns_keepWorkspace (hstore : StoreAt h.files path place {}) (s : Substrate Blobs)
    (kernel : Kernel) (contents : Blobs) (text : String) :
    (keepWorkspace (some path) { kernel, substrate := some s.inRight }).Returns
      (h.mapped place contents text) () (h.mapped place s.store text) := by
  have hkeep := returns_keep (hstore.mapped contents text) s
  rwa [withStore_mapped] at hkeep

theorem returns_readContent {file : String × Content} (hread : Readable h.files place file)
    (contents : Blobs) (text : String) :
    (readContent file.1).Returns (h.mapped place contents text) (Text.lossy file.2.toBytes)
      (h.mapped place contents text) := by
  unfold readContent
  rw [if_neg hread.named]
  refine (Job.returns_get _).bind ?_
  refine (Job.returns_lift (hread.reads contents) _).bind ?_
  exact Job.returns_pure _ _

theorem fails_readContent {missing : String} (hfails : Unreadable h.files place missing)
    (contents : Blobs) (text : String) :
    ∃ e, (readContent missing).Fails (h.mapped place contents text) e
      (h.mapped place contents text) := by
  obtain ⟨e, he⟩ := hfails.fails contents
  refine ⟨e, ?_⟩
  unfold readContent
  rw [if_neg hfails.named]
  exact (Job.returns_get _).bind_fails (Job.fails_lift he _).bind

end Hosts

/-! ### Runs -/

section Runs

variable {h : Host} {path : String} {place : Place} {settings : Settings}
  {attributes : List (String × String)} (json : Bool) {count room : Nat}

/-- The unit of a run. -/
def runUnit (settings : Settings) : Processor (Tables ⊕ Blobs) := unitOf settings settings.mapper.handler

/-- A workspace of the unit with a substrate over a store of bytes. -/
def Working (settings : Settings) (s : Substrate Blobs) (w : Workspace (Tables ⊕ Blobs)) : Prop :=
  ∃ kernel, kernel.identity = identityIn settings ∧ w = { kernel, substrate := some s.inRight }

/-- Processing a record brings it into the store of bytes, and its outcome is that of a session. -/
theorem process_working (hmodest : Modest settings attributes count) {record : Record}
    (hrecord : record.Modest) {s : Substrate Blobs} (kept : s.Kept (room + 1))
    {w : Workspace (Tables ⊕ Blobs)} (hw : Working settings s w) {outcome : Outcome}
    (report : settings.mapper.report
      (nextAll s.graph (settings.mapper.script s.graph record (identityIn settings))) (Mapper.flowOf record)
      (settings.mapper.similarOf s.graph record (identityIn settings)).length = .ok outcome) :
    ∃ s' w', (runUnit settings).process record w = (.ok outcome, w') ∧ Working settings s' w' ∧
      s'.Kept room ∧
      s'.graph = nextAll s.graph (settings.mapper.script s.graph record (identityIn settings)) := by
  obtain ⟨kernel, hidentity, rfl⟩ := hw
  let script := settings.mapper.script s.graph record (identityIn settings)
  have adds : ∀ op ∈ script, op.adds = true := Mapper.adds_script
  obtain ⟨kernel', hkernel', hprocess⟩ := Mapper.process_handler (p := runUnit settings)
    (m := settings.mapper) (s := s.inRight) rfl record kernel kept.wellFormed
  -- over one of two kinds of stores the script does what it does over the store of bytes
  have hright : ((s.inRight : HostSubstrate).performAll script).2 = (s.performAll script).2.inRight :=
    s.performAll_inRight adds
  rw [hidentity] at hkernel' hprocess
  refine ⟨(s.performAll script).2, { kernel := kernel', substrate := some (s.performAll script).2.inRight },
    ?_, ⟨kernel', hkernel', rfl⟩, kept.script hrecord hmodest.identity, s.graph_performAll adds⟩
  rw [hprocess]
  refine Prod.ext report ?_
  change ({ kernel := kernel', substrate := some ((s.inRight : HostSubstrate).performAll script).2 } :
    Workspace (Tables ⊕ Blobs)) = _
  rw [hright]

/-- A file is processed, its record comes into the store, and its outcome is printed. -/
theorem returns_processFile (hstore : StoreAt h.files path place {})
    (hmodest : Modest settings attributes count) {file : String × Content}
    (hread : Readable h.files place file) {s : Substrate Blobs} (kept : s.Kept (room + 1))
    {w : Workspace (Tables ⊕ Blobs)} (hw : Working settings s w) {outcome : Outcome}
    (report : settings.mapper.report
      (nextAll s.graph (settings.mapper.script s.graph (recordAt attributes file) (identityIn settings)))
      (Mapper.flowOf (recordAt attributes file))
      (settings.mapper.similarOf s.graph (recordAt attributes file) (identityIn settings)).length =
        .ok outcome) (text : String) :
    ∃ s' w', (processFile (runUnit settings) attributes json (keepWorkspace (some path)) w file.1).Returns
        (h.mapped place s.store text) w'
        (h.mapped place s'.store (text ++ reported json [file.1] [outcome])) ∧
      Working settings s' w' ∧ s'.Kept room ∧
      s'.graph = nextAll s.graph
        (settings.mapper.script s.graph (recordAt attributes file) (identityIn settings)) := by
  obtain ⟨s', w', hprocess, hw', kept', hgraph⟩ :=
    process_working hmodest (hmodest.record (hread.reads s.store)) kept hw report
  refine ⟨s', w', ?_, hw', kept', hgraph⟩
  unfold processFile
  refine (returns_readContent hread s.store text).bind ?_
  change (match (runUnit settings).process (recordAt attributes file) w with
    | (result, w) => do
      keepWorkspace (some path) w
      let outcome ← result
      sayAll ((Report.ofOutcome file.1 outcome).shown json)
      return w : Job (Workspace (Tables ⊕ Blobs))).Returns _ _ _
  rw [hprocess]
  obtain ⟨kernel, -, rfl⟩ := hw'
  refine (returns_keepWorkspace hstore s' kernel s.store text).bind ?_
  refine (Job.returns_lift rfl _).bind ?_
  exact (returns_sayAll_mapped json file.1 outcome s'.store text).bind (Job.returns_pure _ _)

/-- Files are processed in order: a session of the mapper. -/
theorem returns_files (hstore : StoreAt h.files path place {}) (hmodest : Modest settings attributes count)
    {files : List (String × Content)} (hread : ∀ file ∈ files, Readable h.files place file)
    {s : Substrate Blobs} (kept : s.Kept (files.length + room)) {w : Workspace (Tables ⊕ Blobs)}
    (hw : Working settings s w) {outcomes : List Outcome} {g' : Hypergraph}
    (session : settings.mapper.Session (identityIn settings) s.graph
      (files.map (recordAt attributes)) outcomes g') (text : String) :
    ∃ s' w', ((files.map Prod.fst).foldlM
        (processFile (runUnit settings) attributes json (keepWorkspace (some path))) w).Returns
        (h.mapped place s.store text) w'
        (h.mapped place s'.store (text ++ reported json (files.map Prod.fst) outcomes)) ∧
      Working settings s' w' ∧ s'.Kept room ∧ s'.graph = g' := by
  induction files generalizing s w outcomes text with
  | nil =>
    cases session
    rw [List.length_nil, Nat.zero_add] at kept
    refine ⟨s, w, ?_, hw, kept, rfl⟩
    have hnothing : text ++ reported json (List.map Prod.fst ([] : List (String × Content))) [] = text :=
      String.append_empty
    rw [hnothing]
    exact Job.returns_pure _ _
  | cons file files ih =>
    rw [List.forall_mem_cons] at hread
    cases session with
    | @cons _ _ _ _ outcome outcomes report rest =>
      have kept' : s.Kept (files.length + room + 1) := kept.weaken (by rw [List.length_cons]; omega)
      obtain ⟨s₁, w₁, hfile, hw₁, kept₁, hgraph⟩ :=
        returns_processFile json hstore hmodest hread.1 kept' hw report text
      rw [← hgraph] at rest
      obtain ⟨s₂, w₂, hfiles, hw₂, kept₂, hend⟩ := ih hread.2 kept₁ hw₁ rest
        (text ++ reported json [file.1] [outcome])
      refine ⟨s₂, w₂, ?_, hw₂, kept₂, hend⟩
      rw [List.map_cons, reported_cons, ← String.append_assoc, List.foldlM_cons]
      exact hfile.bind hfiles

/-- What a run begins with: the graph of the store, and the root node if it is not there. -/
def started (settings : Settings) (s : Substrate Blobs) : Hypergraph :=
  Operation.next s.opened.graph (.addNode (rootIn settings))

/-- A run sets up its unit on what it finds in the store. -/
theorem setUp_kept (hmodest : Modest settings attributes count) {s : Substrate Blobs}
    (kept : s.Kept (room + 1)) :
    ∃ s₁ w₁, (runUnit settings).setUp { substrate := some s.opened.inRight } = w₁ ∧
      Working settings s₁ w₁ ∧ s₁.Kept room ∧ s₁.graph = started settings s := by
  let s₁ := (s.opened.performAll [.addNode (rootIn settings)]).2
  have adds : ∀ op ∈ [Operation.addNode (rootIn settings)], op.adds = true :=
    List.forall_mem_singleton.2 rfl
  have kept₁ : s₁.Kept room :=
    kept.opened.performAll adds (List.forall_mem_singleton.2 hmodest.root)
      (by decide : 1 ≤ Mapper.mostOperations)
  have hright : ((s.opened.inRight : HostSubstrate).performAll [.addNode (rootIn settings)]).2 =
      s₁.inRight := s.opened.performAll_inRight adds
  refine ⟨s₁, _, rfl, ⟨({} : Kernel).awaken (identityIn settings), Kernel.identity_awaken .., ?_⟩, kept₁,
    s.opened.graph_performAll adds⟩
  rw [← hright]
  rfl

/-- What a run does before the last save. -/
def mapFiles (settings : Settings) (path : String) (json : Bool) (attributes : List (String × String))
    (names : List String) : Job (Workspace (Tables ⊕ Blobs)) := do
  let w := (runUnit settings).setUp { substrate := some (← openSubstrate (some path)) }
  keepWorkspace (some path) w
  names.foldlM (processFile (runUnit settings) attributes json (keepWorkspace (some path))) w

section Run

variable {missing : String} {files : List (String × Content)} {s : Substrate Blobs} {host : Host} {text : String}
  {outcomes : List Outcome} {g' : Hypergraph}

/-- A run takes in its files, whatever comes after them. -/
theorem returns_mapFiles (hstore : StoreAt h.files path place {})
    (hmodest : Modest settings attributes count) (hread : ∀ file ∈ files, Readable h.files place file)
    (kept : s.Kept (files.length + room + 1))
    (hopen : (openSubstrate (some path)).Returns host s.opened.inRight (h.mapped place s.store text))
    (session : settings.mapper.Session (identityIn settings) (started settings s)
      (files.map (recordAt attributes)) outcomes g') :
    ∃ s' w', (mapFiles settings path json attributes (files.map Prod.fst)).Returns host w'
        (h.mapped place s'.store (text ++ reported json (files.map Prod.fst) outcomes)) ∧
      Working settings s' w' ∧ s'.Kept room ∧ s'.graph = g' := by
  obtain ⟨s₁, w₁, hsetUp, hw₁, kept₁, hgraph⟩ := setUp_kept hmodest kept
  rw [← hgraph] at session
  obtain ⟨s₂, w₂, hfiles, hw₂, kept₂, hend⟩ :=
    returns_files json hstore hmodest hread kept₁ hw₁ session text
  refine ⟨s₂, w₂, ?_, hw₂, kept₂, hend⟩
  unfold mapFiles
  refine hopen.bind ?_
  dsimp only
  rw [hsetUp]
  obtain ⟨kernel, -, rfl⟩ := hw₁
  exact (returns_keepWorkspace hstore s₁ kernel s.store text).bind hfiles

/-- The last save of a run finds everything saved. -/
theorem runMap_of_mapFiles (hstore : StoreAt h.files path place {}) {names : List String}
    {w' : Workspace (Tables ⊕ Blobs)} (hw : Working settings s w') (kept : s.Kept room)
    (hfiles : (mapFiles settings path json attributes names).Returns host w'
      (h.mapped place s.store text)) :
    (runMap settings (some path) json names attributes).Returns host () (h.mapped place s.store text) := by
  obtain ⟨kernel, -, rfl⟩ := hw
  have hrun : runMap settings (some path) json names attributes =
      mapFiles settings path json attributes names >>= fun w =>
        keepWorkspace (some path) { w with substrate := w.substrate.map fun s => s.save.2 } := by
    unfold runMap mapFiles
    simp only [bind_assoc]
    rfl
  have hsave : (s.inRight : HostSubstrate).save.2 = s.inRight := by rw [s.save_inRight, kept.save]
  rw [hrun]
  refine hfiles.bind ?_
  change (keepWorkspace (some path)
    { kernel, substrate := some (s.inRight : HostSubstrate).save.2 }).Returns _ _ _
  rw [hsave]
  exact returns_keepWorkspace hstore s kernel s.store text

/-- A file that cannot be read ends a run, and leaves what the run has done so far. -/
theorem runMap_fails (hmissing : Unreadable h.files place missing) {names : List String}
    {w' : Workspace (Tables ⊕ Blobs)}
    (hfiles : (mapFiles settings path json attributes names).Returns host w'
      (h.mapped place s.store text)) :
    ∃ e, (runMap settings (some path) json (names ++ [missing]) attributes).Fails host e
      (h.mapped place s.store text) := by
  obtain ⟨e, hfails⟩ := fails_readContent hmissing s.store text
  refine ⟨e, ?_⟩
  have hrun : runMap settings (some path) json (names ++ [missing]) attributes =
      mapFiles settings path json attributes names >>= fun w =>
        processFile (runUnit settings) attributes json (keepWorkspace (some path)) w missing >>= fun w =>
          keepWorkspace (some path) { w with substrate := w.substrate.map fun s => s.save.2 } := by
    unfold runMap mapFiles
    simp only [bind_assoc, List.foldlM_append, List.foldlM_cons, List.foldlM_nil, pure_bind]
    rfl
  rw [hrun]
  exact hfiles.bind_fails (Job.Fails.bind hfails.bind)

/-- A run takes in its files. -/
theorem returns_runMap (hstore : StoreAt h.files path place {}) (hmodest : Modest settings attributes count)
    (hread : ∀ file ∈ files, Readable h.files place file) (kept : s.Kept (files.length + room + 1))
    (hopen : (openSubstrate (some path)).Returns host s.opened.inRight (h.mapped place s.store text))
    (session : settings.mapper.Session (identityIn settings) (started settings s)
      (files.map (recordAt attributes)) outcomes g') :
    ∃ s' : Substrate Blobs, (runMap settings (some path) json (files.map Prod.fst) attributes).Returns host ()
        (h.mapped place s'.store (text ++ reported json (files.map Prod.fst) outcomes)) ∧
      s'.Kept room ∧ s'.graph = g' := by
  obtain ⟨s', w', hfiles, hw, kept', hend⟩ :=
    returns_mapFiles json hstore hmodest hread kept hopen session
  exact ⟨s', runMap_of_mapFiles json hstore hw kept' hfiles, kept', hend⟩

end Run

end Runs

end ResonantGraph.Command
