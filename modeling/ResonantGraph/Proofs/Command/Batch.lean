import Mathlib
import ResonantGraph.Proofs.Command.Runs

/-!
# Mapping files in batches

It does not matter how files are distributed over runs of the mapper. Each run begins the sequence anew, so
its edges end in other numbers than those of one long run; beyond that both lead to the same graph and
report the same outcomes, which are those of a session in memory. Nor does it matter whether a run comes to
its end, for the last save has nothing to do (`runMap_batches`).
-/

namespace ResonantGraph.Command

open Operation (nextAll)
open Store (Blobs Tables)

section Successive

variable {h : Host} {path : String} {place : Place} {settings : Settings}
  {attributes : List (String × String)} (json : Bool) {count room : Nat}

/-! ### Runs one after the other -/

/-- The root node is there from the start. -/
theorem hasNode_started (settings : Settings) (s : Substrate Blobs) :
    (started settings s).hasNode (rootIn settings).id = true := by
  unfold started
  rw [Operation.hasNode_next_addNode]
  exact Bool.or_eq_true_iff.2 (.inl (decide_eq_true rfl))

/-- A root node that is there stays as it is. -/
theorem started_of_hasNode {s : Substrate Blobs} (root : s.graph.hasNode (rootIn settings).id = true) :
    started settings s = s.opened.graph := by
  have hroot : s.opened.graph.hasNode (rootIn settings).id = true := root
  change (s.opened.graph.addNode (rootIn settings)).2 = _
  unfold Hypergraph.addNode
  rw [hroot]
  rfl

/-- A run for one file goes along with a step of a session, from a paired graph on. -/
theorem returns_run (hstore : StoreAt h.files path place {}) (hmodest : Modest settings attributes count)
    {file : String × Content} (hread : Readable h.files place file) {s : Substrate Blobs}
    (kept : s.Kept (room + 2)) {host : Host} {text : String}
    (hopen : (openSubstrate (some path)).Returns host s.opened.inRight (h.mapped place s.store text))
    {g : Hypergraph}
    (paired : Mapper.Paired (Mapper.flowOf (recordAt attributes file)).length g (started settings s))
    {outcome : Outcome}
    (report : settings.mapper.report
      (nextAll g (settings.mapper.script g (recordAt attributes file) (identityIn settings)))
      (Mapper.flowOf (recordAt attributes file))
      (settings.mapper.similarOf g (recordAt attributes file) (identityIn settings)).length = .ok outcome) :
    ∃ s' : Substrate Blobs, (runMap settings (some path) json [file.1] attributes).Returns host ()
        (h.mapped place s'.store (text ++ reported json [file.1] [outcome])) ∧
      s'.Kept room ∧ s'.graph.hasNode (rootIn settings).id = true ∧
      Mapper.Paired (Mapper.flowOf (recordAt attributes file)).length
        (nextAll g (settings.mapper.script g (recordAt attributes file) (identityIn settings))) s'.graph := by
  obtain ⟨hsingle, hpaired⟩ := paired.session_cons report
  have kept' : s.Kept ([file].length + room + 1) :=
    kept.weaken (by rw [List.length_singleton]; omega)
  obtain ⟨s', hrun, kept'', hgraph⟩ := returns_runMap json hstore hmodest
    (List.forall_mem_singleton.2 hread) kept' hopen hsingle
  refine ⟨s', hrun, kept'', ?_, ?_⟩
  · rw [hgraph]
    exact Operation.hasNode_nextAll Mapper.adds_script (hasNode_started settings s)
  · rw [hgraph]
    exact hpaired

/-- A run of its own for each file goes along with a session that takes them all. -/
theorem returns_runs (hstore : StoreAt h.files path place {}) (hmodest : Modest settings attributes count)
    {length : Nat} (hflows : ∀ file, (Mapper.flowOf (recordAt attributes file)).length = length)
    {files : List (String × Content)} (hread : ∀ file ∈ files, Readable h.files place file)
    {s : Substrate Blobs} (kept : s.Kept (2 * files.length + room))
    (root : s.graph.hasNode (rootIn settings).id = true) {g g' : Hypergraph}
    (paired : Mapper.Paired length g s.graph) {outcomes : List Outcome}
    (session : settings.mapper.Session (identityIn settings) g (files.map (recordAt attributes))
      outcomes g') (text : String) :
    ∃ s' : Substrate Blobs, ((files.map Prod.fst).forM fun name =>
        runMap settings (some path) json [name] attributes).Returns (h.mapped place s.store text) ()
        (h.mapped place s'.store (text ++ reported json (files.map Prod.fst) outcomes)) ∧
      s'.Kept room ∧ Mapper.Paired length g' s'.graph := by
  induction files generalizing s g outcomes text with
  | nil =>
    cases session
    rw [List.length_nil, Nat.mul_zero, Nat.zero_add] at kept
    have hnothing : text ++ reported json (List.map Prod.fst ([] : List (String × Content))) [] = text :=
      String.append_empty
    rw [hnothing]
    exact ⟨s, Job.returns_pure _ _, kept, paired⟩
  | cons file files ih =>
    rw [List.forall_mem_cons] at hread
    cases session with
    | @cons _ _ _ _ outcome outcomes report rest =>
      obtain rfl : (Mapper.flowOf (recordAt attributes file)).length = length := hflows file
      -- the run finds the graph of the store, with another sequence
      have hopened : Mapper.Paired (Mapper.flowOf (recordAt attributes file)).length g
          (started settings s) := by
        rw [started_of_hasNode root]
        exact paired.opened
      have kept' : s.Kept (2 * files.length + room + 2) :=
        kept.weaken (by rw [List.length_cons]; omega)
      obtain ⟨s₁, hrun, kept₁, root₁, hpaired⟩ := returns_run json hstore hmodest hread.1 kept'
        (returns_openSubstrate_mapped hstore kept text) hopened report
      obtain ⟨s₂, hruns, kept₂, hend⟩ := ih hread.2 kept₁ root₁ hpaired rest
        (text ++ reported json [file.1] [outcome])
      refine ⟨s₂, ?_, kept₂, hend⟩
      rw [List.map_cons, reported_cons, ← String.append_assoc]
      exact hrun.bind hruns

/-- A store without elements is opened, and made if there was none. -/
theorem returns_openSubstrate_fresh (hstore : StoreAt h.files path place {})
    (kept : (Substrate.ofStore ({} : Blobs)).Kept room) :
    (openSubstrate (some path)).Returns h (Substrate.ofStore ({} : Blobs)).opened.inRight
      (h.mapped place {} "") := by
  have hopen := returns_openSubstrate hstore
  have hload : (Substrate.ofStore ({} : Blobs)).load = (true, (Substrate.ofStore {}).opened) :=
    kept.load_opened
  have hhost : h.withStore place {} = h.mapped place {} "" := by
    unfold Host.withStore Host.mapped
    rw [String.append_empty]
  rwa [hload, hhost] at hopen

/-- Runs from a store without elements on, the first of which adds the root node. -/
theorem returns_runs_fresh (hstore : StoreAt h.files path place {})
    (hmodest : Modest settings attributes count) {length : Nat}
    (hflows : ∀ file, (Mapper.flowOf (recordAt attributes file)).length = length)
    {files : List (String × Content)} (nonempty : files ≠ [])
    (hread : ∀ file ∈ files, Readable h.files place file)
    (kept : (Substrate.ofStore ({} : Blobs)).Kept (2 * files.length + room))
    (paired : Mapper.Paired length (started settings (.ofStore {})) (started settings (.ofStore {})))
    {outcomes : List Outcome} {g' : Hypergraph}
    (session : settings.mapper.Session (identityIn settings) (started settings (.ofStore {}))
      (files.map (recordAt attributes)) outcomes g') :
    ∃ s' : Substrate Blobs, ((files.map Prod.fst).forM fun name =>
        runMap settings (some path) json [name] attributes).Returns h ()
        (h.mapped place s'.store (reported json (files.map Prod.fst) outcomes)) ∧
      s'.Kept room ∧ Mapper.Paired length g' s'.graph := by
  cases files with
  | nil => exact absurd rfl nonempty
  | cons file files =>
    rw [List.forall_mem_cons] at hread
    cases session with
    | @cons _ _ _ _ outcome outcomes report rest =>
      obtain rfl : (Mapper.flowOf (recordAt attributes file)).length = length := hflows file
      have kept' : (Substrate.ofStore ({} : Blobs)).Kept (2 * files.length + room + 2) :=
        kept.weaken (by rw [List.length_cons]; omega)
      obtain ⟨s₁, hrun, kept₁, root₁, hpaired⟩ := returns_run json hstore hmodest hread.1 kept'
        (returns_openSubstrate_fresh hstore kept) paired report
      obtain ⟨s₂, hruns, kept₂, hend⟩ := returns_runs json hstore hmodest hflows hread.2 kept₁ root₁
        hpaired rest ("" ++ reported json [file.1] [outcome])
      refine ⟨s₂, ?_, kept₂, hend⟩
      rw [String.empty_append, ← reported_cons] at hruns
      exact hrun.bind hruns

/-- All batches begin with the root node alone. -/
theorem paired_started (settings : Settings) (length : Nat) :
    Mapper.Paired length (started settings (.ofStore {})) (started settings (.ofStore {})) := by
  have empty : Mapper.Paired length ∅ ∅ := ⟨.refl ∅, Hypergraph.wellFormed_empty,
    Hypergraph.wellFormed_empty, Mapper.charted_empty, Mapper.charted_empty⟩
  exact empty.addNode (rootIn settings)

/-- A unit in memory makes of the files what their session says. -/
theorem processAll_inMemory {files : List (String × Content)} {outcomes : List Outcome} {g' : Hypergraph}
    (session : settings.mapper.Session (identityIn settings) (started settings (.ofStore {}))
      (files.map (recordAt attributes)) outcomes g') :
    let unit := unitOf settings (settings.mapper.handler : Handler Tables)
    ∃ kernel memory, unit.processAll (files.map (recordAt attributes))
        (unit.setUp { substrate := some (.ofStore {}) }) =
      (outcomes.map .ok, { kernel, substrate := some memory }) ∧ memory.graph = g' := by
  intro unit
  have adds : (Operation.addNode unit.rootNode).adds = true := rfl
  have hgraph : ((Substrate.ofStore ({} : Tables)).addNode unit.rootNode).2.graph =
      started settings (.ofStore {}) := (Substrate.ofStore ({} : Tables)).graph_perform adds
  have hwf : ((Substrate.ofStore ({} : Tables)).addNode unit.rootNode).2.graph.WellFormed := by
    rw [hgraph]
    exact (paired_started settings 0).wellFormed
  exact session.processAll (p := unit) rfl hwf hgraph (Kernel.identity_awaken ..)

/-- **Batching does not matter.** From a store without elements on, one run over some files, a run for
each of them, and a run that goes on with a file that cannot be read and fails there, report the outcomes
of a session in memory. What the first and the last leave in the store is the graph of this session. What
is left by a run for each file has the same nodes, activations included, and the same edges but for the
numbers at the end of their identifiers. -/
theorem runMap_batches {missing : String} {files : List (String × Content)}
    (fresh : StoreAt h.files path place {}) (nonempty : files ≠ [])
    (modest : Modest settings attributes files.length)
    (readable : ∀ file ∈ files, Readable h.files place file)
    (unreadable : Unreadable h.files place missing) :
    let names := files.map Prod.fst
    let unit := unitOf settings (settings.mapper.handler : Handler Tables)
    let inMemory : Workspace Tables := { substrate := some (.ofStore {}) }
    ∃ outcomes kernel memory,
      unit.processAll (files.map (recordAt attributes)) (unit.setUp inMemory) =
        (outcomes.map .ok, { kernel, substrate := some memory }) ∧
      ∃ one each e,
        (runMap settings (some path) json names attributes).Returns h () one ∧
        (names.forM fun name => runMap settings (some path) json [name] attributes).Returns h () each ∧
        (runMap settings (some path) json (names ++ [missing]) attributes).Fails h e one ∧
        one.output = h.output ++ reported json names outcomes ∧ each.output = one.output ∧
        ∃ s after t after', (openSubstrate (some path)).Returns one s after ∧
          (openSubstrate (some path)).Returns each t after' ∧
          s.graph = { memory.graph with sequence := 0 } ∧ s.graph.Alike t.graph := by
  intro names unit inMemory
  obtain ⟨length, hflows⟩ := exists_length_flowOf attributes
  have paired := paired_started settings length
  have hrecords : ∀ record ∈ files.map (recordAt attributes), (Mapper.flowOf record).length = length :=
    List.forall_mem_map.2 fun file _ => hflows file
  obtain ⟨outcomes, g', session⟩ := Mapper.exists_session (m := settings.mapper)
    paired.wellFormed paired.charted _ hrecords
  obtain ⟨kernel, memory, hmemory, hend⟩ := processAll_inMemory session
  have kept : (Substrate.ofStore ({} : Blobs)).Kept (2 * files.length + 1) := by
    have hcount := modest.fileCount
    refine .empty ?_
    unfold Mapper.mostOperations
    omega
  have kept' : (Substrate.ofStore ({} : Blobs)).Kept (files.length + 1 + 1) := by
    have hpos := List.length_pos_of_ne_nil nonempty
    exact kept.weaken (by omega)
  obtain ⟨s₁, w₁, hfiles, hw₁, kept₁, hgraph₁⟩ := returns_mapFiles json fresh modest readable kept'
    (returns_openSubstrate_fresh fresh kept) session
  have hone := runMap_of_mapFiles json fresh hw₁ kept₁ hfiles
  obtain ⟨e, hcut⟩ := runMap_fails json unreadable hfiles
  obtain ⟨s₂, heach, kept₂, hpaired⟩ :=
    returns_runs_fresh json fresh modest hflows nonempty readable kept paired session
  rw [String.empty_append] at hone hcut
  refine ⟨outcomes, kernel, memory, hmemory, _, _, e, hone, heach, hcut, rfl, rfl, _, _, _, _,
    returns_openSubstrate_mapped fresh kept₁ _, returns_openSubstrate_mapped fresh kept₂ _, ?_, ?_⟩
  · change { s₁.graph with sequence := 0 } = _
    rw [hgraph₁, hend]
  · rw [← hgraph₁] at hpaired
    exact ⟨hpaired.alike.nodes, hpaired.alike.edges⟩

end Successive

/-- A host with two files that have words in common, and no store. -/
def twoFiles : Host where
  files :=
    { entries := Table.ofList
        [("/a", .file (.bytes (Text.bytes "resonant graphs remember"))),
          ("/b", .file (.bytes (Text.bytes "graphs remember words")))] }

/-- `runMap_batches` on two files with two attributes each, and a file that is not there. -/
theorem runMap_batches_twoFiles :
    ∃ outcomes one each e s after t after',
      (runMap {} (some "/s") false ["/a", "/b"] [("topic", "x"), ("kind", "y")]).Returns twoFiles () one ∧
      (["/a", "/b"].forM fun name =>
        runMap {} (some "/s") false [name] [("topic", "x"), ("kind", "y")]).Returns twoFiles () each ∧
      (runMap {} (some "/s") false ["/a", "/b", "/x"] [("topic", "x"), ("kind", "y")]).Fails twoFiles e one ∧
      one.output = reported false ["/a", "/b"] outcomes ∧ each.output = one.output ∧
      (openSubstrate (some "/s")).Returns one s after ∧ (openSubstrate (some "/s")).Returns each t after' ∧
      s.graph.Alike t.graph := by
  let a : String × Content := ("/a", .bytes (Text.bytes "resonant graphs remember"))
  let b : String × Content := ("/b", .bytes (Text.bytes "graphs remember words"))
  have fresh : StoreAt twoFiles.files "/s" ["s"] {} := ⟨by cbv, by rfl⟩
  have modest : Modest {} [("topic", "x"), ("kind", "y")] [a, b].length := {
    unitName := .of_length (by decide)
    patterns := List.forall_mem_nil _
    patternCount := by decide
    attributeCount := by decide
    attributes := List.forall_mem_cons.2 ⟨⟨.of_length (by decide), .of_length (by decide)⟩,
      List.forall_mem_singleton.2 ⟨.of_length (by decide), .of_length (by decide)⟩⟩
    fileCount := by decide }
  have readable : ∀ file ∈ [a, b], Readable twoFiles.files ["s"] file := by
    refine List.forall_mem_cons.2 ⟨?_, List.forall_mem_singleton.2 ?_⟩
    · have hresolve : twoFiles.files.resolve "/a" = .ok ["a"] := by cbv
      exact .of_fileAt fresh (by decide) (by cbv) hresolve (by decide)
    · have hresolve : twoFiles.files.resolve "/b" = .ok ["b"] := by cbv
      exact .of_fileAt fresh (by decide) (by cbv) hresolve (by decide)
  have unreadable : Unreadable twoFiles.files ["s"] "/x" :=
    ⟨by decide, fun contents => ⟨.io (.inputPath "/x" .noEntry), by cbv⟩⟩
  obtain ⟨outcomes, kernel, memory, -, one, each, e, hone, heach, hcut, houtput, hsame, s, after, t, after',
    hs, ht, hgraph, halike⟩ :=
    runMap_batches false fresh (List.cons_ne_nil _ _) modest readable unreadable
  exact ⟨outcomes, one, each, e, s, after, t, after', hone, heach, hcut, houtput, hsame, hs, ht, halike⟩

end ResonantGraph.Command
