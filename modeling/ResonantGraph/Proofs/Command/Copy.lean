import Mathlib
import ResonantGraph.Proofs.Command.Jobs
import ResonantGraph.Proofs.Snapshot.RoundTrip

/-!
# Copying a store by way of a file

An export writes the graph that a store loads, and not the store: what cannot be read, what is filed under
a foreign identifier and what dangles stays behind. The file is a snapshot of a well-formed graph, which
an import accepts, and the import leaves nothing but this graph in the store that it writes to. So a store
that is opened after an export and an import shows what the first store shows, whatever either held before
(`import_export`).

The file and the two stores are at different places, and the import finds the file that the export wrote.
Nothing else is asked of the file tree, but that the export did not fail.
-/

namespace ResonantGraph.Command

/-! ### The two commands -/

/-- The graph that the bytes of a store load. -/
def loadedGraph (contents : Store.Blobs) : Hypergraph := (Substrate.ofStore contents).load.2.graph

theorem wellFormed_loadedGraph (contents : Store.Blobs) : (loadedGraph contents).WellFormed := by
  have started : (Substrate.ofStore contents).graph.WellFormed := Hypergraph.wellFormed_empty
  have restored (graph : Hypergraph) (h : Operation.load = .restore graph) : graph.WellFormed := nomatch h
  exact Substrate.wellFormed_perform started restored

theorem sequence_loadedGraph (contents : Store.Blobs) : (loadedGraph contents).sequence = 0 := by
  obtain ⟨g, hload, hsequence, -⟩ := (Substrate.ofStore contents).load_blobs
  unfold loadedGraph
  rw [hload]
  exact hsequence

theorem returns_writeFile_iff {directory : Place} {name : String} {data : List UInt8}
    {host after : Host} :
    (writeFile directory name data).Returns host () after ↔
      ∃ files, host.files.write directory name data = .ok files ∧ after = { host with files } := by
  unfold writeFile
  constructor
  · intro h
    obtain ⟨_, _, hget, hrest⟩ := Job.returns_bind_iff.1 h
    obtain ⟨rfl, rfl⟩ := (Job.returns_get host).unique hget
    cases hwrite : host.files.write directory name data with
    | error e =>
      rw [hwrite] at hrest
      cases hrest
    | ok files =>
      rw [hwrite] at hrest
      exact ⟨files, rfl, (congrArg Prod.snd hrest).symm⟩
  · rintro ⟨files, hfiles, rfl⟩
    refine (Job.returns_get host).bind ?_
    rw [hfiles]
    exact Job.returns_set host _

/-- An export opens the store and writes the snapshot of its graph, and fails only if this cannot be
written. -/
theorem returns_runExport_iff {host : Host} {path output : String} {place directory : Place}
    {name : String} {contents : Store.Blobs} {files : FileTree}
    (hstore : StoreAt host.files path place contents)
    (houtput : outputPlace host.files output = .ok (directory, name)) :
    (∃ after, (runExport (some path) output).Returns host () after ∧ after.files = files) ↔
      (host.files.put place (.store contents)).write directory name
        (Snapshot.encode (loadedGraph contents)) = .ok files := by
  unfold runExport
  constructor
  · rintro ⟨after, h, rfl⟩
    -- one step after the other, each of which returns what it is known to return
    obtain ⟨_, _, hget, hrest⟩ := Job.returns_bind_iff.1 h
    obtain ⟨rfl, rfl⟩ := (Job.returns_get host).unique hget
    obtain ⟨target, _, hlift, hrest'⟩ := Job.returns_bind_iff.1 hrest
    obtain ⟨htarget, rfl⟩ := Job.returns_lift_iff.1 hlift
    cases houtput.symm.trans htarget
    obtain ⟨s, _, hopen, hwritten⟩ := Job.returns_bind_iff.1 hrest'
    obtain ⟨rfl, rfl⟩ := (returns_openSubstrate hstore).unique hopen
    obtain ⟨_, _, hwrite, hsaid⟩ := Job.returns_bind_iff.1 hwritten
    obtain ⟨files, hfiles, rfl⟩ := returns_writeFile_iff.1 hwrite
    -- what is printed does not concern the files
    obtain ⟨-, rfl⟩ := (returns_say _ _).unique hsaid
    exact hfiles
  · intro hwrite
    have hwritten :
        (writeFile directory name (Snapshot.encode (loadedGraph contents))).Returns
          (host.withStore place contents) () { host.withStore place contents with files } :=
      returns_writeFile_iff.2 ⟨files, hwrite, rfl⟩
    refine ⟨?after, ?returns, ?files⟩
    case returns =>
      refine (Job.returns_get host).bind ?_
      refine (Job.returns_lift houtput host).bind ?_
      refine (returns_openSubstrate hstore).bind ?_
      refine hwritten.bind ?_
      exact returns_say _ _
    case files => rfl

theorem checkStart_encode {g : Hypergraph} (size : (Snapshot.encode g).length ≤ Snapshot.maxSize) :
    Snapshot.checkStart (Snapshot.encode g).length
      ((Snapshot.encode g).take Snapshot.headerSize) = .ok () := by
  have hfront : (Snapshot.encode g).take Snapshot.headerSize = Snapshot.Header.current.toBytes :=
    List.take_left' rfl
  have hlong : ¬ (Snapshot.encode g).length < Snapshot.headerSize := by
    unfold Snapshot.encode
    rw [List.length_append]
    exact Nat.not_lt.2 (Nat.le_add_right 5 _)
  unfold Snapshot.checkStart
  rw [hfront, if_neg hlong, if_neg (Nat.not_lt.2 size)]
  rfl

/-- An import of the snapshot of a graph leaves the graph in the store, and nothing else. -/
theorem runImport_encode {host : Host} {path input : String} {place source : Place}
    {contents : Store.Blobs} {g : Hypergraph} (hstore : StoreAt host.files path place contents)
    (hinput : host.files.resolve input = .ok source)
    (hfile : host.files.entry? source = some (.file (.bytes (Snapshot.encode g))))
    (size : (Snapshot.encode g).length ≤ Snapshot.maxSize) (hg : g.WellFormed) :
    ∃ contents' after, (runImport (some path) input).Returns host () after ∧
      after.files = host.files.put place (.store contents') ∧
      contents'.heldNodes = g.heldNodes ∧ contents'.heldEdges = g.heldEdges := by
  have hread : fileAt host.files input Snapshot.maxSize = .ok (.bytes (Snapshot.encode g)) := by
    have hentry : (host.files.resolve input >>= host.files.entryAt) =
        .ok (.file (.bytes (Snapshot.encode g))) := by
      rw [hinput]
      change host.files.entryAt source = _
      unfold FileTree.entryAt
      rw [hfile]
    unfold fileAt
    rw [hentry]
    exact if_neg (Nat.not_lt.2 size)
  have hdecode : Snapshot.decode (Snapshot.encode g) = .ok g :=
    Snapshot.decode_encode hg.members size
  -- what the snapshot has room for reads back
  have every := Codec.every_readsBack (Snapshot.length_payload_lt size)
  let opened : Substrate Store.Blobs := (Substrate.ofStore contents).load.2
  have hrestore : (opened.inRight : HostSubstrate).restore g =
      ((opened.restore g).1, (opened.restore g).2.inRight) := opened.restore_inRight g
  obtain ⟨hnodes, hedges⟩ := opened.held_restore_blobs hg every
  refine ⟨(opened.restore g).2.store, ?after, ?returns, ?files, hnodes, hedges⟩
  case returns =>
    unfold runImport
    have hsome : ¬ (some path).isNone = true := Bool.false_ne_true
    rw [if_neg hsome]
    refine (Job.returns_get host).bind ?_
    refine (Job.returns_lift hread host).bind ?_
    refine (Job.returns_lift (checkStart_encode size) host).bind ?_
    refine (Job.returns_lift hdecode host).bind ?_
    refine (returns_openSubstrate hstore).bind ?_
    dsimp only
    rw [hrestore]
    refine (returns_keep (hstore.put contents) _).bind ?_
    exact returns_say _ _
  case files => exact FileTree.put_put ..

/-! ### One after the other -/

/-- **An export followed by an import copies a store.** Whatever the stores held before, what one opens
from the second afterwards is what one opens from the first, bit for bit; and the first is not changed. -/
theorem import_export {h h₁ : Host} {a b output input : String} {placeA placeB directory : Place}
    {name : String} {A B : Store.Blobs} {content : Content} (hA : StoreAt h.files a placeA A)
    (hB : StoreAt h.files b placeB B) (houtput : outputPlace h.files output = .ok (directory, name))
    (hexport : (runExport (some a) output).Returns h () h₁)
    (hfile : h₁.files.entry? (directory ++ [name]) = some (.file content))
    (size : content.size ≤ Snapshot.maxSize)
    (hinput : h₁.files.resolve input = .ok (directory ++ [name]))
    (hAB : placeA.path ≠ placeB.path) (hAfile : placeA.path ≠ Place.path (directory ++ [name]))
    (hBfile : placeB.path ≠ Place.path (directory ++ [name])) :
    ∃ h₂, (runImport (some b) input).Returns h₁ () h₂ ∧
      (∃ s after t after', (openSubstrate (some a)).Returns h s after ∧
        (openSubstrate (some b)).Returns h₂ t after' ∧ t.graph = s.graph) ∧
      StoreAt h₁.files a placeA A ∧ StoreAt h₂.files a placeA A := by
  have hwrite := (returns_runExport_iff hA houtput).1 ⟨h₁, hexport, rfl⟩
  obtain ⟨hdirectory, hwritten⟩ := write_eq_ok hwrite
  have hplace : directory ++ [name] ≠ [] := List.append_ne_nil_of_right_ne_nil _ (List.cons_ne_nil _ _)
  -- a device would have swallowed the snapshot, but there is a file
  have hfiles : h₁.files = (h.files.put placeA (.store A)).put (directory ++ [name])
      (.file (.bytes (Snapshot.encode (loadedGraph A)))) := by
    rcases hwritten with ⟨hdevice, hsame⟩ | hput
    · rw [hsame, hdevice] at hfile
      cases hfile
    · exact hput
  have hcontent : content = .bytes (Snapshot.encode (loadedGraph A)) := by
    rw [hfiles, FileTree.entry?_put_self _ hplace] at hfile
    exact (Entry.file.inj (Option.some.inj hfile)).symm
  subst hcontent
  have hgrows : (h.files.put placeA (.store A)).Grows h₁.files := by
    rw [hfiles]
    exact FileTree.grows_put_file hdirectory _
  -- neither store is where the file is, and the second is not where the first is
  have hA₁ : StoreAt h₁.files a placeA A := by
    refine (hA.put A).grow hgrows ?_
    rw [hfiles]
    exact FileTree.entry?_put_of_ne _ hAfile.symm _
  have hB₁ : StoreAt h₁.files b placeB B := by
    refine (hB.grow (hA.grows A) (FileTree.entry?_put_of_ne _ hAB _)).grow hgrows ?_
    rw [hfiles]
    exact FileTree.entry?_put_of_ne _ hBfile.symm _
  obtain ⟨B', h₂, hreturns, hfiles₂, hnodes, hedges⟩ :=
    runImport_encode hB₁ hinput hfile size (wellFormed_loadedGraph A)
  have hB₂ : StoreAt h₂.files b placeB B' := by
    rw [hfiles₂]
    exact hB₁.put B'
  have hA₂ : StoreAt h₂.files a placeA A := by
    rw [hfiles₂]
    exact hA₁.grow (hB₁.grows B') (FileTree.entry?_put_of_ne _ hAB.symm _)
  refine ⟨h₂, hreturns,
    ⟨_, _, _, _, returns_openSubstrate hA, returns_openSubstrate hB₂, ?_⟩, hA₁, hA₂⟩
  -- the second store holds the graph of the first, and a load of it gives just that
  have hload := Substrate.load_blobs_of_held (s := Substrate.ofStore B') (wellFormed_loadedGraph A)
    hnodes hedges
  rw [hload]
  change { loadedGraph A with sequence := 0 } = loadedGraph A
  rw [← sequence_loadedGraph A]

/-- A store with bytes that are no node, a node and an edge under foreign names, and an edge that
dangles. -/
def mixedStore : Store.Blobs where
  nodes := Table.ofList [("b", [0xff]), ("x", Codec.node.write { id := "a" })]
  edges := Table.ofList
    [("d", Codec.edge.write { id := "d", members := NameSet.ofNames ["b"] }),
      ("e", Codec.edge.write { id := "f", members := NameSet.ofNames ["a"] })]

/-- A host with a mixed store, and another store in which there is something else. -/
def twoStores : Host where
  files :=
    { entries := Table.ofList
        [("/a", .store mixedStore), ("/b", .store { nodes := Table.ofList [("x", [0xff])] })] }

/-- `import_export` on a mixed store and a store with other contents. -/
theorem import_export_mixed :
    ∃ h₁ h₂ s after t after', (runExport (some "/a") "/s").Returns twoStores () h₁ ∧
      (runImport (some "/b") "/s").Returns h₁ () h₂ ∧
      (openSubstrate (some "/a")).Returns twoStores s after ∧
      (openSubstrate (some "/b")).Returns h₂ t after' ∧ t.graph = s.graph ∧
      (loadedGraph mixedStore).nodes.keys = ["a"] ∧ (loadedGraph mixedStore).edges.keys = ["f"] := by
  have hA : StoreAt twoStores.files "/a" ["a"] mixedStore := ⟨by cbv, by rfl⟩
  have hB : StoreAt twoStores.files "/b" ["b"] { nodes := Table.ofList [("x", [0xff])] } :=
    ⟨by cbv, by rfl⟩
  have houtput : outputPlace twoStores.files "/s" = .ok ([], "s") := by cbv
  -- whatever the bytes of the snapshot are, there is room for them at the root
  have hwrite (data : List UInt8) : (twoStores.files.put ["a"] (.store mixedStore)).write [] "s" data =
      .ok ((twoStores.files.put ["a"] (.store mixedStore)).put ["s"] (.file (.bytes data))) := by rfl
  obtain ⟨h₁, hexport, hfiles⟩ := (returns_runExport_iff hA houtput).2 (hwrite _)
  have hresolve (data : List UInt8) :
      ((twoStores.files.put ["a"] (.store mixedStore)).put ["s"] (.file (.bytes data))).resolve "/s" =
        .ok ["s"] := by cbv
  have hinput : h₁.files.resolve "/s" = .ok ([] ++ ["s"]) := by
    rw [hfiles]
    exact hresolve _
  have hfile : h₁.files.entry? ([] ++ ["s"]) =
      some (.file (.bytes (Snapshot.encode (loadedGraph mixedStore)))) := by
    rw [hfiles]
    exact FileTree.entry?_put_self _ (by decide) _
  have size : (Snapshot.encode (loadedGraph mixedStore)).length ≤ Snapshot.maxSize := by
    decide +kernel
  obtain ⟨h₂, himport, ⟨s, after, t, after', hs, ht, hgraph⟩, -⟩ :=
    import_export hA hB houtput hexport hfile size hinput (by decide) (by decide) (by decide)
  exact ⟨h₁, h₂, s, after, t, after', hexport, himport, hs, ht, hgraph, by decide +kernel,
    by decide +kernel⟩

end ResonantGraph.Command
