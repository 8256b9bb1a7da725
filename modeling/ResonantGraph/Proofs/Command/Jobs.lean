import ResonantGraph.Command
import ResonantGraph.Proofs.FileTree.Growth
import ResonantGraph.Proofs.Substrate.Reopened

/-!
# Jobs and the stores that they open

A job that succeeds *returns* a value and leaves a host (`Job.Returns`). The jobs that commands are made of
are taken one at a time here: what each returns, and what it leaves, where what it needs is at hand.

What a command needs of its store is that the path leads to one (`StoreAt`). This is kept by everything that
commands do to the files: the store itself may be written again, and files and stores elsewhere may come
and change, for the tree only grows by it (`StoreAt.put`, `StoreAt.grow`).
-/

namespace ResonantGraph.Command

variable {α β : Type}

/-! ### Jobs -/

namespace Job

/-- A job succeeds with a value and leaves a host. -/
def Returns (job : Job α) (host : Host) (v : α) (after : Host) : Prop := job.on host = (.ok v, after)

/-- A job fails and leaves a host. -/
def Fails (job : Job α) (host : Host) (e : Failure) (after : Host) : Prop :=
  job.on host = (.error e, after)

theorem on_bind (job : Job α) (next : α → Job β) (host : Host) :
    (job >>= next).on host =
      match job.on host with
      | (.ok v, host) => (next v).on host
      | (.error e, host) => (.error e, host) := by
  change (ExceptT.bindCont next (job host).1 : StateM Host _) (job host).2 = _
  unfold on
  change _ = match job host with | (.ok v, host) => next v host | (.error e, host) => (.error e, host)
  rcases job host with ⟨_ | v, after⟩ <;> rfl

variable {job : Job α} {next : α → Job β} {host middle after : Host}

theorem Returns.bind {v : α} {w : β} (h : job.Returns host v middle)
    (hnext : (next v).Returns middle w after) : (job >>= next).Returns host w after := by
  unfold Returns at h ⊢
  rw [on_bind, h]
  exact hnext

theorem Returns.bind_fails {v : α} {e : Failure} (h : job.Returns host v middle)
    (hnext : (next v).Fails middle e after) : (job >>= next).Fails host e after := by
  unfold Returns at h
  unfold Fails
  rw [on_bind, h]
  exact hnext

theorem Fails.bind {e : Failure} (h : job.Fails host e after) : (job >>= next).Fails host e after := by
  unfold Fails at h ⊢
  rw [on_bind, h]

/-- A job in two parts succeeds only if both do. -/
theorem returns_bind_iff {w : β} :
    (job >>= next).Returns host w after ↔
      ∃ v middle, job.Returns host v middle ∧ (next v).Returns middle w after := by
  constructor
  · intro h
    unfold Returns at h
    rw [on_bind] at h
    rcases hjob : job.on host with ⟨e | v, middle⟩
    · rw [hjob] at h
      cases h
    · rw [hjob] at h
      exact ⟨v, middle, hjob, h⟩
  · rintro ⟨v, middle, hjob, hnext⟩
    exact hjob.bind hnext

theorem returns_pure (v : α) (host : Host) : (pure v : Job α).Returns host v host := rfl

theorem returns_get (host : Host) : (get : Job Host).Returns host host host := rfl

theorem returns_set (host host' : Host) : (set host' : Job PUnit).Returns host ⟨⟩ host' := rfl

theorem returns_lift {e : Except Failure α} {v : α} (h : e = .ok v) (host : Host) :
    (liftM e : Job α).Returns host v host := by
  subst h
  rfl

theorem fails_lift {e : Except Failure α} {failure : Failure} (h : e = .error failure)
    (host : Host) : (liftM e : Job α).Fails host failure host := by
  subst h
  rfl

theorem returns_lift_iff {e : Except Failure α} {v : α} :
    (liftM e : Job α).Returns host v after ↔ e = .ok v ∧ after = host := by
  change (e, host) = (.ok v, after) ↔ _
  rw [Prod.mk.injEq, eq_comm (a := host)]

theorem Returns.unique {v v' : α} {after' : Host} (h : job.Returns host v after)
    (h' : job.Returns host v' after') : v = v' ∧ after = after' := by
  have heq := h.symm.trans h'
  exact ⟨Except.ok.inj (congrArg Prod.fst heq), congrArg Prod.snd heq⟩

end Job

/-! ### Printing -/

/-- The text of some lines as they are printed. -/
def printed : List String → String
  | [] => ""
  | line :: lines => line ++ "\n" ++ printed lines

theorem returns_say (line : String) (host : Host) :
    (say line).Returns host () { host with output := host.output ++ line ++ "\n" } := rfl

theorem returns_sayAll (lines : List String) (host : Host) :
    (sayAll lines).Returns host () { host with output := host.output ++ printed lines } := by
  induction lines generalizing host with
  | nil =>
    rw [printed, String.append_empty]
    rfl
  | cons line lines ih =>
    have hrest := ih { host with output := host.output ++ line ++ "\n" }
    dsimp only at hrest
    rw [printed, String.append_assoc, ← String.append_assoc, ← String.append_assoc]
    exact (returns_say line host).bind hrest

/-! ### Stores -/

/-- A path leads to a store with some contents, which may be one that is made when it is opened. -/
structure StoreAt (files : FileTree) (path : String) (place : Place) (contents : Store.Blobs) : Prop where
  /-- The path leads to the place. -/
  located : files.locateOrVacant path = .ok place
  /-- The store at the place has the contents. -/
  contents : storeAt? files place = some contents

namespace StoreAt

variable {files files' : FileTree} {path : String} {place : Place} {contents : Store.Blobs}

theorem isDirectory_eq_false (h : storeAt? files place = some contents) :
    files.isDirectory place = false := by
  unfold storeAt? at h
  unfold FileTree.isDirectory
  split at h
  · next hnone => rw [hnone]
  · next hstore => rw [hstore]
  · next hfile => rw [hfile]
  · cases h
  · cases h

/-- A store takes new contents and stays where it is. -/
theorem put (h : StoreAt files path place contents) (contents' : Store.Blobs) :
    StoreAt (files.put place (.store contents')) path place contents' where
  located :=
    (FileTree.grows_put_store (isDirectory_eq_false h.contents) contents').locateOrVacant_ok h.located
  contents := by
    unfold storeAt?
    rw [FileTree.entry?_put_self files
      (FileTree.ne_nil_of_not_isDirectory (isDirectory_eq_false h.contents))]

/-- What happens elsewhere in the tree does not concern a store. -/
theorem grow (h : StoreAt files path place contents) (grows : files.Grows files')
    (same : files'.entry? place = files.entry? place) : StoreAt files' path place contents where
  located := grows.locateOrVacant_ok h.located
  contents := by
    unfold storeAt?
    rw [same]
    exact h.contents

/-- The tree with new contents in the store has grown. -/
theorem grows (h : StoreAt files path place contents) (contents' : Store.Blobs) :
    files.Grows (files.put place (.store contents')) :=
  FileTree.grows_put_store (isDirectory_eq_false h.contents) contents'

end StoreAt

section Opening

variable {host : Host} {path : String} {place : Place} {contents : Store.Blobs}

/-- The host with contents in the store at a place. -/
def Host.withStore (host : Host) (place : Place) (contents : Store.Blobs) : Host :=
  { host with files := host.files.put place (.store contents) }

theorem returns_openStore (h : StoreAt host.files path place contents) :
    (openStore path).Returns host contents (host.withStore place contents) := by
  unfold openStore
  refine (Job.returns_get host).bind ?_
  rw [h.located]
  dsimp only
  rw [h.contents]
  exact (Job.returns_set host _).bind (Job.returns_pure contents _)

/-- **Opening a store** gives the graph that its bytes load, and makes the store if there was none. -/
theorem returns_openSubstrate (h : StoreAt host.files path place contents) :
    (openSubstrate (some path)).Returns host (Substrate.ofStore contents).load.2.inRight
      (host.withStore place contents) := by
  unfold openSubstrate
  refine (returns_openStore h).bind ?_
  -- a store of bytes can always be listed
  obtain ⟨g, hload, -⟩ := (Substrate.ofStore contents).load_blobs
  have hright : (Substrate.ofStore (.inr contents : Store.Tables ⊕ Store.Blobs)).load =
      ((Substrate.ofStore contents).load.1, (Substrate.ofStore contents).load.2.inRight) :=
    Substrate.load_inRight (Substrate.ofStore contents)
  rw [hright, hload]
  exact Job.returns_pure _ _

/-- Keeping a store puts its contents at the place that the path leads to. -/
theorem returns_keep (h : StoreAt host.files path place contents) (s : Substrate Store.Blobs) :
    (keep (some path) s.inRight).Returns host () (host.withStore place s.store) := by
  unfold keep
  refine (Job.returns_get host).bind ?_
  rw [show s.inRight.store = .inr s.store from rfl]
  dsimp only
  rw [h.located]
  exact Job.returns_set host _

end Opening

/-! ### Files -/

/-- A file reads as it did while the tree grows and its entry stays. -/
theorem fileAt_grows {files files' : FileTree} (grows : files.Grows files') {path : String}
    {place : Place} (hpath : files.resolve path = .ok place)
    (same : files'.entry? place = files.entry? place) (limit : Nat) :
    fileAt files' path limit = fileAt files path limit := by
  unfold fileAt
  rw [grows.entryAt_resolve hpath same]

/-- What a file that can be read is like: it is not too long, and its name is not. -/
theorem fileAt_eq_ok {files : FileTree} {path : String} {limit : Nat} {content : Content}
    (h : fileAt files path limit = .ok content) :
    content.size ≤ limit ∧
      ∀ name, Path.fileName? path = some name → name.utf8ByteSize ≤ FileTree.maxNameSize := by
  unfold fileAt at h
  cases hresolve : files.resolve path with
  | error e =>
    rw [hresolve] at h
    cases h
  | ok place =>
    refine ⟨?_, fun name => FileTree.size_fileName_of_resolve hresolve⟩
    -- an entry, a file, and one that is read
    split at h
    · cases h
    split at h
    · cases h
    split at h
    · cases h
    split at h
    · cases h
    · next hsize =>
      cases h
      exact Nat.not_lt.1 hsize

/-- What a write that succeeds has done. -/
theorem write_eq_ok {files files' : FileTree} {directory : Place} {name : String} {data : List UInt8}
    (h : files.write directory name data = .ok files') :
    files.isDirectory (directory ++ [name]) = false ∧
      (files.entry? (directory ++ [name]) = some .device ∧ files' = files ∨
        files' = files.put (directory ++ [name]) (.file (.bytes data))) := by
  unfold FileTree.write at h
  dsimp only at h
  -- four checks, and then it depends on what stands there
  split at h
  · cases h
  split at h
  · cases h
  split at h
  · cases h
  split at h
  · cases h
  unfold FileTree.isDirectory
  split at h
  · cases h
  · next hdevice =>
    cases h
    rw [hdevice]
    exact ⟨rfl, .inl ⟨rfl, rfl⟩⟩
  · next hdirectory hdevice =>
    cases h
    refine ⟨?_, .inr rfl⟩
    split
    · next hentry => exact absurd hentry hdirectory
    · rfl

end ResonantGraph.Command
