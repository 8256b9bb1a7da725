import ResonantGraph.FileTree
import Mathlib.Data.List.Basic

/-!
# File trees that grow

A command that opens a store or writes a file changes one entry of the file tree, and this was no
directory and becomes none. The tree *grows* (`FileTree.Grows`): it has the same directories as before,
and whatever stood somewhere still has something in its place.

Paths are looked up along directories, so a path that led somewhere leads there still
(`Grows.locate_ok`, `Grows.resolve_ok`). This goes for a path to a vacant place too, whether or not the
place has been filled since (`Grows.locateOrVacant_ok`). That a path leads nowhere, on the other hand, may
change.
-/

namespace ResonantGraph

namespace FileTree

variable {t t' : FileTree}

/-- A tree has the directories of another, and an entry wherever the other has one. -/
structure Grows (t t' : FileTree) : Prop where
  /-- Relative paths begin at the same directory. -/
  workingDirectory : t'.workingDirectory = t.workingDirectory
  /-- Both have the same directories. -/
  isDirectory : ∀ place, t'.isDirectory place = t.isDirectory place
  /-- Nothing goes. -/
  isSome_entry : ∀ place, ( t.entry? place).isSome = true → ( t'.entry? place).isSome = true

/-! ### Putting an entry at a place -/

theorem entry?_put (t : FileTree) (place : Place) (entry : Entry) {other : Place}
    (hroot : other ≠ []) :
    FileTree.entry? (t.put place entry) other =
      if place.path = other.path then some entry else t.entry? other := by
  unfold entry? put
  rw [if_neg hroot, if_neg hroot]
  exact Table.find?_insert ..

/-- An entry at one place leaves every place with another path alone. -/
theorem entry?_put_of_ne (t : FileTree) {place other : Place} (h : place.path ≠ other.path)
    (entry : Entry) : FileTree.entry? (t.put place entry) other = t.entry? other := by
  by_cases hroot : other = []
  · subst hroot
    rfl
  · rw [entry?_put t place entry hroot, if_neg h]

theorem entry?_put_self (t : FileTree) {place : Place} (hroot : place ≠ []) (entry : Entry) :
    FileTree.entry? (t.put place entry) place = some entry := by
  rw [entry?_put t place entry hroot, if_pos rfl]

/-- Of two entries at one place the later counts. -/
theorem put_put (t : FileTree) (place : Place) (entry entry' : Entry) :
    (t.put place entry).put place entry' = t.put place entry' := by
  unfold put
  have h : (t.entries.insert place.path entry).insert place.path entry' =
      t.entries.insert place.path entry' := by
    refine Table.ext_find? fun key => ?_
    rw [Table.find?_insert, Table.find?_insert, Table.find?_insert]
    split <;> rfl
  dsimp only
  rw [h]

theorem ne_nil_of_not_isDirectory {place : Place} (h : t.isDirectory place = false) : place ≠ [] := by
  rintro rfl
  cases h

/-- Two places with one path are looked at alike. -/
theorem isDirectory_congr {place other : Place} (hroot : other ≠ []) (hpath : place.path = other.path)
    (h : t.isDirectory place = false) : t.isDirectory other = false := by
  have hplace := ne_nil_of_not_isDirectory h
  unfold isDirectory entry? at h ⊢
  rw [if_neg hplace, hpath] at h
  rw [if_neg hroot]
  exact h

/-- **A tree grows** when something other than a directory takes the place of something other than a
directory, or of nothing. -/
theorem grows_put {place : Place} (h : t.isDirectory place = false) {entry : Entry}
    (hentry : ∀ (t : FileTree) (other : Place), t.entry? other = some entry → t.isDirectory other = false) :
    t.Grows (t.put place entry) where
  workingDirectory := rfl
  isDirectory other := by
    by_cases hroot : other = []
    · subst hroot
      rfl
    by_cases hpath : place.path = other.path
    · -- what was there and what is there are no directories
      have hnew : FileTree.entry? (t.put place entry) other = some entry := by
        rw [entry?_put t place entry hroot, if_pos hpath]
      rw [hentry _ other hnew, isDirectory_congr hroot hpath h]
    · unfold isDirectory
      rw [entry?_put_of_ne t hpath]
  isSome_entry other hother := by
    by_cases hroot : other = []
    · subst hroot
      rfl
    rw [entry?_put t place entry hroot]
    split
    · rfl
    · exact hother

/-- A store may be put wherever no directory stands. -/
theorem grows_put_store {place : Place} (h : t.isDirectory place = false) (contents : Store.Blobs) :
    t.Grows (t.put place (.store contents)) := by
  refine grows_put h fun t other hother => ?_
  unfold isDirectory
  rw [hother]

/-- A file may be put wherever no directory stands. -/
theorem grows_put_file {place : Place} (h : t.isDirectory place = false) (content : Content) :
    t.Grows (t.put place (.file content)) := by
  refine grows_put h fun t other hother => ?_
  unfold isDirectory
  rw [hother]

/-! ### Paths -/

theorem Grows.step_ok (h : t.Grows t') {here place : Place} {part : String}
    (hstep : t.step here part = .ok place) : t'.step here part = .ok place := by
  unfold step at hstep ⊢
  rw [h.isDirectory]
  -- only the last of the checks looks at anything but directories
  split at hstep
  · cases hstep
  · next hdirectory =>
    rw [if_neg hdirectory]
    split at hstep
    · next hidle => rw [if_pos hidle]; exact hstep
    · next hidle =>
      rw [if_neg hidle]
      split at hstep
      · next hup => rw [if_pos hup]; exact hstep
      · next hup =>
        rw [if_neg hup]
        split at hstep
        · cases hstep
        · next hsize =>
          rw [if_neg hsize]
          split at hstep
          · next hentry => rw [if_pos (h.isSome_entry _ hentry)]; exact hstep
          · cases hstep

theorem Grows.lookedUpStep_ok (h : t.Grows t') {here place : Place} {part : String}
    (hstep : t.lookedUpStep here part = .ok place) : t'.lookedUpStep here part = .ok place := by
  unfold lookedUpStep at hstep ⊢
  split at hstep
  · cases hstep
  · next hsize =>
    rw [if_neg hsize]
    exact h.step_ok hstep

theorem foldlM_ok {walk walk' : Place → String → Except FileFault Place}
    (h : ∀ here part place, walk here part = .ok place → walk' here part = .ok place)
    {parts : List String} {here place : Place} (hwalk : parts.foldlM walk here = .ok place) :
    parts.foldlM walk' here = .ok place := by
  induction parts generalizing here with
  | nil => exact hwalk
  | cons part parts ih =>
    rw [List.foldlM_cons] at hwalk ⊢
    cases hpart : walk here part with
    | error e =>
      rw [hpart] at hwalk
      cases hwalk
    | ok next =>
      rw [hpart] at hwalk
      rw [h here part next hpart]
      exact ih hwalk

theorem Grows.start_eq (h : t.Grows t') (path : String) : t'.start path = t.start path := by
  unfold start
  rw [h.workingDirectory]

/-- A path that leads somewhere leads there still. -/
theorem Grows.locate_ok (h : t.Grows t') {path : String} {place : Place}
    (hpath : t.locate path = .ok place) : t'.locate path = .ok place := by
  unfold locate at hpath ⊢
  split at hpath
  · cases hpath
  · next hnull =>
    rw [if_neg hnull]
    split at hpath
    · cases hpath
    · next hempty =>
      rw [if_neg hempty]
      split at hpath
      · cases hpath
      · next hsize =>
        rw [if_neg hsize, h.start_eq]
        exact foldlM_ok (fun _ _ _ => h.step_ok) hpath

/-- So does a path that is looked up place by place. -/
theorem Grows.resolve_ok (h : t.Grows t') {path : String} {place : Place}
    (hpath : t.resolve path = .ok place) : t'.resolve path = .ok place := by
  unfold resolve at hpath ⊢
  split at hpath
  · cases hpath
  · next hnull =>
    rw [if_neg hnull]
    split at hpath
    · cases hpath
    · next hempty =>
      rw [if_neg hempty, h.start_eq]
      exact foldlM_ok (fun _ _ _ => h.lookedUpStep_ok) hpath

/-- What stands at the end of a path does not change if the entry does not. -/
theorem Grows.entryAt_resolve (h : t.Grows t') {path : String} {place : Place}
    (hpath : t.resolve path = .ok place) (hentry : t'.entry? place = t.entry? place) :
    (t'.resolve path >>= t'.entryAt) = t.resolve path >>= t.entryAt := by
  rw [h.resolve_ok hpath, hpath]
  change t'.entryAt place = t.entryAt place
  unfold entryAt
  rw [hentry]

/-! ### Names on a path -/

/-- What holds of every part that a walk gets past holds of all parts of a path. -/
theorem forall_of_foldlM_ok {walk : Place → String → Except FileFault Place} {P : String → Prop}
    (h : ∀ here part place, walk here part = .ok place → P part) {parts : List String}
    {here place : Place} (hwalk : parts.foldlM walk here = .ok place) : ∀ part ∈ parts, P part := by
  induction parts generalizing here with
  | nil => exact nofun
  | cons part parts ih =>
    rw [List.foldlM_cons] at hwalk
    cases hpart : walk here part with
    | error e =>
      rw [hpart] at hwalk
      cases hwalk
    | ok next =>
      rw [hpart] at hwalk
      exact List.forall_mem_cons.2 ⟨h here part next hpart, ih hwalk⟩

theorem size_le_of_lookedUpStep {here place : Place} {part : String}
    (h : t.lookedUpStep here part = .ok place) (hname : Path.isName part = true) :
    part.utf8ByteSize ≤ maxNameSize := by
  unfold Path.isName at hname
  rw [Bool.and_eq_true, Bool.not_eq_true', decide_eq_true_eq] at hname
  unfold lookedUpStep at h
  split at h
  · cases h
  · unfold step at h
    rw [hname.1, if_neg Bool.false_ne_true, if_neg hname.2] at h
    split at h
    · cases h
    · split at h
      · cases h
      · next hsize => exact Nat.not_lt.1 hsize

/-- The name that a path ends in is one of its parts. -/
theorem mem_parts_of_fileName? {path name : String} (h : Path.fileName? path = some name) :
    name ∈ Path.parts path ∧ Path.isName name = true := by
  obtain ⟨hlast, hname⟩ := Option.filter_eq_some_iff.1 h
  have htrimmed (parts : List String) (hmem : name ∈ Path.trimIdle parts) : name ∈ parts := by
    cases parts with
    | nil => exact hmem
    | cons first rest =>
      rcases List.mem_cons.1 hmem with rfl | hrest
      · exact List.mem_cons_self
      · have hkept := (List.dropWhile_sublist _).subset (List.mem_reverse.1 hrest)
        exact List.mem_cons_of_mem _ (List.mem_reverse.1 hkept)
  exact ⟨htrimmed _ (List.mem_of_getLast? hlast), hname⟩

/-- The name of a file that a path leads to is short. -/
theorem size_fileName_of_resolve {path name : String} {place : Place} (h : t.resolve path = .ok place)
    (hname : Path.fileName? path = some name) : name.utf8ByteSize ≤ maxNameSize := by
  obtain ⟨hpart, hisName⟩ := mem_parts_of_fileName? hname
  unfold resolve at h
  split at h
  · cases h
  · split at h
    · cases h
    · exact forall_of_foldlM_ok
        (P := fun part => Path.isName part = true → part.utf8ByteSize ≤ maxNameSize)
        (fun _ _ _ => size_le_of_lookedUpStep) h name hpart hisName

/-! ### Vacant places -/

/-- A step that finds nothing is one to a name in a directory. -/
theorem step_noEntry {here : Place} {part : String} (h : t.step here part = .error .noEntry) :
    t.isDirectory here = true ∧ Path.isIdle part = false ∧ part ≠ ".." ∧
      part.utf8ByteSize ≤ maxNameSize := by
  unfold step at h
  split at h
  · cases h
  · next hdirectory =>
    split at h
    · cases h
    · next hidle =>
      split at h
      · cases h
      · next hup =>
        split at h
        · cases h
        · next hsize =>
          refine ⟨?_, Bool.eq_false_iff.2 hidle, hup, Nat.not_lt.1 hsize⟩
          simpa using hdirectory

/-- The step to a name in a directory finds its entry or finds nothing. -/
theorem step_name {here : Place} {name : String} (hdirectory : t.isDirectory here = true)
    (hidle : Path.isIdle name = false) (hup : name ≠ "..") (hsize : name.utf8ByteSize ≤ maxNameSize) :
    t.step here name = .ok (here ++ [name]) ∨ t.step here name = .error .noEntry := by
  unfold step
  rw [hdirectory, hidle, if_neg (by decide), if_neg (by decide), if_neg hup,
    if_neg (Nat.not_lt.2 hsize)]
  split
  · exact .inl rfl
  · exact .inr rfl

/-- What a path to a vacant place is: all of it but the name of the place leads to a directory. -/
theorem locateOrVacant_noEntry {path : String} {place : Place}
    (hlocate : t.locate path = .error .noEntry) (h : t.locateOrVacant path = .ok place) :
    ∃ here name, (Path.parts path).dropLast.foldlM t.step (t.start path) = .ok here ∧
      (Path.parts path).getLast?.filter Path.isName = some name ∧ place = here ++ [name] := by
  unfold locateOrVacant at h
  rw [hlocate] at h
  dsimp only at h
  cases hfront : (Path.parts path).dropLast.foldlM t.step (t.start path) with
  | error e =>
    rw [hfront] at h
    cases h
  | ok here =>
    rw [hfront] at h
    cases hname : (Path.parts path).getLast?.filter Path.isName with
    | none =>
      rw [hname] at h
      cases h
    | some name =>
      rw [hname] at h
      cases h
      exact ⟨here, name, rfl, rfl, rfl⟩

/-- Where a path ended at nothing, it ends at nothing still, or at what has come to be there. -/
theorem Grows.locate_noEntry (h : t.Grows t') {path name : String} {here : Place}
    (hlocate : t.locate path = .error .noEntry)
    (hfront : (Path.parts path).dropLast.foldlM t.step (t.start path) = .ok here)
    (hlast : (Path.parts path).getLast? = some name) :
    t'.locate path = .ok (here ++ [name]) ∨ t'.locate path = .error .noEntry := by
  have hparts : Path.parts path = (Path.parts path).dropLast ++ [name] :=
    (List.dropLast_append_getLast? name hlast).symm
  have hfront' := foldlM_ok (fun _ _ _ => h.step_ok) hfront
  -- the checks that come before the walk are passed, and it stops at the name
  unfold locate at hlocate
  split at hlocate
  · cases hlocate
  · next hnull =>
    split at hlocate
    · next hempty =>
      right
      unfold locate
      rw [if_neg hnull, if_pos hempty]
    · next hempty =>
      split at hlocate
      · cases hlocate
      · next hsize =>
        rw [hparts, List.foldlM_append, hfront] at hlocate
        have hstep : t.step here name = .error .noEntry := by
          rw [← hlocate]
          change t.step here name = t.step here name >>= pure
          rw [bind_pure]
        obtain ⟨hdirectory, hidle, hup, hshort⟩ := step_noEntry hstep
        have hwalk : t'.locate path = t'.step here name := by
          unfold locate
          rw [if_neg hnull, if_neg hempty, if_neg hsize, h.start_eq, hparts, List.foldlM_append,
            hfront']
          change t'.step here name >>= pure = t'.step here name
          rw [bind_pure]
        rw [← h.isDirectory] at hdirectory
        rw [hwalk]
        exact step_name hdirectory hidle hup hshort

/-- **A path to a place that may be vacant** leads there still, and it does not matter whether the place
has been filled. -/
theorem Grows.locateOrVacant_ok (h : t.Grows t') {path : String} {place : Place}
    (hpath : t.locateOrVacant path = .ok place) : t'.locateOrVacant path = .ok place := by
  cases hlocate : t.locate path with
  | ok found =>
    unfold locateOrVacant at hpath ⊢
    rw [hlocate] at hpath
    cases hpath
    rw [h.locate_ok hlocate]
  | error e =>
    by_cases hvacant : e = .noEntry
    · subst hvacant
      obtain ⟨here, name, hfront, hname, rfl⟩ := locateOrVacant_noEntry hlocate hpath
      obtain ⟨hlast, -⟩ := Option.filter_eq_some_iff.1 hname
      have hfront' := foldlM_ok (fun _ _ _ => h.step_ok) hfront
      unfold locateOrVacant
      rcases h.locate_noEntry hlocate hfront hlast with hfilled | hvacant
      · rw [hfilled]
      · rw [hvacant, h.start_eq]
        dsimp only
        rw [hfront', hname]
        rfl
    · -- any other fault is the verdict
      unfold locateOrVacant at hpath
      rw [hlocate] at hpath
      dsimp only at hpath
      split at hpath
      · next heq => exact absurd (Except.error.inj heq) hvacant
      · cases hpath

end FileTree

end ResonantGraph
