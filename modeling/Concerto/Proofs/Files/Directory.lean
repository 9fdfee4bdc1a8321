import Concerto.Proofs.Files.Tree

/-!
Directories that are made and filled with files.

* `FileTree.IsFolder`: a directory with some files in it and nothing else;
* `FileTree.IsFresh`, `FileTree.isFresh_of_makeDirectory`: a directory that can be made, with nothing in
  it;
* `FileTree.IsFolder.exists_writeBytes`: a file under a new name is one file more;
* `FileTree.IsFolder.readBytes`, `FileTree.IsFolder.filesBelow`: what is read from such a directory.
-/

namespace Concerto.FileTree

variable {t t' : FileTree} {p : PathName} {place : List String} {name : String}

/-! ### Below a place -/

/-- What there is below a place. -/
def entriesBelow (t : FileTree) (place : List String) : List (List String × FileEntry) :=
  t.entries.filter fun e => place.isPrefixOf e.1 && e.1 ≠ place

lemma entriesBelow_put (t : FileTree) (place : List String) (name : String) (entry : FileEntry) :
    (t.put (place ++ [name]) entry).entriesBelow place =
      (t.entriesBelow place).filter (·.1 ≠ place ++ [name]) ++ [(place ++ [name], entry)] := by
  simp [entriesBelow, put, List.filter_append, List.filter_filter, Bool.and_comm]

/-- A name below a place is looked up among what there is below the place. -/
lemma lookup_entriesBelow (t : FileTree) (place : List String) (name : String) :
    (t.entriesBelow place).lookup (place ++ [name]) = t.entries.lookup (place ++ [name]) := by
  rw [entriesBelow]
  induction t.entries with
  | nil => rfl
  | cons e entries ih =>
      obtain ⟨key, entry⟩ := e
      rw [List.filter_cons]
      by_cases hkey : place ++ [name] = key
      · rw [if_pos (by simp [← hkey])]
        simp [hkey]
      · have hne : (place ++ [name] == key) = false := beq_eq_false_iff_ne.mpr hkey
        split <;> simp only [List.lookup_cons, hne, ih]

/-- The files below a place are among what there is below it. -/
lemma filesBelow_eq (t : FileTree) (place : List String) :
    t.filesBelow place = (t.entriesBelow place).filterMap fun e =>
      match e.2 with
      | .file _ => some (e.1.drop place.length)
      | .directory => none := by
  rw [filesBelow, entriesBelow, List.filterMap_filter]
  congr 1
  funext ⟨parts, entry⟩
  cases entry <;> simp

/-! ### Directories -/

/-- A path leads to a directory at a place. -/
structure HasDirectory (t : FileTree) (p : PathName) (place : List String) : Prop where
  locate : t.locate p = .ok place
  directory : t.entryAt? place = some .directory

namespace HasDirectory

lemma isDirectory (h : t.HasDirectory p place) : t.isDirectory p = true := by
  rw [FileTree.isDirectory, find?, h.locate]
  simp [h.directory]

/-- A name in the directory leads to a place below that of the directory. -/
lemma locate_below (h : t.HasDirectory p place) (hname : name ≠ "..") :
    t.locate (p.below [name]) = .ok (place ++ [name]) := by
  have hlocate := mapError_eq_ok.mp h.locate
  refine mapError_eq_ok.mpr ?_
  change (p.parts ++ [name]).foldlM t.step (t.startOf p) = _
  rw [List.foldlM_append, hlocate]
  simp [bind, Except.bind, step, h.directory, hname, pure, Except.pure]

/-- The directory stays when something is put where no directory is. -/
lemma put {other : List String} (h : t.HasDirectory p place)
    (hother : t.entryAt? other ≠ some .directory) (entry : FileEntry) :
    (t.put other entry).HasDirectory p place :=
  ⟨locate_put hother h.locate, entryAt?_put_directory hother h.directory⟩

end HasDirectory

lemma exists_hasDirectory (h : t.isDirectory p = true) : ∃ place, t.HasDirectory p place := by
  rw [isDirectory, find?] at h
  cases hlocate : t.locate p with
  | error e => simp [hlocate] at h
  | ok place =>
      rw [hlocate] at h
      split at h
      · next hentry => exact ⟨place, hlocate, hentry⟩
      · cases h

lemma hasDirectory_of_makeDirectory (h : t.makeDirectory p = .ok t') :
    ∃ place, t'.HasDirectory p place := by
  obtain ⟨place, hlocate, h⟩ := bind_eq_ok.mp h
  split at h
  · cases h
  · next hnone =>
      cases h
      exact ⟨place, locate_put (by simp [hnone]) hlocate, entryAt?_put t place .directory⟩

/-- Where directories are made there is a directory in the end. -/
lemma hasDirectory_of_makeDirectories (h : t.makeDirectories p = .ok t') :
    ∃ place, t'.HasDirectory p place := by
  -- where the last step makes nothing, the directory was there already
  have horThere : ∀ {t₁ : FileTree} {e : FileError},
      (if t₁.isDirectory p then .ok t₁ else .error e : Except FileError FileTree) = .ok t' →
        ∃ place, t'.HasDirectory p place := by
    intro t₁ e h
    split at h
    · next hdirectory =>
        cases h
        exact exists_hasDirectory hdirectory
    · cases h
  rw [makeDirectories] at h
  split at h
  · next hmake =>
      cases h
      exact hasDirectory_of_makeDirectory hmake
  · split at h
    · split at h
      · cases h
      · split at h
        · cases h
        · split at h
          · next hmake =>
              cases h
              exact hasDirectory_of_makeDirectory hmake
          · split at h
            · cases h
            · exact horThere h
    · exact horThere h

/-! ### Folders -/

/-- A path leads to a directory with some files in it, and nothing else below it. -/
structure IsFolder (t : FileTree) (p : PathName) (place : List String)
    (files : List (String × ByteArray)) : Prop extends t.HasDirectory p place where
  entries : t.entriesBelow place = files.map fun file => (place ++ [file.1], .file file.2)

/-- A directory can be made at the path, and nothing is in it then. -/
def IsFresh (t : FileTree) (p : PathName) : Prop :=
  ∃ t', t.makeDirectories p = .ok t' ∧ ∀ place, t'.locate p = .ok place → t'.entriesBelow place = []

lemma IsFresh.exists_isFolder (h : t.IsFresh p) :
    ∃ t' place, t.makeDirectories p = .ok t' ∧ t'.IsFolder p place [] := by
  obtain ⟨t', hmake, hempty⟩ := h
  obtain ⟨place, hdirectory⟩ := hasDirectory_of_makeDirectories hmake
  exact ⟨t', place, hmake, hdirectory, hempty place hdirectory.locate⟩

/-- Where nothing is, nothing is below. -/
lemma not_isPrefixOf_of_entryAt? (h : t.entryAt? place = none) :
    ∀ e ∈ t.entries, place.isPrefixOf e.1 = false := by
  rw [entryAt?] at h
  split at h
  · cases h
  · simp only [ite_eq_right_iff, reduceCtorEq, imp_false, Bool.or_eq_true, List.any_eq_true,
      not_or, not_exists, not_and, Bool.not_eq_true] at h
    exact h.2

/-- A directory that is made where nothing was is fresh. -/
lemma isFresh_of_makeDirectory (h : t.makeDirectory p = .ok t') : t.IsFresh p := by
  have hdirectories : t.makeDirectories p = .ok t' := by
    rw [makeDirectories]
    simp only [h]
  obtain ⟨place, hlocate, h⟩ := bind_eq_ok.mp h
  split at h
  · cases h
  · next hnone =>
      cases h
      refine ⟨_, hdirectories, fun place' hplace => List.filter_eq_nil_iff.mpr fun e he => ?_⟩
      have hsame : place' = place :=
        Except.ok.inj (hplace.symm.trans (locate_put (by simp [hnone]) hlocate))
      rw [hsame]
      rcases List.mem_append.mp he with he | he
      · simp [not_isPrefixOf_of_entryAt? hnone e (List.mem_filter.mp he).1]
      · simp [List.mem_singleton.mp he]

namespace IsFolder

variable {files : List (String × ByteArray)}

/-- What is at a name in the folder is the file of that name. -/
lemma entryAt?_name (h : t.IsFolder p place files) (name : String) :
    t.entryAt? (place ++ [name]) = (files.lookup name).map .file := by
  have hlookup : t.entries.lookup (place ++ [name]) = (files.lookup name).map .file := by
    rw [← lookup_entriesBelow, h.entries]
    clear h
    induction files with
    | nil => rfl
    | cons file files ih =>
        have hkeys : (place ++ [name] == place ++ [file.1]) = (name == file.1) := by
          rw [Bool.eq_iff_iff]
          simp
        rw [List.map_cons, List.lookup_cons, List.lookup_cons, hkeys, ih]
        cases name == file.1 <;> rfl
  rw [entryAt?, hlookup]
  cases hname : files.lookup name with
  | some bytes => rfl
  | none =>
      -- nothing begins with the name, since all that is below the folder is its files
      have hnone : ∀ e ∈ t.entries, ¬ place ++ [name] <+: e.1 := by
        rintro e he ⟨rest, hrest⟩
        have hbelow : e ∈ t.entriesBelow place := by
          refine List.mem_filter.mpr ⟨he, ?_⟩
          simp [← hrest]
        rw [h.entries] at hbelow
        obtain ⟨file, hfile, rfl⟩ := List.mem_map.mp hbelow
        obtain ⟨rfl, -⟩ : name = file.1 ∧ rest = [] := by simpa using hrest
        exact absurd (List.lookup_eq_none_iff.mp hname file hfile) (by simp)
      rw [if_neg (by simpa using hnone)]
      rfl

/-- A file is written under a new name. -/
lemma exists_writeBytes (h : t.IsFolder p place files) (hname : name ≠ "..")
    (hnew : files.lookup name = none) (bytes : ByteArray) :
    ∃ t', t.writeBytes (p.below [name]) bytes = .ok t' ∧
      t'.IsFolder p place (files ++ [(name, bytes)]) := by
  have hnone : t.entryAt? (place ++ [name]) = none := by rw [h.entryAt?_name, hnew]; rfl
  refine ⟨t.put (place ++ [name]) (.file bytes), ?_, h.toHasDirectory.put (by simp [hnone]) _, ?_⟩
  · refine bind_eq_ok.mpr ⟨_, h.locate_below hname, ?_⟩
    rw [hnone]
    rfl
  · have hkept : (t.entriesBelow place).filter (·.1 ≠ place ++ [name]) = t.entriesBelow place := by
      rw [List.filter_eq_self, h.entries, List.forall_mem_map]
      intro file hfile
      have hne : name ≠ file.1 := by simpa using List.lookup_eq_none_iff.mp hnew file hfile
      simpa using hne.symm
    rw [entriesBelow_put, hkept, h.entries, List.map_append, List.map_singleton]

/-- A file of the folder is read. -/
lemma readBytes (h : t.IsFolder p place files) (hname : name ≠ "..") {bytes : ByteArray}
    (hbytes : files.lookup name = some bytes) : t.readBytes (p.below [name]) = .ok bytes := by
  refine bind_eq_ok.mpr ⟨_, h.locate_below hname, ?_⟩
  rw [h.entryAt?_name, hbytes]
  rfl

/-- There is no file under another name. -/
lemma not_isFile (h : t.IsFolder p place files) (hname : name ≠ "..")
    (hnone : files.lookup name = none) : t.isFile (p.below [name]) = false := by
  rw [isFile, find?, h.locate_below hname]
  simp [h.entryAt?_name, hnone]

/-- The files below the folder are those in it. -/
lemma filesBelow (h : t.IsFolder p place files) :
    t.filesBelow place = files.map fun file => [file.1] := by
  rw [filesBelow_eq, h.entries, List.filterMap_map, ← List.filterMap_eq_map]
  congr 1
  funext file
  simp

end IsFolder

end Concerto.FileTree
