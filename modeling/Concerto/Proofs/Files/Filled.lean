import Concerto.Proofs.Files.Directory
import Mathlib.Data.List.Basic

/-!
Directories that are made where nothing is, and then filled.

* `FileTree.IsAbsent`: nothing is where a path leads to, once the directories on the way are there;
* `FileTree.sameFiles_of_makeDirectories`: making directories leaves the files as they are;
* `FileTree.IsFilled`: some files are in a directory, and no others, nor any below it;
* `FileTree.isFilled_of_makeDirectories`, `FileTree.IsFilled.writeBytes`: so it is of a directory that
  is made where nothing was, and stays so with every file that is written under a new name.
-/

namespace Concerto.FileTree

variable {t t' t'' : FileTree} {p : PathName} {place : List String} {name : String}

/-! ### Places -/

/-- Nothing is where the path leads to, once the directories on the way are there. -/
def IsAbsent (t : FileTree) (p : PathName) : Prop := t.entryAt? (t.resolvePath p).parts = none

instance (t : FileTree) (p : PathName) : Decidable (t.IsAbsent p) := by
  unfold IsAbsent; infer_instance

/-- A path leads where its components say, if it leads anywhere. -/
lemma parts_resolvePath (h : t.locate p = .ok place) : (t.resolvePath p).parts = place := by
  have hfold := mapError_eq_ok.mp h
  change p.parts.foldl _ (t.startOf p) = place
  generalize t.startOf p = start at hfold ⊢
  generalize p.parts = parts at hfold ⊢
  induction parts generalizing start with
  | nil => exact Except.ok.inj hfold
  | cons part parts ih =>
      rw [List.foldlM_cons, bind_eq_ok] at hfold
      obtain ⟨next, hstep, hrest⟩ := hfold
      rw [step] at hstep
      split at hstep
      · cases hstep
      · cases hstep
      · cases hstep
        exact ih _ hrest

/-! ### Directories that are made -/

/-- Two trees have the same files, and paths start at the same places. -/
structure SameFiles (t t' : FileTree) : Prop where
  start : t'.workingDirectory = t.workingDirectory
  filesBelow : ∀ place, t'.filesBelow place = t.filesBelow place

namespace SameFiles

lemma refl (t : FileTree) : SameFiles t t := ⟨rfl, fun _ => rfl⟩

lemma trans (h : SameFiles t t') (h' : SameFiles t' t'') : SameFiles t t'' :=
  ⟨h'.start.trans h.start, fun place => (h'.filesBelow place).trans (h.filesBelow place)⟩

lemma resolvePath (h : SameFiles t t') (p : PathName) : t'.resolvePath p = t.resolvePath p := by
  simp only [FileTree.resolvePath, startOf, h.start]

end SameFiles

/-- What is put where nothing was is the last of what there is. -/
lemma entries_put (h : t.entryAt? place = none) (entry : FileEntry) :
    (t.put place entry).entries = t.entries ++ [(place, entry)] := by
  have hkept : t.entries.filter (·.1 ≠ place) = t.entries := by
    refine List.filter_eq_self.mpr fun e he => decide_eq_true fun hsame => ?_
    have hbelow := not_isPrefixOf_of_entryAt? h e he
    rw [hsame, List.isPrefixOf_iff_prefix.mpr (List.prefix_refl place)] at hbelow
    cases hbelow
  rw [put, hkept]

lemma sameFiles_of_makeDirectory (h : t.makeDirectory p = .ok t') : SameFiles t t' := by
  obtain ⟨place, -, h⟩ := bind_eq_ok.mp h
  split at h
  · cases h
  · next hnone =>
      cases h
      refine ⟨rfl, fun other => ?_⟩
      rw [filesBelow, entries_put hnone]
      simp [filesBelow]

/-- Making directories leaves the files as they are. -/
lemma sameFiles_of_makeDirectories (h : t.makeDirectories p = .ok t') : SameFiles t t' := by
  -- where there is a directory already, the tree is left as it is
  have horThere : ∀ {t₁ t₂ : FileTree} {q : PathName} {e : FileError},
      (if t₁.isDirectory q then .ok t₁ else .error e : Except FileError FileTree) = .ok t₂ →
        SameFiles t₁ t₂ := by
    intro t₁ t₂ q e h
    split at h
    · exact Except.ok.inj h ▸ .refl t₁
    · cases h
  fun_induction makeDirectories t p generalizing t' with
  | case1 p t₁ hmake => exact sameFiles_of_makeDirectory (hmake.trans h)
  | case2 => cases h
  | case3 => cases h
  | case4 p e _ _ _ t₁ hparent t₂ hmake ih =>
      exact (ih hparent).trans (sameFiles_of_makeDirectory (hmake.trans h))
  | case5 => cases h
  | case6 p _ e _ _ _ t₁ hparent =>
      rename_i ih
      exact (ih hparent).trans (horThere h)
  | case7 => exact horThere h

/-! ### Directories that fill up -/

/-- A file is read as before when something is put elsewhere. -/
lemma readBytes_put {other target : List String} {bytes : ByteArray} {entry : FileEntry}
    (hother : t.entryAt? other ≠ some .directory) (hne : target ≠ other)
    (hlocate : t.locate p = .ok target) (h : t.readBytes p = .ok bytes) :
    (t.put other entry).readBytes p = .ok bytes := by
  -- the file is among the entries, since a place that is only a prefix of others is a directory
  have hentry : t.entryAt? target = some (.file bytes) := by
    obtain ⟨_, hlocate', h⟩ := bind_eq_ok.mp h
    obtain rfl := Except.ok.inj (hlocate.symm.trans hlocate')
    split at h
    · next hfile =>
        cases h
        exact hfile
    · cases h
    · cases h
  have hlookup : t.entries.lookup target = some (.file bytes) := by
    rw [entryAt?] at hentry
    split at hentry
    · next hlookup => rw [hlookup, hentry]
    · split at hentry <;> cases hentry
  refine bind_eq_ok.mpr ⟨target, locate_put hother hlocate, ?_⟩
  rw [entryAt?, lookup_put, if_neg hne, hlookup]
  rfl

/-- A path leads to a directory with some files in it, as they were written, and there are no other
files below it. -/
structure IsFilled (t : FileTree) (p : PathName) (place : List String)
    (files : List (String × ByteArray)) : Prop extends t.HasDirectory p place where
  filesBelow : t.filesBelow place = files.map fun file => [file.1]
  names : ∀ file ∈ files, file.1 ≠ ".."
  readBytes : ∀ file ∈ files, t.readBytes (p.below [file.1]) = .ok file.2

/-- A directory that is made where nothing was has no files below it. -/
lemma isFilled_of_makeDirectories (habsent : t.IsAbsent p) (h : t.makeDirectories p = .ok t') :
    ∃ place, t'.IsFilled p place [] := by
  obtain ⟨place, hdirectory⟩ := hasDirectory_of_makeDirectories h
  have hsame := sameFiles_of_makeDirectories h
  have hnone : t.entryAt? place = none := by
    rw [← parts_resolvePath hdirectory.locate, hsame.resolvePath]
    exact habsent
  refine ⟨place, hdirectory, ?_, List.forall_mem_nil _, List.forall_mem_nil _⟩
  rw [hsame.filesBelow, filesBelow, List.map_nil, List.filterMap_eq_nil_iff]
  rintro ⟨parts, entry⟩ he
  cases entry with
  | directory => rfl
  | file bytes => simp [not_isPrefixOf_of_entryAt? hnone _ he]

namespace IsFilled

variable {files : List (String × ByteArray)}

/-- A file that is put under a new name is one file more. -/
lemma filesBelow_put (h : t.IsFilled p place files) (hnew : name ∉ files.map Prod.fst)
    (bytes : ByteArray) : (t.put (place ++ [name]) (.file bytes)).filesBelow place =
      files.map (fun file => [file.1]) ++ [[name]] := by
  have hkept : ∀ e ∈ t.entriesBelow place, e.1 = place ++ [name] → e.2 = .directory := by
    rintro ⟨parts, entry⟩ he rfl
    cases entry with
    | directory => rfl
    | file bytes' =>
        have hmem : [name] ∈ t.filesBelow place := by
          rw [filesBelow_eq]
          exact List.mem_filterMap.mpr ⟨_, he, by simp⟩
        rw [h.filesBelow] at hmem
        obtain ⟨file, hfile, hsame⟩ := List.mem_map.mp hmem
        cases hsame
        exact absurd (List.mem_map_of_mem hfile) hnew
  rw [filesBelow_eq, entriesBelow_put, List.filterMap_append, List.filterMap_filter, ← h.filesBelow,
    filesBelow_eq t]
  congr 1
  · refine List.filterMap_congr fun e he => ?_
    by_cases hsame : e.1 = place ++ [name]
    · simp [hkept e he hsame]
    · simp [hsame]
  · simp

/-- A file that is written under a new name is one file more. -/
lemma writeBytes (h : t.IsFilled p place files) (hname : name ≠ "..")
    (hnew : name ∉ files.map Prod.fst) {bytes : ByteArray}
    (hwrite : t.writeBytes (p.below [name]) bytes = .ok t') :
    t'.IsFilled p place (files ++ [(name, bytes)]) := by
  have hwritten := readBytes_of_writeBytes hwrite
  obtain ⟨_, hlocate, hwrite⟩ := bind_eq_ok.mp hwrite
  obtain rfl := Except.ok.inj ((h.locate_below hname).symm.trans hlocate)
  split at hwrite
  · cases hwrite
  · next hplace =>
      cases hwrite
      refine ⟨h.toHasDirectory.put hplace _, ?_, ?_, ?_⟩
      · rw [h.filesBelow_put hnew, List.map_append, List.map_singleton]
      · exact List.forall_mem_append.mpr ⟨h.names, List.forall_mem_singleton.mpr hname⟩
      · refine List.forall_mem_append.mpr ⟨fun file hfile => ?_, List.forall_mem_singleton.mpr hwritten⟩
        have hne : place ++ [file.1] ≠ place ++ [name] := by
          rintro hsame
          have hsame : file.1 = name := by simpa using hsame
          exact hnew (hsame ▸ List.mem_map_of_mem hfile)
        exact readBytes_put hplace hne (h.locate_below (h.names file hfile)) (h.readBytes file hfile)

end IsFilled

end Concerto.FileTree
