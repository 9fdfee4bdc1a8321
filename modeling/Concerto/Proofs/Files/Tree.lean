import Concerto.Files.Tree
import Concerto.Proofs.Outcome

/-!
What is read from a tree of files after something has been written to it.

* `FileTree.entryAt?_put`, `FileTree.entryAt?_put_directory`: what is put at a place is there, and the
  directories stay;
* `FileTree.locate_put`: so a path leads to the same place as before;
* `FileTree.readBytes_of_writeBytes`: the bytes that are written to a path are read from it.
-/

namespace Concerto.FileTree

variable {t t' : FileTree} {place other : List String} {entry : FileEntry} {p : PathName}

lemma lookup_put (t : FileTree) (place : List String) (entry : FileEntry) (other : List String) :
    (t.put place entry).entries.lookup other =
      if other = place then some entry else t.entries.lookup other := by
  rw [put]
  induction t.entries with
  | nil => by_cases h : other = place <;> simp [List.lookup_cons, h, beq_eq_false_iff_ne.mpr]
  | cons e entries ih =>
      obtain ⟨k, v⟩ := e
      by_cases hk : k = place
      · rw [List.filter_cons_of_neg (by simpa using hk), ih, List.lookup_cons]
        by_cases h : other = place <;> simp [hk, h, beq_eq_false_iff_ne.mpr]
      · rw [List.filter_cons_of_pos (by simpa using hk), List.cons_append, List.lookup_cons, ih,
          List.lookup_cons]
        by_cases h : other = k
        · simp [h, hk]
        · simp [beq_eq_false_iff_ne.mpr h]

/-- What is put at a place is there. -/
lemma entryAt?_put (t : FileTree) (place : List String) (entry : FileEntry) :
    (t.put place entry).entryAt? place = some entry := by
  rw [entryAt?, lookup_put, if_pos rfl]

/-- Directories stay where no directory is replaced: what was below one still is, or something is put
below it. -/
lemma entryAt?_put_directory (hplace : t.entryAt? place ≠ some .directory)
    (h : t.entryAt? other = some .directory) :
    (t.put place entry).entryAt? other = some .directory := by
  have hother : other ≠ place := by
    rintro rfl
    exact hplace h
  have hbelow : ∀ e ∈ t.entries, other.isPrefixOf e.1 = true →
      ∃ e ∈ (t.put place entry).entries, other.isPrefixOf e.1 = true := by
    intro e he hprefix
    by_cases hsame : e.1 = place
    · exact ⟨(place, entry), by simp [put], hsame ▸ hprefix⟩
    · exact ⟨e, by simp [put, he, hsame], hprefix⟩
  -- a directory is an entry of its own, or the beginning of the place of one
  rw [entryAt?] at h
  rw [entryAt?, lookup_put, if_neg hother]
  cases hlookup : t.entries.lookup other with
  | some e => rwa [hlookup] at h
  | none =>
      rw [hlookup] at h
      simp only [Bool.or_eq_true, decide_eq_true_eq, List.any_eq_true, Option.ite_none_right_eq_some,
        and_true] at h ⊢
      exact h.imp_right fun ⟨e, he, hprefix⟩ => hbelow e he hprefix

/-- A path leads to the same place as before, since it goes through directories only. -/
lemma locate_put (hplace : t.entryAt? place ≠ some .directory) {target : List String}
    (h : t.locate p = .ok target) : (t.put place entry).locate p = .ok target := by
  rw [locate, mapError_eq_ok] at h ⊢
  change p.parts.foldlM (t.put place entry).step (t.startOf p) = .ok target
  generalize t.startOf p = start at h ⊢
  generalize p.parts = parts at h ⊢
  induction parts generalizing start with
  | nil => exact h
  | cons part parts ih =>
      rw [List.foldlM_cons, bind_eq_ok] at h ⊢
      obtain ⟨next, hstep, hrest⟩ := h
      refine ⟨next, ?_, ih next hrest⟩
      rw [step.eq_def] at hstep ⊢
      split at hstep
      · cases hstep
      · cases hstep
      · next hdirectory => rwa [entryAt?_put_directory hplace hdirectory]

lemma isFile_of_readBytes {bytes : ByteArray} (h : t.readBytes p = .ok bytes) :
    t.isFile p = true := by
  obtain ⟨place, hlocate, h⟩ := bind_eq_ok.mp h
  rw [isFile, find?, hlocate]
  split at h
  · next hentry => simp [hentry]
  · cases h
  · cases h

/-- The bytes that are written to a path are read from it. -/
theorem readBytes_of_writeBytes {bytes : ByteArray} (h : t.writeBytes p bytes = .ok t') :
    t'.readBytes p = .ok bytes := by
  obtain ⟨place, hlocate, h⟩ := bind_eq_ok.mp h
  split at h
  · cases h
  · next hplace =>
      cases h
      refine bind_eq_ok.mpr ⟨place, locate_put hplace hlocate, ?_⟩
      rw [entryAt?_put]
      rfl

end Concerto.FileTree
