import Concerto.Proofs.Registry.Directory
import Concerto.Proofs.Schema.RoundTrip

/-!
The documents of a workspace.

* `isLoaded_of_workspace`: the registry of a workspace has been loaded;
* `Registry.IsLoaded.hasText_of_resolveModel`, `Registry.IsLoaded.hasText_of_exportAll`: what such a
  registry resolves or exports has a text, since its models have been read from source texts;
* `exists_documentLine`: so a command that writes it where it can be seen does not fail.
-/

namespace Concerto

namespace Registry.IsLoaded

variable {r : Registry} (h : r.IsLoaded)

include h

/-- The file of a namespace is one of those that have been loaded. -/
lemma mem_of_get {ns : String} {file : ModelFile} (hget : r.get ns = .ok file) :
    file ∈ r.modelFiles := by
  rw [get.eq_def] at hget
  split at hget
  · next hfind =>
      cases hget
      exact (h.kept.of_file? hfind).1
  · cases hget

section

variable {file : ModelFile} (hfile : file ∈ r.modelFiles)

include hfile

lemma hasText_of_resolve {m : Model} (hresolve : r.resolve r.settings file.model = .ok m) :
    m.toJson.HasText := by
  obtain ⟨source, -, hparse⟩ := h.sources file hfile
  obtain ⟨t, -, -, rfl⟩ := resolve_eq_ok.mp hresolve
  -- resolving changes references only, in which there are no whole numbers
  exact Model.hasText_mapReferences hparse (f := t.assign) (fun _ => rfl) _

/-- A model that has been resolved has a text. -/
lemma hasText_of_resolveModel {validate : Bool} {m : Model}
    (hresolve : r.resolveModel r.settings validate file.model = .ok m) : m.toJson.HasText :=
  h.hasText_of_resolve hfile (resolveModel_eq_ok.mp hresolve).2

end

/-- Models that are exported have a text together. -/
lemma hasText_of_exportAll {resolveNames validate : Bool} {models : List Model}
    (hexport : r.exportAll r.settings resolveNames validate = .ok models) :
    (Json.ofModels models).HasText := by
  refine keyed_ofModels fun m hm => ?_
  obtain ⟨file, hfile, hmodel⟩ := exists_of_forall₂_right (exportAll_eq_ok.mp hexport).1 m hm
  cases resolveNames with
  | false =>
      obtain ⟨source, -, hparse⟩ := h.sources file hfile
      rw [← Except.ok.inj hmodel]
      exact Model.hasText_of_parse hparse
  | true => exact h.hasText_of_resolve hfile (exportedModel_eq_ok.mp hmodel)

end Registry.IsLoaded

namespace Command

lemma isLoaded_of_workspace {t : FileTree} {p : PathName} {r : Registry}
    (h : workspace t p = .ok r) : r.IsLoaded :=
  isLoaded_of_loadDirectory (mapError_eq_ok.mp h)

/-- A document with a text has a line. -/
lemma exists_documentLine {a : Artifact} (h : a.toJson.HasText) :
    ∃ line, documentLine a = .ok line := by
  rw [documentLine, Artifact.serialize_eq_ok.mpr ⟨h, rfl⟩]
  exact ⟨_, rfl⟩

end Command

end Concerto
