import Concerto.Proofs.Registry.Exchange
import Concerto.Proofs.Schema.Texts

/-!
Checking a registry and resolving it.

* `Registry.exportAll_eq_mapM`, `Registry.validate_eq_map`: where all models are well named, an export
  resolves one model after the other, and a check does so too and drops what becomes of them;
* `Registry.validate_agrees_exportAll`: a registry of models that have been read passes its check if
  and only if its resolved models can be exported, and otherwise both fail in the same way.
-/

namespace Concerto

namespace Registry

variable {r : Registry} {s : Settings} {m m' : Model}

/-- Resolution leaves the names of declarations, properties and values alone. -/
lemma wellNamed_of_exportedModel (hnamed : m.WellNamed)
    (h : r.exportedModel s true m = .ok m') : m'.WellNamed := by
  obtain ⟨t, -, -, rfl⟩ := resolve_eq_ok.mp (exportedModel_eq_ok.mp h)
  exact (Model.wellNamed_mapReferences (f := t.assign) (fun _ => rfl) _ m).mpr hnamed

/-- A model that is exported is a resolved one. -/
lemma exportedModel_eq (r : Registry) (s : Settings) (m : Model) :
    r.exportedModel s true m = (r.resolve s m).mapError .resolution := rfl

/-! ### Checks and exports -/

/-- The check of a well named model resolves it, and drops what becomes of it. -/
lemma checkModel_eq_map (hnamed : m.WellNamed) :
    r.checkModel m = (r.exportedModel r.settings true m).map fun _ => () := by
  have haccepted : m.validatedIf true = .ok m :=
    Model.validatedIf_eq_ok.mpr ⟨rfl, fun _ => hnamed⟩
  calc r.checkModel m
      = m.validatedIf true >>= r.checkNames := rfl
    _ = r.checkNames m := by rw [haccepted]; rfl
    _ = (r.exportedModel r.settings true m).map fun _ => () := rfl

/-- Nothing is left for the check of an export to find once the models are resolved. -/
lemma exportAll_eq_mapM (hnamed : ∀ file ∈ r.modelFiles, file.model.WellNamed) (validate : Bool) :
    r.exportAll s true validate =
      r.modelFiles.mapM fun file => r.exportedModel s true file.model := by
  rw [exportAll]
  cases hmodels : r.modelFiles.mapM fun file => r.exportedModel s true file.model with
  | error e => rfl
  | ok models =>
      have hresolved : ∀ m ∈ models, m.WellNamed := by
        intro m hm
        obtain ⟨file, hfile, hexport⟩ := exists_of_forall₂_right (mapM_eq_ok.mp hmodels) m hm
        exact wellNamed_of_exportedModel (hnamed file hfile) hexport
      exact validatedIf_models_eq_ok.mpr ⟨rfl, fun _ => hresolved⟩

/-- A registry of well named models is checked by exporting its resolved models. -/
lemma validate_eq_map (hnamed : ∀ file ∈ r.modelFiles, file.model.WellNamed) (validate : Bool) :
    r.validate = (r.exportAll r.settings true validate).map fun _ => () := by
  rw [exportAll_eq_mapM hnamed]
  exact forM_eq_map_mapM fun file hfile => checkModel_eq_map (hnamed file hfile)

/-- An export of well named models fails on a name only. -/
lemma exists_resolution_of_exportAll (hnamed : ∀ file ∈ r.modelFiles, file.model.WellNamed)
    {validate : Bool} {e : RegistryError} (h : r.exportAll s true validate = .error e) :
    ∃ u, e = .resolution u := by
  rw [exportAll_eq_mapM hnamed] at h
  obtain ⟨file, -, hfail⟩ := exists_of_mapM_eq_error h
  rw [exportedModel_eq] at hfail
  cases hresolve : r.resolve s file.model with
  | ok m =>
      rw [hresolve] at hfail
      cases hfail
  | error u =>
      rw [hresolve] at hfail
      exact ⟨u, (Except.error.inj hfail).symm⟩

/-- A registry of models that have been read from source texts passes its check if and only if its
resolved models can be exported by its settings. Otherwise both fail on the same name: no model that
has been read, and none that has been resolved, is ill formed. -/
theorem validate_agrees_exportAll {calls : List AddCall} (hcalls : ∀ call ∈ calls, call.IsText)
    {settings : Settings} (hr : r = (empty settings).addEach calls) (validate : Bool) :
    (r.validate = .ok () ↔ ∃ models, r.exportAll settings true validate = .ok models) ∧
      (∀ e, r.validate = .error e ↔ r.exportAll settings true validate = .error e) ∧
      (∀ e, r.validate = .error e → ∃ u, e = .resolution u) ∧
      ∀ models, r.exportAll settings true false = .ok models →
        validatedModels models = .ok models := by
  have hsettings : r.settings = settings := by
    rw [hr, settings_addEach]
    rfl
  subst hsettings
  have hread : r.IsRead := hr ▸ isRead_addEach hcalls
  have hnamed : ∀ file ∈ r.modelFiles, file.model.WellNamed := by
    intro file hfile
    obtain ⟨source, hparse⟩ := hread file hfile
    exact Model.wellNamed_of_parse hparse
  -- the check throws away the models that the export returns
  have hvalidate := validate_eq_map hnamed validate
  have herror : ∀ e, r.validate = .error e ↔ r.exportAll r.settings true validate = .error e := by
    intro e
    rw [hvalidate]
    cases r.exportAll r.settings true validate <;> simp [Except.map]
  refine ⟨?_, herror, ?_, ?_⟩
  · rw [hvalidate, map_eq_ok]
    exact ⟨fun ⟨models, h, _⟩ => ⟨models, h⟩, fun ⟨models, h⟩ => ⟨models, h, rfl⟩⟩
  · intro e he
    exact exists_resolution_of_exportAll hnamed ((herror e).mp he)
  · intro models hmodels
    -- no name is ill formed, so the gate at the end of the export changes nothing
    have hgate : r.exportAll r.settings true true = .ok models := by
      rw [exportAll_eq_mapM hnamed, ← exportAll_eq_mapM hnamed false, hmodels]
    exact validatedModels_eq_ok.mpr ⟨rfl, (exportAll_eq_ok.mp hgate).2 rfl⟩

/-- Two models that import each other, and two that name what is not there. -/
def danglingCalls : List AddCall :=
  [.text "namespace a import b.D concept C extends D \x7b\x7d" none false,
    .text "namespace b import a.* concept D \x7bo C c\x7d" none false,
    .text "namespace c import a.C concept E \x7bo C c o F f\x7d" none false,
    .text "namespace d import a.G" none false]

theorem validate_agrees_exportAll_dangling :
    (∀ call ∈ danglingCalls, call.IsText) ∧
      ((empty .standard).addEach danglingCalls).validate =
        .error (.resolution (.unknownName "F")) ∧
      ((empty .standard).addEach danglingCalls).exportAll .standard true true =
        .error (.resolution (.unknownName "F")) := by
  have htext : ∀ call ∈ danglingCalls, call.IsText := by simp [danglingCalls, AddCall.IsText]
  have hvalidate : ((empty .standard).addEach danglingCalls).validate =
      .error (.resolution (.unknownName "F")) := by decide +kernel
  exact ⟨htext, hvalidate, ((validate_agrees_exportAll htext rfl true).2.1 _).mp hvalidate⟩

end Registry

end Concerto
