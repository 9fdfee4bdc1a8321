import Concerto.Proofs.Registry.Agreement
import Concerto.Proofs.Resolve.Node

/-!
Exports that are imported under the standard settings.

* `Model.Sees.standard`: a name of a type that a model sees under any settings it sees under the
  standard ones, if not in the same namespace;
* `Registry.EnumValuesResolve`: the models see what the decorators of their enum values refer to, which
  is all that other settings may leave unchecked;
* `Registry.validate_standard_iff`: this is what a valid registry needs to be valid under the standard
  settings;
* `Registry.importAll_standard`: and what its export needs to be imported under them.
-/

namespace Concerto

/-! ### Names under the standard settings -/

section

variable {r : Registry} {s : Settings} {m : Model} {name ns : String}

/-- The base declarations under other settings are those under the standard ones, except that
transactions may go by a key that is no name. -/
lemma Settings.HasBase.standard (h : s.HasBase name) (hname : IsTypeName name) :
    Settings.standard.HasBase name := by
  have hlegacy : name ≠ Concerto.legacyTransactionKey := by
    rintro rfl
    exact absurd hname (by decide +kernel)
  have hbase : name ∈ baseDeclarations := by
    unfold HasBase at h
    split at h
    · exact (h.resolve_left hlegacy).1
    · exact h
  exact hbase

/-- A name of a type that is seen under some settings is seen under the standard ones. -/
lemma Model.Sees.standard (h : m.Sees r s name ns) (hname : IsTypeName name) :
    ∃ ns', m.Sees r .standard name ns' := by
  cases h with
  | own h => exact ⟨_, .own h⟩
  | imported hown himports hi hafter => exact ⟨_, .imported hown himports hi hafter⟩
  | base hown himports hbase => exact ⟨_, .base hown himports (hbase.standard hname)⟩

lemma IsQualifiedName.ne_empty (h : IsQualifiedName name) : name ≠ "" := by
  rintro rfl
  exact absurd h (by decide)

/-- No model that can be told sees a name in the empty namespace. -/
lemma Model.IsSpellable.ne_empty_of_sees (hm : m.IsSpellable) (h : m.Sees r .standard name ns) :
    ns ≠ "" := by
  cases h with
  | own h => exact hm.ns.ne_empty
  | @imported _ _ i hown himports hi hafter =>
      have hspellable := hm.imports i (by rw [himports]; simp)
      cases i <;> exact hspellable.1.ne_empty
  | base hown himports hbase => decide

/-- In its table a model that can be told knows the names that it sees. -/
lemma Model.IsSpellable.known_iff (hm : m.IsSpellable) {t : NameTable}
    (hbuild : NameTable.build r .standard m = .ok t) :
    (∃ ns, t.namespaceOf? name = some ns) ↔ ∃ ns, m.Sees r .standard name ns := by
  refine exists_congr fun ns => ?_
  rw [NameTable.namespaceOf?_eq_some, NameTable.lookup?_eq_some_iff hbuild]
  exact and_iff_left_of_imp hm.ne_empty_of_sees

end

namespace Registry

variable {r r' : Registry} {s : Settings} {m : Model}

/-! ### Models under the standard settings -/

/-- A model that can be told is resolved under the standard settings if its imports have their targets
and it sees all that it refers to, and otherwise fails on something that it does not see. -/
lemma resolve_standard (hm : m.IsSpellable) (htargets : ∀ i ∈ m.imports, i.HasTarget r) :
    ((∃ m', r.resolve .standard m = .ok m') ↔
      ∀ ref ∈ m.references true, ∃ ns, m.Sees r .standard ref.name ns) ∧
    ∀ e, r.resolve .standard m = .error e →
      ∃ ref ∈ m.references true, (∀ ns, ¬m.Sees r .standard ref.name ns) ∧
        e = .unknownName ref.name := by
  obtain ⟨t, hbuild⟩ := NameTable.exists_build htargets .standard
  have hflag : Settings.standard.resolveEnumValueDecorators = true := rfl
  have hresolve : r.resolve .standard m = m.resolveNames .standard t := by
    rw [resolve, hbuild]
    rfl
  constructor
  · simp only [hresolve, Model.resolveNames_eq_ok, hflag, hm.known_iff hbuild, exists_and_left,
      exists_eq, and_true]
  · intro e he
    rw [hresolve, Model.resolveNames_eq, hflag] at he
    split at he
    · cases he
    · next name hname =>
        obtain ⟨ref, href, hnone, rfl⟩ := NameTable.exists_of_unknown? hname
        refine ⟨ref, href, fun ns hns => ?_, (Except.error.inj he).symm⟩
        obtain ⟨ns', hns'⟩ := (hm.known_iff hbuild).mpr ⟨ns, hns⟩
        cases hnone.symm.trans hns'

/-! ### Registries under the standard settings -/

/-- Every model sees the names that the decorators of its enum values refer to. -/
def EnumValuesResolve (r : Registry) : Prop :=
  ∀ file ∈ r.modelFiles, ∀ ref ∈ file.model.enumValueReferences,
    ∃ ns, file.model.Sees r .standard ref.name ns

/-- A model refers to a name in the decorators of an enum value, and does not see it. -/
def HasUnseenName (r : Registry) (name : String) : Prop :=
  ∃ file ∈ r.modelFiles, ∃ ref ∈ file.model.enumValueReferences,
    ref.name = name ∧ ∀ ns, ¬file.model.Sees r .standard name ns

section

variable (hvalid : r.validate = .ok ()) (hread : r.IsRead)
  (hfinite : ∀ file ∈ r.modelFiles, file.model.IsFinite)

include hvalid hread hfinite

/-- What a valid model refers to under its settings it sees under the standard ones. -/
lemma sees_of_validate {file : ModelFile} (hfile : file ∈ r.modelFiles) :
    (∀ i ∈ file.model.imports, i.HasTarget r) ∧
      ∀ ref ∈ file.model.references r.settings.resolveEnumValueDecorators,
        ∃ ns, file.model.Sees r .standard ref.name ns := by
  obtain ⟨source, hparse⟩ := hread file hfile
  have hspellable := (Model.isSpellable_of_parse hparse (hfinite file hfile)).1
  obtain ⟨-, m, hresolve⟩ := validate_eq_ok.mp hvalid file hfile
  obtain ⟨t, hbuild, hknown, -⟩ := resolve_eq_ok.mp hresolve
  refine ⟨(NameTable.lookup?_of_build hbuild).1, fun ref href => ?_⟩
  obtain ⟨ns, hns⟩ := hknown ref href
  have hsees := (NameTable.lookup?_eq_some_iff hbuild).mp (NameTable.namespaceOf?_eq_some.mp hns).1
  exact hsees.standard (Model.namesTypes hspellable.declarations _ ref href)

/-- What it does not see it refers to in the decorators of its enum values. -/
lemma sees_or_mem_enumValueReferences {file : ModelFile} (hfile : file ∈ r.modelFiles) :
    ∀ ref ∈ file.model.references true,
      (∃ ns, file.model.Sees r .standard ref.name ns) ∨ ref ∈ file.model.enumValueReferences := by
  intro ref href
  have hseen := (sees_of_validate hvalid hread hfinite hfile).2
  rcases Model.mem_references_true.mp href with hother | henum
  · cases hflag : r.settings.resolveEnumValueDecorators with
    | false => exact .inl (hseen ref (hflag ▸ hother))
    | true => exact .inl (hseen ref (hflag ▸ href))
  · exact .inr henum

/-- Such a model is resolved under the standard settings if it sees what it refers to in the decorators
of its enum values, and otherwise fails on something there that it does not see. -/
lemma resolve_standard_of_validate {file : ModelFile} (hfile : file ∈ r.modelFiles) :
    ((∃ m, r.resolve .standard file.model = .ok m) ↔
      ∀ ref ∈ file.model.enumValueReferences, ∃ ns, file.model.Sees r .standard ref.name ns) ∧
    ∀ e, r.resolve .standard file.model = .error e →
      ∃ ref ∈ file.model.enumValueReferences, (∀ ns, ¬file.model.Sees r .standard ref.name ns) ∧
        e = .unknownName ref.name := by
  obtain ⟨source, hparse⟩ := hread file hfile
  have hspellable := (Model.isSpellable_of_parse hparse (hfinite file hfile)).1
  have htargets := (sees_of_validate hvalid hread hfinite hfile).1
  have hsees := sees_or_mem_enumValueReferences hvalid hread hfinite hfile
  obtain ⟨hok, herror⟩ := resolve_standard hspellable htargets
  constructor
  · rw [hok]
    exact ⟨fun h ref href => h ref (Model.mem_references_true.mpr (.inr href)),
      fun h ref href => (hsees ref href).elim id (h ref)⟩
  · intro e he
    obtain ⟨ref, href, hunseen, rfl⟩ := herror e he
    exact ⟨ref, (hsees ref href).resolve_left fun ⟨ns, hns⟩ => hunseen ns hns, hunseen, rfl⟩

/-- Settings that resolve the decorators of enum values have checked them. -/
lemma enumValuesResolve_of_validate (hflag : r.settings.resolveEnumValueDecorators = true) :
    r.EnumValuesResolve := by
  intro file hfile ref href
  refine (sees_of_validate hvalid hread hfinite hfile).2 ref ?_
  rw [hflag]
  exact Model.mem_references_true.mpr (.inr href)

/-- A valid registry is valid under the standard settings if its models see what the decorators of enum
values refer to. Otherwise one of these names is reported. -/
theorem validate_standard_iff (hcontent : r'.content = r.content)
    (hsettings : r'.settings = .standard) :
    (r'.validate = .ok () ↔ r.EnumValuesResolve) ∧
      ∀ e, r'.validate = .error e →
        ∃ name, r.HasUnseenName name ∧ e = .resolution (.unknownName name) := by
  have hstandard : r'.validate = Registry.validate { r with settings := .standard } :=
    validate_congr hcontent hsettings
  have hnamed := fun file hfile => (validate_eq_ok.mp hvalid file hfile).1
  have hresolve := fun file (hfile : file ∈ r.modelFiles) =>
    resolve_standard_of_validate hvalid hread hfinite hfile
  rw [hstandard]
  constructor
  · rw [validate_eq_ok]
    exact forall₂_congr fun file hfile =>
      (and_iff_right (hnamed file hfile)).trans (hresolve file hfile).1
  · intro e he
    obtain ⟨file, hfile, hcheck⟩ := exists_of_forM_eq_error he
    rw [checkModel_eq_map (hnamed file hfile), map_eq_error, exportedModel_eq,
      mapError_eq_error] at hcheck
    obtain ⟨u, hu, rfl⟩ := hcheck
    obtain ⟨ref, href, hunseen, rfl⟩ := (hresolve file hfile).2 u hu
    exact ⟨ref.name, ⟨file, hfile, ref, href, rfl, hunseen⟩, rfl⟩

/-! ### Imports -/

/-- The export of a valid registry of models that have been read is imported under the standard settings,
and gives these models again, if they see what the decorators of their enum values refer to. Otherwise one
of these names is reported. -/
theorem importAll_standard (hkept : r.WellKept) {resolveNames validate : Bool} {models : List Model}
    (h : r.exportAll r.settings resolveNames validate = .ok models) (validate' : Bool) :
    (printed .standard models).content = r.content ∧
      (∀ r', importAll .standard validate' models = .ok r' ↔
        r.EnumValuesResolve ∧ r' = printed .standard models) ∧
      ∀ e, importAll .standard validate' models = .error e →
        ∃ name, r.HasUnseenName name ∧ e = .resolution (.unknownName name) := by
  have htold := isTold_of_exportAll hvalid hread hfinite hkept h
  have hcontent := htold.content_printed .standard
  obtain ⟨hok, herror⟩ := validate_standard_iff hvalid hread hfinite hcontent rfl
  have himport := htold.importAll_eq_map hkept .standard validate'
  refine ⟨hcontent, fun r' => ?_, fun e he => ?_⟩
  · rw [himport, map_eq_ok, ← hok]
    exact ⟨fun ⟨_, h, hr'⟩ => ⟨h, hr'.symm⟩, fun ⟨h, hr'⟩ => ⟨(), h, hr'.symm⟩⟩
  · rw [himport, map_eq_error] at he
    exact herror e he

end

end Registry

end Concerto
