import Concerto.Proofs.Registry.Exchange

/-!
Registries that grow.

* `Registry.Extends`: a registry keeps what another one has under each namespace;
* `Registry.Extends.resolveModel_eq`: a model whose imports have their targets is resolved in a
  registry as in every larger one;
* `Registry.validate_of_result`: a call that checks its model keeps a valid registry valid;
* `Registry.stays_valid`: calls that check their models build up valid registries only, and what
  they add is resolved in the same way ever after.

A namespace that is taken is never given away, so the only names that a model could gain are those
of a namespace that it imports before there is one. A model that has passed its check imports none.
-/

namespace Concerto

/-- The call checks its model before it adds it. -/
def AddCall.IsChecked : AddCall → Prop
  | text _ _ validate => validate = true
  | tree _ _ _ validate => validate = true

namespace Registry

variable {r r' r'' : Registry} {s : Settings} {m : Model} {file : ModelFile}

/-! ### Larger registries -/

/-- A registry keeps the settings of another one, and what that has under each namespace. -/
structure Extends (r r' : Registry) : Prop where
  settings : r'.settings = r.settings
  keeps : ∀ {ns file}, r.file? ns = some file → r'.file? ns = some file

namespace Extends

lemma refl (r : Registry) : r.Extends r := ⟨rfl, fun h => h⟩

lemma trans (h : r.Extends r') (h' : r'.Extends r'') : r.Extends r'' :=
  ⟨h'.settings.trans h.settings, fun hfile => h'.keeps (h.keeps hfile)⟩

/-- A model file is put after the others, whatever its namespace. -/
lemma append (r : Registry) (file : ModelFile) : r.Extends (r.append file) where
  settings := rfl
  keeps {ns file'} hfile := by
    rw [file?] at hfile
    simp [Registry.append, file?, List.lookup_append, hfile]

/-- Calls give no namespace away. -/
lemma addEach (r : Registry) (calls : List AddCall) : r.Extends (r.addEach calls) := by
  refine addEach_induction (refl r) ?_
  intro call _ r₁ r₂ h hresult
  obtain ⟨file, -, rfl⟩ := AddCall.exists_of_result hresult
  exact h.trans (append r₁ file)

/-- The names of a namespace that is there do not change. -/
lemma declarationNames?_eq (h : r.Extends r') {ns : String} (hns : r.hasNamespace ns = true) :
    r'.declarationNames? ns = r.declarationNames? ns := by
  obtain ⟨file, hfile⟩ := Option.isSome_iff_exists.mp hns
  rw [declarationNames?, declarationNames?, hfile, h.keeps hfile]

/-- An import that has its target makes the same names known. -/
lemma declareIn_eq (h : r.Extends r') {i : Import} (htarget : i.HasTarget r) (t : NameTable) :
    i.declareIn r' t = i.declareIn r t := by
  have hns : r.hasNamespace i.ns = true := by
    cases i with
    | all ns uri => exact htarget
    | type ns name uri =>
        cases hfile : r.file? ns with
        | some file => exact Option.isSome_of_eq_some hfile
        | none => simp [Import.HasTarget, hasDeclaration, declarationNames?, hfile] at htarget
  have hnames := h.declarationNames?_eq hns
  cases i with
  | all ns uri =>
      rw [Import.ns] at hnames
      rw [Import.declareIn, Import.declareIn, hnames]
  | type ns name uri =>
      rw [Import.ns] at hnames
      rw [Import.declareIn, Import.declareIn, hasDeclaration, hasDeclaration, hnames]

/-- The table of a model whose imports have their targets is the same. -/
lemma build_eq (h : r.Extends r') (htargets : ∀ i ∈ m.imports, i.HasTarget r) :
    NameTable.build r' s m = NameTable.build r s m := by
  rw [NameTable.build, NameTable.build,
    foldlM_congr fun i hi t => h.declareIn_eq (htargets i hi) t]

/-- A model whose imports have their targets is resolved in the same way. -/
lemma resolve_eq (h : r.Extends r') (htargets : ∀ i ∈ m.imports, i.HasTarget r) :
    r'.resolve s m = r.resolve s m := by
  rw [resolve, resolve, h.build_eq htargets]

lemma resolveModel_eq (h : r.Extends r') (htargets : ∀ i ∈ m.imports, i.HasTarget r)
    (validate : Bool) : r'.resolveModel s validate m = r.resolveModel s validate m :=
  resolveModel_congr (h.resolve_eq htargets) validate

end Extends

/-- The imports of a model that is resolved have their targets. -/
lemma hasTarget_of_resolve {m' : Model} (h : r.resolve s m = .ok m') :
    ∀ i ∈ m.imports, i.HasTarget r := by
  obtain ⟨t, hbuild, -⟩ := resolve_eq_ok.mp h
  exact (NameTable.lookup?_of_build hbuild).1

/-! ### Calls that check -/

/-- A call that checks its model adds it if it is well named and all its names are known. -/
lemma exists_of_checked {call : AddCall} (hcall : call.IsChecked)
    (h : call.result r = .ok r') :
    ∃ file : ModelFile, file.model.ns ∉ r.namespaces ∧ r' = r.append file ∧ file.model.WellNamed ∧
      ∃ m, r.resolve r.settings file.model = .ok m := by
  have hadded : ∀ {m source fileName}, r.addModel m source fileName true = .ok r' →
      ∃ file : ModelFile, file.model.ns ∉ r.namespaces ∧ r' = r.append file ∧
        file.model.WellNamed ∧ ∃ m, r.resolve r.settings file.model = .ok m := by
    intro m source fileName hadd
    obtain ⟨hns, hcheck, rfl⟩ := addModel_eq_ok.mp hadd
    obtain ⟨hnamed, hnames⟩ := hcheck rfl
    rw [checkNames, map_eq_ok] at hnames
    obtain ⟨m', hresolve, -⟩ := hnames
    exact ⟨_, hns, rfl, hnamed, m', mapError_eq_ok.mp hresolve⟩
  cases call with
  | text source fileName validate =>
      cases hcall
      obtain ⟨m, -, hadd⟩ := addSource_eq_ok.mp h
      exact hadded hadd
  | tree model source fileName validate =>
      cases hcall
      exact hadded h

/-- A call that checks its model keeps a valid registry valid. -/
lemma validate_of_result {call : AddCall} (hcall : call.IsChecked) (hvalid : r.validate = .ok ())
    (h : call.result r = .ok r') : r'.validate = .ok () := by
  obtain ⟨file, -, rfl, hnamed, m, hresolve⟩ := exists_of_checked hcall h
  have hkept : ∀ {m m' : Model}, r.resolve r.settings m = .ok m' →
      (r.append file).resolve r.settings m = .ok m' := fun hm =>
    ((Extends.append r file).resolve_eq (hasTarget_of_resolve hm)).trans hm
  rw [validate_eq_ok] at hvalid ⊢
  intro file' hfile'
  rw [modelFiles_append] at hfile'
  rcases List.mem_append.mp hfile' with hold | hnew
  · obtain ⟨hnamed', m', hm'⟩ := hvalid file' hold
    exact ⟨hnamed', m', hkept hm'⟩
  · rw [List.mem_singleton.mp hnew]
    exact ⟨hnamed, m, hkept hresolve⟩

/-- What a call has put into a registry under a free namespace is found there. -/
lemma file?_append (hns : file.model.ns ∉ r.namespaces) :
    (r.append file).file? file.model.ns = some file := by
  have hnone : r.file? file.model.ns = none := by
    rw [← hasNamespace_iff, hasNamespace, Option.isSome_iff_ne_none, not_not] at hns
    exact hns
  rw [file?] at hnone
  simp [append, file?, List.lookup_append, hnone]

/-- Calls that check their models build up valid registries only, whichever of them fail. And what
such a call has added, to a registry that any calls have built up, is resolved, and stays where it
is and is resolved in the same way whatever calls add after it. -/
theorem stays_valid (settings : Settings) :
    (∀ calls : List AddCall, (∀ call ∈ calls, call.IsChecked) →
      ((empty settings).addEach calls).validate = .ok ()) ∧
    ∀ (before : List AddCall) (call : AddCall) (r : Registry), call.IsChecked →
      call.result ((empty settings).addEach before) = .ok r →
      ∃ file, r = ((empty settings).addEach before).append file ∧
        ∀ after : List AddCall, (r.addEach after).file? file.model.ns = some file ∧
          ∀ validate, (∃ m, (r.addEach after).resolveModel settings validate file.model = .ok m) ∧
            ∀ s, (r.addEach after).resolveModel s validate file.model =
              r.resolveModel s validate file.model := by
  constructor
  -- a checked call that succeeds has validated the registry that it leaves
  · intro calls hcalls
    refine addEach_induction (P := fun r => r.validate = .ok ()) rfl ?_
    exact fun call hcall _ _ hvalid hresult => validate_of_result (hcalls call hcall) hvalid hresult
  · intro before call r hcall hresult
    obtain ⟨file, hns, rfl, hnamed, m, hresolve⟩ := exists_of_checked hcall hresult
    refine ⟨file, rfl, fun after => ?_⟩
    generalize hr : (empty settings).addEach before = r at hns hresolve
    have hsettings : r.settings = settings := by
      rw [← hr, settings_addEach]
      rfl
    rw [hsettings] at hresolve
    -- the targets of the imports are there when the file is added, and no later call takes them
    -- away
    have htargets := hasTarget_of_resolve hresolve
    have hadded : r.Extends (r.append file) := .append r file
    have hafter : (r.append file).Extends ((r.append file).addEach after) := .addEach _ after
    refine ⟨hafter.keeps (file?_append hns), fun validate => ⟨⟨m, ?_⟩, fun s => ?_⟩⟩
    · rw [(hadded.trans hafter).resolveModel_eq htargets]
      exact resolveModel_eq_ok.mpr ⟨fun _ => hnamed, hresolve⟩
    · rw [(hadded.trans hafter).resolveModel_eq htargets, hadded.resolveModel_eq htargets]

/-- A call that checks a model with a wildcard import, a decorator and a super type. -/
def extendingCall : AddCall :=
  .text "namespace b import a.* @d(Event) concept D extends C \x7b\x7d" none true

/-- Calls that check their models, of which the first, the third and the last one fail. -/
def checkedCalls : List AddCall :=
  [.text "namespace b import a.*" none true,
    .text "namespace a concept C \x7b\x7d" none true,
    .text "namespace a" none true,
    extendingCall,
    .text "namespace c concept E extends D \x7b\x7d" none true]

/-- A call that adds a model with names that are not there yet. -/
def uncheckedCalls : List AddCall :=
  [.text "namespace a import a.* import b.* concept C extends D \x7b\x7d" none false]

theorem stays_valid_growing :
    (∀ call ∈ checkedCalls, call.IsChecked) ∧
      ((empty .standard).addEach checkedCalls).namespaces = ["a", "b"] ∧
      ((empty .standard).addEach checkedCalls).validate = .ok () ∧
      ∃ r, extendingCall.result ((empty .standard).addEach uncheckedCalls) = .ok r ∧
        ∃ file, r = ((empty .standard).addEach uncheckedCalls).append file ∧
          ∃ m, (r.addEach checkedCalls).resolveModel .standard true file.model = .ok m ∧
            r.resolveModel .standard true file.model = .ok m := by
  have hchecked : ∀ call ∈ checkedCalls, call.IsChecked := by
    simp [checkedCalls, extendingCall, AddCall.IsChecked]
  obtain ⟨hresult, hnamespaces⟩ :
      (extendingCall.result ((empty .standard).addEach uncheckedCalls)).map namespaces =
        .ok ["a", "b"] ∧ ((empty .standard).addEach checkedCalls).namespaces = ["a", "b"] := by
    decide +kernel
  obtain ⟨r, hresult, -⟩ := map_eq_ok.mp hresult
  obtain ⟨hvalid, hadded⟩ := stays_valid .standard
  obtain ⟨file, hr, hafter⟩ := hadded uncheckedCalls extendingCall r rfl hresult
  obtain ⟨⟨m, hm⟩, hsame⟩ := (hafter checkedCalls).2 true
  exact ⟨hchecked, hnamespaces, hvalid checkedCalls hchecked, r, hresult, file, hr, m, hm,
    (hsame .standard).symm.trans hm⟩

end Registry

end Concerto
