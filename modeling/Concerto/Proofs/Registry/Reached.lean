import Concerto.Proofs.Resolve.NameTable
import Concerto.Proofs.Schema.Nodes
import Concerto.Registry.Add

/-!
The registries that calls build up.

* `Registry.accepted_eq_ok`, `Registry.accepted_eq_error`: when a model is accepted, and why it is not;
* `Registry.addModel_eq_ok`, `Registry.addSource_eq_ok`: when a model is added, and what changes;
* `AddCall`, `Registry.addEach`: calls one after the other, of which the failing ones do nothing;
* `Registry.WellKept`: every model is kept under its own namespace, which no other model has;
* `Registry.WellKept.addEach`: so it is in every registry that calls build up.
-/

namespace Concerto

/-- Validation, if it is asked for, accepts the well named models. -/
lemma Model.validatedIf_eq_ok {validate : Bool} {m m' : Model} :
    m.validatedIf validate = .ok m' ↔ m' = m ∧ (validate = true → m.WellNamed) := by
  cases validate with
  | false => simp [validatedIf, eq_comm]
  | true => simp [validatedIf, mapError_eq_ok, Model.validated_eq_ok]

/-- Validation, if it is asked for, fails like validation. -/
lemma Model.validatedIf_eq_error {validate : Bool} {m : Model} {e : RegistryError} :
    m.validatedIf validate = .error e ↔
      validate = true ∧ ∃ e', m.validated = .error e' ∧ .structural e' = e := by
  cases validate with
  | false => simp [validatedIf]
  | true => simp [validatedIf, mapError_eq_error]

namespace Registry

variable {r r' : Registry} {m m' : Model} {validate : Bool} {source fileName : Option String}

/-! ### One call -/

/-- A model is kept as it is. Its namespace has to be free, and it has to pass its check if there
is one. -/
lemma accepted_eq_ok : r.accepted validate m = .ok m' ↔
    m.ns ∉ r.namespaces ∧ m' = m ∧
      (validate = true → m.WellNamed ∧ r.checkNames m = .ok ()) := by
  rw [accepted, ← hasNamespace_iff]
  by_cases hns : r.hasNamespace m.ns = true
  · simp [hns, throw, throwThe, MonadExceptOf.throw, bind, Except.bind]
  · cases validate with
    | false => simp [hns, pure, Except.pure, eq_comm]
    | true =>
        simp only [hns, Bool.false_eq_true, if_false, if_true, Model.validatedIf_eq_ok, bind_eq_ok]
        constructor
        · rintro ⟨_, ⟨rfl, hnamed⟩, _, hcheck, hm⟩
          exact ⟨not_false, (Except.ok.inj hm).symm, fun _ => ⟨hnamed trivial, hcheck⟩⟩
        · rintro ⟨-, rfl, hcheck⟩
          exact ⟨m', ⟨rfl, fun _ => (hcheck trivial).1⟩, (), (hcheck trivial).2, rfl⟩

/-- A model is refused if its namespace is taken, or else if it fails its check: by its form, or else
by its names. -/
lemma accepted_eq_error {e : RegistryError} : r.accepted validate m = .error e ↔
    (m.ns ∈ r.namespaces ∧ e = .alreadyRegistered m.ns) ∨
      (m.ns ∉ r.namespaces ∧ (m.validatedIf validate = .error e ∨
        (validate = true ∧ m.WellNamed ∧ r.checkNames m = .error e))) := by
  rw [accepted, ← hasNamespace_iff]
  by_cases hns : r.hasNamespace m.ns = true
  · simp [hns, throw, throwThe, MonadExceptOf.throw, bind, Except.bind, eq_comm]
  · cases validate with
    | false => simp [hns, pure, Except.pure, Model.validatedIf]
    | true =>
        simp only [hns, Bool.false_eq_true, if_false, if_true, bind_eq_error]
        constructor
        · rintro (hform | ⟨m', hvalid, hnames | ⟨_, -, ⟨⟩⟩⟩)
          · exact .inr ⟨not_false, .inl hform⟩
          · obtain ⟨rfl, hnamed⟩ := Model.validatedIf_eq_ok.mp hvalid
            exact .inr ⟨not_false, .inr ⟨trivial, hnamed rfl, hnames⟩⟩
        · rintro (⟨⟨⟩, -⟩ | ⟨-, hform | ⟨-, hnamed, hnames⟩⟩)
          · exact .inl hform
          · exact .inr ⟨m, Model.validatedIf_eq_ok.mpr ⟨rfl, fun _ => hnamed⟩, .inl hnames⟩

lemma addModel_eq_ok : r.addModel m source fileName validate = .ok r' ↔
    m.ns ∉ r.namespaces ∧ (validate = true → m.WellNamed ∧ r.checkNames m = .ok ()) ∧
      r' = r.append ⟨m, source, fileName⟩ := by
  simp only [addModel, map_eq_ok, accepted_eq_ok]
  constructor
  · rintro ⟨_, ⟨hns, rfl, hcheck⟩, rfl⟩
    exact ⟨hns, hcheck, rfl⟩
  · rintro ⟨hns, hcheck, rfl⟩
    exact ⟨m, ⟨hns, rfl, hcheck⟩, rfl⟩

lemma addSource_eq_ok {text : String} : r.addSource text fileName validate = .ok r' ↔
    ∃ m, Model.parse text = .ok m ∧ r.addModel m (some text) fileName validate = .ok r' := by
  simp only [addSource, bind_eq_ok, mapError_eq_ok]

end Registry

/-! ### Calls -/

/-- A call that adds a model, by its source text or as a tree. -/
inductive AddCall where
  | text (source : String) (fileName : Option String) (validate : Bool)
  | tree (model : Model) (source fileName : Option String) (validate : Bool)

namespace AddCall

/-- What a call makes of a registry. -/
def result (r : Registry) : AddCall → Except RegistryError Registry
  | text source fileName validate => r.addSource source fileName validate
  | tree model source fileName validate => r.addModel model source fileName validate

/-- A call adds at most a model file at the end. -/
lemma exists_of_result {call : AddCall} {r r' : Registry} (h : call.result r = .ok r') :
    ∃ file : ModelFile, file.model.ns ∉ r.namespaces ∧ r' = r.append file := by
  cases call with
  | text source fileName validate =>
      obtain ⟨m, -, hadd⟩ := Registry.addSource_eq_ok.mp h
      obtain ⟨hns, -, hr⟩ := Registry.addModel_eq_ok.mp hadd
      exact ⟨_, hns, hr⟩
  | tree model source fileName validate =>
      obtain ⟨hns, -, hr⟩ := Registry.addModel_eq_ok.mp h
      exact ⟨_, hns, hr⟩

end AddCall

namespace Registry

/-- The registry after a call. One that fails leaves it as it is. -/
def add (r : Registry) (call : AddCall) : Registry :=
  match call.result r with
  | .ok r' => r'
  | .error _ => r

/-- The registry after calls. -/
def addEach (r : Registry) (calls : List AddCall) : Registry := calls.foldl add r

/-- What holds of a registry, and what no call of some undoes, holds after all of them. -/
lemma addEach_induction {P : Registry → Prop} {r : Registry} {calls : List AddCall} (h : P r)
    (hstep : ∀ call ∈ calls, ∀ r r', P r → call.result r = .ok r' → P r') :
    P (r.addEach calls) := by
  induction calls generalizing r with
  | nil => exact h
  | cons call calls ih =>
      rw [List.forall_mem_cons] at hstep
      refine ih (r := r.add call) ?_ hstep.2
      rw [add]
      cases hresult : call.result r with
      | ok r' => exact hstep.1 r r' h hresult
      | error e => exact h

@[simp] lemma settings_addEach (r : Registry) (calls : List AddCall) :
    (r.addEach calls).settings = r.settings := by
  refine addEach_induction (P := fun r' => r'.settings = r.settings) rfl ?_
  intro call _ r₁ r₂ h hresult
  obtain ⟨file, -, rfl⟩ := AddCall.exists_of_result hresult
  exact h

/-! ### Keys -/

/-- Every model is kept under its own namespace, which no other model has. -/
structure WellKept (r : Registry) : Prop where
  nodup : r.namespaces.Nodup
  keys : ∀ entry ∈ r.files, entry.1 = entry.2.model.ns

lemma wellKept_empty (s : Settings) : (empty s).WellKept :=
  ⟨List.nodup_nil, fun _ hentry => absurd hentry List.not_mem_nil⟩

/-- A model file is put under its own namespace, if that is free. -/
lemma WellKept.append {r : Registry} {file : ModelFile} (h : r.WellKept)
    (hns : file.model.ns ∉ r.namespaces) : (r.append file).WellKept where
  nodup := by
    rw [namespaces_append]
    exact List.nodup_append.mpr ⟨h.nodup, List.pairwise_singleton _ _, fun ns hmem ns' hmem' => by
      rw [List.mem_singleton.mp hmem']
      exact fun heq => hns (heq ▸ hmem)⟩
  keys := by
    intro entry hentry
    rcases List.mem_append.mp hentry with hentry | hentry
    · exact h.keys entry hentry
    · rw [List.mem_singleton.mp hentry]

/-- Calls keep the models under their namespaces. -/
lemma WellKept.addEach {r : Registry} (h : r.WellKept) (calls : List AddCall) :
    (r.addEach calls).WellKept := by
  refine addEach_induction h ?_
  intro call _ r₁ r₂ h₁ hresult
  obtain ⟨file, hns, rfl⟩ := AddCall.exists_of_result hresult
  exact h₁.append hns

/-- A model in a well kept registry is what is found under its namespace. -/
lemma WellKept.file?_eq {r : Registry} (h : r.WellKept) {file : ModelFile}
    (hfile : file ∈ r.modelFiles) : r.file? file.model.ns = some file := by
  obtain ⟨entry, hentry, rfl⟩ := List.mem_map.mp hfile
  rw [← h.keys entry hentry]
  exact Entries.lookup_of_mem h.nodup hentry

/-- What is found in a well kept registry under a namespace is a model of the namespace. -/
lemma WellKept.of_file? {r : Registry} (h : r.WellKept) {ns : String} {file : ModelFile}
    (hfile : r.file? ns = some file) : file ∈ r.modelFiles ∧ file.model.ns = ns := by
  obtain ⟨before, after, hfiles, -⟩ := List.lookup_eq_some_iff.mp hfile
  have hentry : (ns, file) ∈ r.files := by
    rw [hfiles]
    exact List.mem_append_right _ List.mem_cons_self
  exact ⟨List.mem_map_of_mem hentry, (h.keys _ hentry).symm⟩

/-- A well kept registry knows a declaration if and only if one of its models declares it. -/
lemma WellKept.hasDeclaration_iff {r : Registry} (h : r.WellKept) {ns name : String} :
    r.hasDeclaration ns name = true ↔
      ∃ file ∈ r.modelFiles, file.model.ns = ns ∧ name ∈ file.model.declarationNames := by
  rw [hasDeclaration, declarationNames?]
  constructor
  · intro hname
    cases hfile : r.file? ns with
    | none => simp [hfile] at hname
    | some file =>
        obtain ⟨hmem, hns⟩ := h.of_file? hfile
        exact ⟨file, hmem, hns, by simpa [hfile] using hname⟩
  · rintro ⟨file, hmem, rfl, hname⟩
    simpa [h.file?_eq hmem] using hname

end Registry

end Concerto
