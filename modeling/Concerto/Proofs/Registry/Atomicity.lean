import Concerto.Proofs.Registry.Reached

/-!
Calls on a registry that they change.

* `RegistryM`: operations on a registry that may fail half way, and then leave what they have done;
* `AddCall.perform`: a call, step by step;
* `AddCall.on_perform`: a call that fails at one of its steps has changed nothing, and any other one has
  put its model file after those that were there;
* `performEach_atomic`: so the registry that calls leave holds the model files that they have returned,
  in the order of the calls, each under a namespace of its own.
-/

namespace Concerto

/-! ### Operations -/

/-- An operation on a registry. It may fail after some of its steps; what these have changed stays
changed. -/
abbrev RegistryM (α : Type) := ExceptT RegistryError (StateM Registry) α

/-- A step that only looks at the registry. -/
def RegistryM.look {α : Type} (f : Registry → Except RegistryError α) : RegistryM α := do
  match f (← get) with
  | .ok a => return a
  | .error e => throw e

/-- Puts a model file under its namespace, in the place of what is there, and returns it. -/
def RegistryM.put (file : ModelFile) : RegistryM ModelFile :=
  modifyGet fun r => (file, { r with files := Entries.set file.model.ns file r.files })

/-- Adds a model. The namespace that has to be free is that of the model as it was given, and the
one that it is kept under is that of the model as it was checked. -/
def RegistryM.addModel (m : Model) (source fileName : Option String) (validate : Bool) :
    RegistryM ModelFile := do
  if (← get).hasNamespace m.ns then throw (.alreadyRegistered m.ns)
  let m ← look fun _ => m.validatedIf validate
  if validate then look fun r => r.checkNames m
  put ⟨m, source, fileName⟩

/-- A call, step by step. It returns the model file that it has added. -/
def AddCall.perform : AddCall → RegistryM ModelFile
  | text source fileName validate => do
    let m ← RegistryM.look fun _ => (Model.parse source).mapError .source
    RegistryM.addModel m (some source) fileName validate
  | tree model source fileName validate => RegistryM.addModel model source fileName validate

/-- The model file that a call is about. -/
def AddCall.Brings : AddCall → ModelFile → Prop
  | text source fileName _, file =>
    Model.parse source = .ok file.model ∧ file.source = some source ∧ file.fileName = fileName
  | tree model source fileName _, file => file = ⟨model, source, fileName⟩

namespace RegistryM

variable {α β : Type} {r : Registry}

/-- What an operation returns, and the registry that it leaves. -/
def on (x : RegistryM α) (r : Registry) : Except RegistryError α × Registry := x.run.run r

lemma on_throw (e : RegistryError) : (throw e : RegistryM α).on r = (.error e, r) := rfl

/-- What follows an operation goes on with the registry that this leaves. -/
lemma on_bind {x : RegistryM α} {f : α → RegistryM β} :
    (x >>= f).on r =
      match x.on r with
      | (.ok a, r') => (f a).on r'
      | (.error e, r') => (.error e, r') := by
  have hrun : x.run.run r = x.on r := rfl
  rw [on, ExceptT.run_bind, StateT.run_bind, hrun]
  rcases x.on r with ⟨e | a, r'⟩ <;> rfl

lemma on_look (f : Registry → Except RegistryError α) : (look f).on r = (f r, r) := by
  rw [look, on_bind]
  show RegistryM.on (match f r with | .ok a => pure a | .error e => throw e) r = _
  cases f r <;> rfl

lemma on_get : (get : RegistryM Registry).on r = (.ok r, r) := rfl

/-- A model file of a free namespace is put after the others. -/
lemma on_put {file : ModelFile} (h : file.model.ns ∉ r.namespaces) :
    (put file).on r = (.ok file, r.append file) := by
  have hset : (put file).on r =
      (.ok file, { r with files := Entries.set file.model.ns file r.files }) := rfl
  rw [hset, Entries.set_of_notMem_keys h]
  rfl

variable {m m' : Model} {validate : Bool}

/-- A model that is accepted is added: the namespace that was free before the checks is the one that
the model is put under after them. -/
lemma on_addModel_of_ok (h : r.accepted validate m = .ok m') (source fileName : Option String) :
    (addModel m source fileName validate).on r =
      (.ok ⟨m', source, fileName⟩, r.append ⟨m', source, fileName⟩) := by
  obtain ⟨hfree, rfl, hcheck⟩ := Registry.accepted_eq_ok.mp h
  have hns : r.hasNamespace m'.ns = false := by
    rwa [← Registry.hasNamespace_iff, Bool.not_eq_true] at hfree
  have hvalid : m'.validatedIf validate = .ok m' :=
    Model.validatedIf_eq_ok.mpr ⟨rfl, fun hv => (hcheck hv).1⟩
  have hput : (put ⟨m', source, fileName⟩).on r =
      (.ok ⟨m', source, fileName⟩, r.append ⟨m', source, fileName⟩) := on_put hfree
  cases validate with
  | false => simp [addModel, on_bind, on_get, on_look, hns, hvalid, hput]
  | true =>
      have hnames : r.checkNames m' = .ok () := (hcheck rfl).2
      simp [addModel, on_bind, on_get, on_look, hns, hvalid, hnames, hput]

/-- A model that is refused leaves the registry as it is. -/
lemma on_addModel_of_error {e : RegistryError} (h : r.accepted validate m = .error e)
    (source fileName : Option String) :
    (addModel m source fileName validate).on r = (.error e, r) := by
  rcases Registry.accepted_eq_error.mp h with ⟨htaken, rfl⟩ | ⟨hfree, hcheck⟩
  · have hns : r.hasNamespace m.ns = true := Registry.hasNamespace_iff.mpr htaken
    simp [addModel, on_bind, on_get, on_throw, hns]
  · have hns : r.hasNamespace m.ns = false := by
      rwa [← Registry.hasNamespace_iff, Bool.not_eq_true] at hfree
    rcases hcheck with hform | ⟨rfl, hnamed, hnames⟩
    · simp [addModel, on_bind, on_get, on_look, hns, hform]
    · have hvalid : m.validatedIf true = .ok m := Model.validatedIf_eq_ok.mpr ⟨rfl, fun _ => hnamed⟩
      simp [addModel, on_bind, on_get, on_look, hns, hvalid, hnames]

/-- The registry is left as it is, or the model has been put after the others. -/
lemma on_addModel (m : Model) (source fileName : Option String) (validate : Bool) (r : Registry) :
    (∃ e, r.addModel m source fileName validate = .error e ∧
      (addModel m source fileName validate).on r = (.error e, r)) ∨
    (m.ns ∉ r.namespaces ∧
      r.addModel m source fileName validate = .ok (r.append ⟨m, source, fileName⟩) ∧
      (addModel m source fileName validate).on r =
        (.ok ⟨m, source, fileName⟩, r.append ⟨m, source, fileName⟩)) := by
  cases haccept : r.accepted validate m with
  | error e =>
      have hrefuse : r.addModel m source fileName validate = .error e := by
        rw [Registry.addModel, haccept]
        rfl
      exact .inl ⟨e, hrefuse, on_addModel_of_error haccept source fileName⟩
  | ok m' =>
      obtain ⟨hfree, rfl, -⟩ := Registry.accepted_eq_ok.mp haccept
      have hadd : r.addModel m' source fileName validate = .ok (r.append ⟨m', source, fileName⟩) := by
        rw [Registry.addModel, haccept]
        rfl
      exact .inr ⟨hfree, hadd, on_addModel_of_ok haccept source fileName⟩

end RegistryM

/-! ### Calls -/

/-- A call fails and has changed nothing, or it has put its model file after the others. -/
lemma AddCall.on_perform (call : AddCall) (r : Registry) :
    (∃ e, call.result r = .error e ∧ call.perform.on r = (.error e, r)) ∨
      ∃ file, call.Brings file ∧ file.model.ns ∉ r.namespaces ∧
        call.result r = .ok (r.append file) ∧ call.perform.on r = (.ok file, r.append file) := by
  cases call with
  | text source fileName validate =>
      rw [result, perform, RegistryM.on_bind, RegistryM.on_look, Registry.addSource]
      cases hparse : Model.parse source with
      | error e => exact .inl ⟨_, rfl, rfl⟩
      | ok m =>
          rcases RegistryM.on_addModel m (some source) fileName validate r with
            hfail | ⟨hfree, hresult, hperform⟩
          · exact .inl hfail
          · exact .inr ⟨_, ⟨hparse, rfl, rfl⟩, hfree, hresult, hperform⟩
  | tree m source fileName validate =>
      rcases RegistryM.on_addModel m source fileName validate r with
        hfail | ⟨hfree, hresult, hperform⟩
      · exact .inl hfail
      · exact .inr ⟨_, rfl, hfree, hresult, hperform⟩

/-- The results of calls one after the other, whichever of them fail, and the registry that they
leave. -/
def performEach (calls : List AddCall) (r : Registry) :
    List (Except RegistryError ModelFile) × Registry :=
  (calls.mapM fun call => call.perform.run : StateM Registry _).run r

lemma performEach_cons (call : AddCall) (calls : List AddCall) (r : Registry) :
    performEach (call :: calls) r =
      ((call.perform.on r).1 :: (performEach calls (call.perform.on r).2).1,
        (performEach calls (call.perform.on r).2).2) := by
  rw [performEach, List.mapM_cons, StateT.run_bind]
  rfl

/-- Calls that are performed one after the other build up the registry that they are said to. What
they return are the model files that they bring, and these come after the ones that were there. -/
lemma performEach_kept (calls : List AddCall) (r : Registry) :
    (performEach calls r).2 = r.addEach calls ∧
      List.Forall₂ (fun call result => ∀ file, result = .ok file → call.Brings file) calls
        (performEach calls r).1 ∧
      (performEach calls r).2.modelFiles =
        r.modelFiles ++ (performEach calls r).1.filterMap Except.toOption := by
  induction calls generalizing r with
  | nil => exact ⟨rfl, .nil, (List.append_nil _).symm⟩
  | cons call calls ih =>
      rw [performEach_cons]
      -- a call either fails and leaves the registry, or appends the file that it brings
      rcases call.on_perform r with ⟨e, hresult, hperform⟩ | ⟨file, hbrings, -, hresult, hperform⟩
      · have hadd : r.addEach (call :: calls) = r.addEach calls := by
          simp [Registry.addEach, Registry.add, hresult]
        obtain ⟨hregistry, hresults, hfiles⟩ := ih r
        rw [hperform, hadd]
        exact ⟨hregistry, .cons (fun _ h => by cases h) hresults, hfiles⟩
      · have hadd : r.addEach (call :: calls) = (r.append file).addEach calls := by
          simp [Registry.addEach, Registry.add, hresult]
        obtain ⟨hregistry, hresults, hfiles⟩ := ih (r.append file)
        rw [hperform, hadd]
        refine ⟨hregistry, .cons (fun _ h => by cases h; exact hbrings) hresults, ?_⟩
        rw [hfiles, Registry.modelFiles_append, List.append_assoc]
        rfl

/-- Whatever calls are performed on an empty registry, each model is kept under its own namespace,
which no other one has, and the model files are those that the calls have returned, in the order of
the calls. A call that is performed next fails and leaves the registry as it is, or puts its model
file after all others, which stay as they are. -/
theorem performEach_atomic (settings : Settings) (calls : List AddCall) :
    ∃ results r, performEach calls (.empty settings) = (results, r) ∧
      r.namespaces.Nodup ∧ (∀ entry ∈ r.files, entry.1 = entry.2.model.ns) ∧
      List.Forall₂ (fun call result => ∀ file, result = .ok file → call.Brings file) calls results ∧
      r.modelFiles = results.filterMap Except.toOption ∧
      ∀ call : AddCall,
        (∃ e, call.result r = .error e ∧ call.perform.on r = (.error e, r)) ∨
        ∃ file, call.Brings file ∧ file.model.ns ∉ r.namespaces ∧
          call.result r = .ok { r with files := r.files ++ [(file.model.ns, file)] } ∧
          call.perform.on r = (.ok file, { r with files := r.files ++ [(file.model.ns, file)] }) := by
  obtain ⟨hregistry, hresults, hfiles⟩ := performEach_kept calls (.empty settings)
  have hkept : (performEach calls (.empty settings)).2.WellKept := by
    rw [hregistry]
    exact (Registry.wellKept_empty settings).addEach calls
  exact ⟨_, _, rfl, hkept.nodup, hkept.keys, hresults, hfiles, fun call => call.on_perform _⟩

end Concerto
