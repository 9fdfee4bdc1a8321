import Concerto.Model.Basic
import Concerto.Settings.Basic

/-!
Registries of models, one for each namespace.

* `ModelFile`: a model and where it came from;
* `Registry`: model files under their namespaces, in the order in which they were added;
* `hasNamespace`, `declarationNames?`, `hasDeclaration`: what there is to import.
-/

namespace Concerto

/-- A model with the text and the name of the file that it came from, if it came from one. -/
structure ModelFile where
  model : Model
  source : Option String
  fileName : Option String
  deriving DecidableEq

/-- Model files under their namespaces, and the settings by which they are resolved. -/
structure Registry where
  settings : Settings
  files : List (String × ModelFile)
  deriving DecidableEq

namespace Registry

/-- The registry without models. -/
def empty (settings : Settings) : Registry := ⟨settings, []⟩

/-- The namespaces in their order. -/
def namespaces (r : Registry) : List String := r.files.map Prod.fst

/-- The model files in their order. -/
def modelFiles (r : Registry) : List ModelFile := r.files.map Prod.snd

/-- The model file of a namespace. -/
def file? (r : Registry) (ns : String) : Option ModelFile := r.files.lookup ns

/-- There is a model of the namespace. -/
def hasNamespace (r : Registry) (ns : String) : Bool := (r.file? ns).isSome

/-- The names that the model of a namespace declares. -/
def declarationNames? (r : Registry) (ns : String) : Option (List String) :=
  (r.file? ns).map fun f => f.model.declarationNames

/-- The model of a namespace declares a name. -/
def hasDeclaration (r : Registry) (ns name : String) : Bool :=
  ((r.declarationNames? ns).getD []).contains name

/-- The registry with a model file put after all others. -/
def append (r : Registry) (file : ModelFile) : Registry :=
  { r with files := r.files ++ [(file.model.ns, file)] }

/-- The registry with the model of a namespace changed in place. It stays under the namespace that
it was added under. -/
def modify (r : Registry) (ns : String) (change : Model → Model) : Registry :=
  { r with
    files := r.files.map fun (key, file) =>
      (key, if key = ns then { file with model := change file.model } else file) }

@[simp] theorem namespaces_empty (settings : Settings) : (empty settings).namespaces = [] := rfl

@[simp] theorem namespaces_append (r : Registry) (file : ModelFile) :
    (r.append file).namespaces = r.namespaces ++ [file.model.ns] := by
  simp [append, namespaces]

@[simp] theorem modelFiles_append (r : Registry) (file : ModelFile) :
    (r.append file).modelFiles = r.modelFiles ++ [file] := by
  simp [append, modelFiles]

theorem hasNamespace_iff {r : Registry} {ns : String} :
    r.hasNamespace ns = true ↔ ns ∈ r.namespaces := by
  obtain ⟨settings, files⟩ := r
  simp only [hasNamespace, file?, namespaces]
  induction files with
  | nil => simp
  | cons entry files ih =>
    obtain ⟨l, v⟩ := entry
    by_cases h : ns = l
    · simp [h]
    · simp [List.lookup_cons, h, beq_eq_false_iff_ne.2 h, ih]

end Registry

end Concerto
