import Concerto.Model.Parse
import Concerto.Resolve.Reference
import Concerto.Schema.Artifact

/-!
Adding models to a registry, and checking the models in it.

* `RegistryError`: why a registry does not do what it is asked to;
* `Registry.resolveModel`: a copy of a model with its references resolved;
* `Registry.addModel`, `Registry.addSource`: the registry with one more model;
* `Registry.validate`: every model is well formed and all its names have declarations.
-/

namespace Concerto

/-- Why a registry does not do what it is asked to. -/
inductive RegistryError where
  | alreadyRegistered (ns : String)
  | notRegistered (ns : String)
  | source (error : SourceError)
  | structural (error : StructuralError)
  | resolution (error : ResolutionError)
  deriving DecidableEq, Repr

/-- The message of an error. -/
def RegistryError.message : RegistryError → String
  | alreadyRegistered ns => "Namespace " ++ ns ++ " is already registered"
  | notRegistered ns => "Namespace " ++ ns ++ " is not registered"
  | source e => e.message
  | structural e => e.message
  | resolution e => e.message

/-- The model, checked by its form if this is asked for. -/
def Model.validatedIf (validate : Bool) (m : Model) : Except RegistryError Model :=
  if validate then m.validated.mapError .structural else .ok m

namespace Registry

/-- The model file of a namespace, which has to be there. -/
def get (r : Registry) (ns : String) : Except RegistryError ModelFile :=
  match r.file? ns with
  | some file => .ok file
  | none => .error (.notRegistered ns)

/-- The model with its references resolved, by the settings and with the names that the registry
makes known. -/
def resolve (r : Registry) (s : Settings) (m : Model) : Except ResolutionError Model := do
  let table ← NameTable.build r s m
  m.resolveNames s table

/-- The model with its references resolved, checked before if this is asked for. -/
def resolveModel (r : Registry) (s : Settings) (validate : Bool) (m : Model) :
    Except RegistryError Model := do
  let m ← m.validatedIf validate
  (r.resolve s m).mapError .resolution

/-- Every name in a model has a declaration. -/
def checkNames (r : Registry) (m : Model) : Except RegistryError Unit :=
  ((r.resolve r.settings m).mapError .resolution).map fun _ => ()

/-- The model as the registry keeps it. A model that is checked has to be well formed, and all
its names need declarations in the registry as it is. -/
def accepted (r : Registry) (validate : Bool) (m : Model) : Except RegistryError Model := do
  if r.hasNamespace m.ns then throw (.alreadyRegistered m.ns)
  if validate then
    let m ← m.validatedIf true
    r.checkNames m
    return m
  else return m

/-- The registry with a model put after the others, under a namespace that is free. -/
def addModel (r : Registry) (m : Model) (source fileName : Option String) (validate : Bool) :
    Except RegistryError Registry :=
  (r.accepted validate m).map fun m => r.append ⟨m, source, fileName⟩

/-- The registry with the model of a source text put after the others. -/
def addSource (r : Registry) (source : String) (fileName : Option String) (validate : Bool) :
    Except RegistryError Registry := do
  let m ← (Model.parse source).mapError .source
  r.addModel m (some source) fileName validate

/-- A model in the registry is well formed, and all its names have declarations. -/
def checkModel (r : Registry) (m : Model) : Except RegistryError Unit := do
  let m ← m.validatedIf true
  r.checkNames m

/-- Every model in the registry passes its check. -/
def validate (r : Registry) : Except RegistryError Unit :=
  r.modelFiles.forM fun file => r.checkModel file.model

end Registry

end Concerto
