import Concerto.Model.Print
import Concerto.Registry.Add

/-!
Models taken out of a registry and put into one.

* `Registry.exportModel`, `Registry.exportAll`: the model of a namespace, and all models;
* `importAll`: the registry of several models, each of which goes by its source text.
-/

namespace Concerto

namespace Registry

/-- The model of a file, checked if this is asked for. -/
def exportModel (file : ModelFile) (validate : Bool) : Except RegistryError Model :=
  file.model.validatedIf validate

/-- The model of a file as it is exported with others. -/
def exportedModel (r : Registry) (s : Settings) (resolveNames : Bool) (m : Model) :
    Except RegistryError Model :=
  if resolveNames then r.resolveModel s false m else .ok m

/-- The models of a registry, with their references resolved and checked if this is asked
for. -/
def exportAll (r : Registry) (s : Settings) (resolveNames validate : Bool) :
    Except RegistryError (List Model) := do
  let models ← r.modelFiles.mapM fun file => r.exportedModel s resolveNames file.model
  if validate then (validatedModels models).mapError .structural else return models

end Registry

/-- The registry with the source texts of models put into it, which are not checked. -/
def addPrinted (r : Registry) (models : List Model) : Except RegistryError Registry :=
  models.foldlM (fun r m => r.addSource m.toSource none false) r

/-- The registry that models make up by their source texts. Names are checked once all models
are there, so a model may import one that follows it. -/
def importModels (s : Settings) (models : List Model) : Except RegistryError Registry := do
  let r ← addPrinted (.empty s) models
  r.validate
  return r

/-- The registry of several models, which are checked before if this is asked for. -/
def importAll (s : Settings) (validate : Bool) (models : List Model) :
    Except RegistryError Registry := do
  let models ← if validate then (validatedModels models).mapError .structural else pure models
  importModels s models

/-- The registry of the models with a JSON form. -/
def importJson (s : Settings) (value : Json) : Except RegistryError Registry := do
  let models ← (modelsOfJson value).mapError .structural
  importModels s models

end Concerto
