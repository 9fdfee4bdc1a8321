import Concerto.Registry.Exchange
import Concerto.Registry.Load

/-!
What a command tells of its steps.

* `Event`: a step that was taken, and `Event.line`, the line that tells it;
* `loadEvents`, `resolveEvents`, `exportEvents`, `importEvents`: the steps of the operations on
  registries, up to the first one that fails.
-/

namespace Concerto.Command

/-- A step that was taken. -/
inductive Event where
  | found (count : Nat) (directory : PathName)
  | registered (ns : String) (declarations : Nat) (fileName : Option String)
  | tableBuilt (ns : String) (size : Nat)
  | validated (count : Nat)
  | resolved (ns : String)
  | exported (count : Nat) (resolved : Bool)
  | imported (count : Nat)
  deriving DecidableEq, Repr

namespace Event

/-- The part of the program that takes a step. -/
def origin : Event → String
  | found .. => "ctoresolve.registry.loader"
  | registered .. | validated _ => "ctoresolve.registry.model_registry"
  | tableBuilt .. => "ctoresolve.resolver.name_table"
  | resolved _ | exported .. | imported _ => "ctoresolve.resolver.metamodel"

/-- The words for a step. -/
def words : Event → String
  | found count directory =>
    "Found " ++ toString count ++ " model file(s) under " ++ directory.text
  | registered ns declarations fileName =>
    let source :=
      match fileName.filter (· ≠ "") with
      | some name => " from " ++ name
      | none => ""
    "Registered namespace " ++ ns ++ " with " ++ toString declarations ++ " declaration(s)" ++
      source
  | tableBuilt ns size =>
    "Built name table for " ++ ns ++ " with " ++ toString size ++ " entries"
  | validated count => "Validated " ++ toString count ++ " model file(s)"
  | resolved ns => "Resolved model " ++ ns
  | exported count withNames =>
    "Exported " ++ toString count ++ " model(s)" ++
      (if withNames then " with resolved names" else "")
  | imported count => "Imported " ++ toString count ++ " model(s)"

/-- The line that tells a step. -/
def line (e : Event) : String := "DEBUG " ++ e.origin ++ ": " ++ e.words ++ "\n"

/-- A model was put into a registry. -/
def ofFile (file : ModelFile) : Event :=
  registered file.model.ns file.model.declarations.length file.fileName

end Event

/-! ### Registries -/

/-- The steps of items one after the other, up to the first one that fails. -/
def eventsUntil {ε α : Type} (events : α → List Event) (run : α → Except ε Unit) :
    List α → List Event
  | [] => []
  | a :: rest =>
    match run a with
    | .ok () => events a ++ eventsUntil events run rest
    | .error _ => events a

/-- The name table of a model is built. -/
def tableEvents (r : Registry) (s : Settings) (m : Model) : List Event :=
  match NameTable.build r s m with
  | .ok t => [.tableBuilt m.ns t.size]
  | .error _ => []

/-- The steps of checking a model in a registry. -/
def checkEvents (r : Registry) (m : Model) : List Event :=
  match m.validated with
  | .ok m => tableEvents r r.settings m
  | .error _ => []

/-- The steps of checking all models of a registry. -/
def validateEvents (r : Registry) : List Event :=
  eventsUntil (checkEvents r) r.checkModel (r.modelFiles.map (·.model)) ++
    match r.validate with
    | .ok () => [.validated r.files.length]
    | .error _ => []

/-- The steps of resolving a model. -/
def resolveEvents (r : Registry) (s : Settings) (m : Model) : List Event :=
  tableEvents r s m ++
    match r.resolve s m with
    | .ok m => [.resolved m.ns]
    | .error _ => []

/-- The models that were put into a registry. -/
def addedEvents (r : Registry) : List Event := r.modelFiles.map Event.ofFile

/-! ### Loading and exchange -/

/-- The steps of loading the model files below a directory. -/
def loadEvents (t : FileTree) (directory : PathName) : List Event :=
  if !t.isDirectory directory then []
  else
    match directorySettings t none directory none with
    | .error _ => []
    | .ok s =>
      match modelPaths t directory s.sourceSuffix with
      | .error _ => []
      | .ok paths =>
        let l := loadEach t (.empty s) paths
        .found paths.length directory :: addedEvents l.registry ++
          match l.error? with
          | none => validateEvents l.registry
          | some _ => []

/-- The steps of exporting all models of a registry. -/
def exportEvents (r : Registry) (s : Settings) (resolveNames validate : Bool) : List Event :=
  (if resolveNames then
    eventsUntil (resolveEvents r s) (fun m => (r.resolve s m).map fun _ => ())
      (r.modelFiles.map (·.model))
  else []) ++
    match r.exportAll s resolveNames validate with
    | .ok models => [.exported models.length resolveNames]
    | .error _ => []

/-- A registry as far as the source texts of models can be put into it. -/
def addPrintedUntil (r : Registry) : List Model → Registry
  | [] => r
  | m :: rest =>
    match r.addSource m.toSource none false with
    | .ok r => addPrintedUntil r rest
    | .error _ => r

/-- The steps of importing models. -/
def importEvents (s : Settings) (validate : Bool) (models : List Model) : List Event :=
  match (if validate then validatedModels models else .ok models) with
  | .error _ => []
  | .ok models =>
    addedEvents (addPrintedUntil (.empty s) models) ++
      match addPrinted (.empty s) models with
      | .error _ => []
      | .ok r =>
        validateEvents r ++
          match r.validate with
          | .ok () => [.imported r.files.length]
          | .error _ => []

end Concerto.Command
