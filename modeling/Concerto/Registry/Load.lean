import Concerto.Files.Glob
import Concerto.Registry.Add
import Concerto.Settings.Document

/-!
Loading models from files.

* `loadFile`: the registry with the model of a file;
* `loadFiles`: the registry after several files, up to the first one that fails;
* `loadDirectory`: the registry after the model files below a directory;
* `LoadError`: why loading fails.
-/

namespace Concerto

/-- Why loading fails. Where it is a file that fails, its path is kept. -/
inductive LoadError where
  | noDirectory (path : PathName)
  | unreadable (path : PathName) (error : FileError)
  | encoding (error : Text.EncodingError)
  | number (error : NumberError)
  | lexical (path : PathName) (error : LexicalError)
  | grammar (path : PathName) (error : GrammarError)
  | notAdded (path : PathName) (error : RegistryError)
  | settings (error : SettingsError)
  | pattern (error : PatternError)
  | invalid (error : RegistryError)
  deriving DecidableEq, Repr

/-- The message of an error. -/
def LoadError.message : LoadError → String
  | noDirectory path => "Model directory '" ++ path.text ++ "' does not exist"
  | unreadable path e => "Cannot read model file '" ++ path.text ++ "': " ++ e.message
  | encoding e => e.message
  | number e => e.message
  | lexical path e => "Parse error in '" ++ path.text ++ "': " ++ e.message
  | grammar path e => "Parse error in '" ++ path.text ++ "': " ++ e.message
  | notAdded path e => "Cannot register '" ++ path.text ++ "': " ++ e.message
  | settings e => e.message
  | pattern e => e.message
  | invalid e => e.message

/-- Why the model of a file is not added. -/
def LoadError.ofRegistry (path : PathName) : RegistryError → LoadError
  | .source (.lexical e) => lexical path e
  | .source (.grammar e) => grammar path e
  | .source (.number e) => number e
  | e => notAdded path e

/-- The text of a model file. -/
def readSource (t : FileTree) (path : PathName) : Except LoadError String := do
  let bytes ← (t.readBytes path).mapError (.unreadable path)
  (Text.ofBytes bytes).mapError .encoding

/-- The registry with the model of a file, which is not checked yet. -/
def loadFile (t : FileTree) (r : Registry) (path : PathName) : Except LoadError Registry := do
  let source ← readSource t path
  (r.addSource source (some path.text) false).mapError (.ofRegistry path)

/-- What loading leaves: the registry as far as it was filled, and the error that ended it. -/
structure Loaded where
  registry : Registry
  error? : Option LoadError

namespace Loaded

/-- The registry, if nothing went wrong. -/
def toExcept (l : Loaded) : Except LoadError Registry :=
  match l.error? with
  | none => .ok l.registry
  | some e => .error e

end Loaded

/-- The registry after the files of a list, up to the first one that fails. -/
def loadEach (t : FileTree) (r : Registry) : List PathName → Loaded
  | [] => ⟨r, none⟩
  | path :: paths =>
    match loadFile t r path with
    | .ok r => loadEach t r paths
    | .error e => ⟨r, some e⟩

/-- The registry after the files of a list. Models are checked once all of them are there, so a
model may import one that follows it. -/
def loadFiles (t : FileTree) (r : Registry) (paths : List PathName) (validate : Bool) : Loaded :=
  let l := loadEach t r paths
  match l.error? with
  | some _ => l
  | none =>
    if validate then
      match l.registry.validate with
      | .ok () => l
      | .error e => { l with error? := some (.invalid e) }
    else l

/-- The model files below a directory, ordered by the components of their paths. -/
def modelPaths (t : FileTree) (directory : PathName) (suffix : String) :
    Except PatternError (List PathName) := do
  let pattern ← PathPattern.ofText ("*" ++ suffix)
  let place := (t.locate directory).toOption.getD []
  let found := (t.filesBelow place).filter pattern.matchesFile
  return (found.mergeSort fun a b => !(b < a)).map directory.below

/-- The settings for the models of a directory: given ones, those of the registry that they are
put into, or those of the directory. -/
def directorySettings (t : FileTree) (r : Option Registry) (directory : PathName)
    (given : Option Settings) : Except SettingsError Settings :=
  match given, r with
  | some s, _ => .ok s
  | none, some r => .ok r.settings
  | none, none => Settings.find t directory

/-- The registry after the model files below a directory. Without a registry a new one is
filled. -/
def loadDirectory (t : FileTree) (r : Option Registry) (directory : PathName) (validate : Bool)
    (given : Option Settings) : Loaded :=
  let before := r.getD (.empty .standard)
  if !t.isDirectory directory then ⟨before, some (.noDirectory directory)⟩
  else
    match directorySettings t r directory given with
    | .error e => ⟨before, some (.settings e)⟩
    | .ok s =>
      match modelPaths t directory s.sourceSuffix with
      | .error e => ⟨before, some (.pattern e)⟩
      | .ok paths => loadFiles t (r.getD (.empty s)) paths validate

end Concerto
