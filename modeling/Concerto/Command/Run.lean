import Concerto.Command.Arguments
import Concerto.Command.Event
import Concerto.Schema.Metamodel

/-!
The commands on a tree of files.

* `Outcome`: what a command leaves: the files, what it wrote, the steps that it took, and how it
  ended;
* `checkDirectory`, `resolveNamespace`, `exportDirectory`, `importDocument`: the commands;
* `Request.run`: the command that is asked for.
-/

namespace Concerto.Command

/-! ### Outcomes -/

/-- A fault that no command reports as an error of its input. -/
inductive Fault where
  | encoding (error : Text.EncodingError)
  | number (error : NumberError)
  | pattern (error : PatternError)
  | writing (error : Json.WriteError)
  | file (error : FileError)
  deriving DecidableEq, Repr

/-- The message of a fault. -/
def Fault.message : Fault → String
  | encoding e => e.message
  | number e => e.message
  | pattern e => e.message
  | writing e => e.message
  | file e => e.message

/-- How a command ends: well, with an error that it reports, or by a fault. -/
inductive Ending where
  | success
  | failure (message : String)
  | fault (fault : Fault)
  deriving DecidableEq, Repr

namespace Ending

/-- How a command ends that settings are missing for. -/
def ofSettings : SettingsError → Ending
  | .encoding e => fault (.encoding e)
  | e => failure e.message

/-- How a command ends that a registry refuses. -/
def ofRegistry : RegistryError → Ending
  | .source (.number e) => fault (.number e)
  | e => failure e.message

/-- How a command ends that cannot load its models. -/
def ofLoad : LoadError → Ending
  | .encoding e => fault (.encoding e)
  | .number e => fault (.number e)
  | .pattern e => fault (.pattern e)
  | .settings e => ofSettings e
  | .invalid e => ofRegistry e
  | e => failure e.message

/-- How a command ends that cannot put a document into a text. -/
def ofWriting (e : Json.WriteError) : Ending := fault (.writing e)

/-- How a command ends that cannot read a document. -/
def ofDocument : DocumentError → Ending
  | .encoding e => fault (.encoding e)
  | .number e => fault (.number e)
  | .structural e => failure e.message

end Ending

/-- What a command leaves. -/
structure Outcome where
  ending : Ending
  written : String
  events : List Event
  tree : FileTree

namespace Outcome

/-- What is written where errors are: the steps, if they are to be told, and the error. -/
def errorText (verbose : Bool) (o : Outcome) : String :=
  (if verbose then String.join (o.events.map Event.line) else "") ++
    match o.ending with
    | .failure message => "Error: " ++ message ++ "\n"
    | _ => ""

end Outcome

/-! ### Commands that read models -/

/-- What a command leaves that wrote no file. -/
def unchanged (t : FileTree) (events : List Event) (result : Except Ending String) : Outcome :=
  match result with
  | .ok text => ⟨.success, text, events, t⟩
  | .error ending => ⟨ending, "", events, t⟩

/-- The registry of the models below a directory. -/
def workspace (t : FileTree) (directory : PathName) : Except Ending Registry :=
  (loadDirectory t none (t.resolvePath directory) true none).toExcept.mapError .ofLoad

/-- The steps of loading the models below a directory. -/
def workspaceEvents (t : FileTree) (directory : PathName) : List Event :=
  loadEvents t (t.resolvePath directory)

/-- The layout of documents. -/
def documentLayout : Json.Layout := .indented 2

/-- The text of a document on a line of its own. -/
def documentLine (a : Artifact) : Except Ending String :=
  ((a.serialize documentLayout).map (· ++ "\n")).mapError .ofWriting

/-- The line that tells how many models were checked. -/
def checkedLine (count : Nat) : String :=
  if count = 0 then "No model files found.\n"
  else "Checked " ++ toString count ++ " model file(s): all names resolve.\n"

/-- Checks the models below a directory. -/
def checkDirectory (t : FileTree) (directory : PathName) : Outcome :=
  if !t.isThere directory then
    unchanged t [] (.error (.failure ("directory '" ++ directory.text ++ "' does not exist.")))
  else
    unchanged t (workspaceEvents t directory)
      ((workspace t directory).map fun r => checkedLine r.files.length)

/-- Writes the model of a namespace with its references resolved. -/
def resolveNamespace (t : FileTree) (ns : String) (directory : PathName) : Outcome :=
  match workspace t directory with
  | .error ending => unchanged t (workspaceEvents t directory) (.error ending)
  | .ok r =>
    match r.get ns with
    | .error e => unchanged t (workspaceEvents t directory) (.error (.ofRegistry e))
    | .ok file =>
      unchanged t (workspaceEvents t directory ++ resolveEvents r r.settings file.model)
        (((r.resolveModel r.settings true file.model).mapError .ofRegistry).bind fun m =>
          documentLine (.model m))

/-! ### Commands that write files -/

/-- The tree with a document as a file, on a line of its own, and with the directories on the way to
it; of what goes wrong only those directories stay. -/
def writeDocument (t : FileTree) (path : PathName) (layout : Json.Layout) (a : Artifact) :
    FileTree × Option Fault :=
  match t.makeDirectories path.parent with
  | .error e => (t, some (.file e))
  | .ok t =>
    match a.serialize layout with
    | .error e => (t, some (.writing e))
    | .ok text =>
      match t.writeText path (text ++ "\n") with
      | .error e => (t, some (.file e))
      | .ok t => (t, none)

/-- Writes the models below a directory as a document, to a file if one is given. -/
def exportDirectory (t : FileTree) (directory : PathName) (resolveNames validate : Bool)
    (output : Option PathName) : Outcome :=
  match workspace t directory with
  | .error ending => unchanged t (workspaceEvents t directory) (.error ending)
  | .ok r =>
    let events :=
      workspaceEvents t directory ++ exportEvents r r.settings resolveNames validate
    match r.exportAll r.settings resolveNames validate with
    | .error e => unchanged t events (.error (.ofRegistry e))
    | .ok models =>
      match output with
      | none => unchanged t events (documentLine (.models models))
      | some path =>
        match writeDocument t path documentLayout (.models models) with
        | (t, some fault) => ⟨.fault fault, "", events, t⟩
        | (t, none) =>
          ⟨.success,
            "Wrote " ++ toString models.length ++ " model(s) to '" ++ path.text ++ "'.\n",
            events, t⟩

/-- The path of the file for a model in a directory. -/
def modelPath (r : Registry) (directory : PathName) (file : ModelFile) : PathName :=
  directory.below [file.model.ns ++ r.settings.sourceSuffix]

/-- The source text of a model file: the one that it came from, if there is one. -/
def sourceOf (file : ModelFile) : String :=
  match file.source.filter (· ≠ "") with
  | some source => source
  | none => file.model.toSource

/-- Writes model files into a directory, each with a line that tells it. A file that cannot be
written ends this. -/
def writeFiles (r : Registry) (directory : PathName) (t : FileTree) :
    List ModelFile → FileTree × String × Option Fault
  | [] => (t, "", none)
  | file :: files =>
    let path := modelPath r directory file
    match t.writeText path (sourceOf file) with
    | .error e => (t, "", some (.file e))
    | .ok t =>
      let (t, lines, fault) := writeFiles r directory t files
      (t, "Wrote '" ++ path.text ++ "'.\n" ++ lines, fault)

/-- Writes the models of a document as source files into a directory. -/
def importDocument (t : FileTree) (artifact output : PathName) (validate : Bool) : Outcome :=
  match t.readBytes artifact with
  | .error e =>
    unchanged t [] (.error (.failure ("cannot read '" ++ artifact.text ++ "': " ++ e.message)))
  | .ok bytes =>
    match Artifact.ofBytes bytes with
    | .error e => unchanged t [] (.error (.ofDocument e))
    | .ok document =>
      let models := document.toModels
      let events := importEvents .standard validate models
      match importAll .standard validate models with
      | .error e => unchanged t events (.error (.ofRegistry e))
      | .ok r =>
        match t.makeDirectories output with
        | .error e => unchanged t events (.error (.fault (.file e)))
        | .ok t =>
          let (t, lines, fault) := writeFiles r output t r.modelFiles
          ⟨(fault.map Ending.fault).getD .success, lines, events, t⟩

/-! ### Requests -/

/-- What there is to ask for. -/
def helpText : String :=
  "usage: ctoresolve [-h] [-v] COMMAND ...\n\n" ++
    "ctoresolve: name resolution for CTO metamodels\n\n" ++
    "commands:\n" ++
    "  check [DIRECTORY]\n" ++
    "  resolve NAMESPACE [DIRECTORY]\n" ++
    "  export [DIRECTORY] [--resolve] [--no-validate] [-o OUTPUT]\n" ++
    "  import ARTIFACT [-o OUTPUT] [--no-validate]\n" ++
    "  metamodel\n"

/-- The command that is asked for. -/
def Request.run (t : FileTree) : Request → Outcome
  | .help => unchanged t [] (.ok helpText)
  | .check directory => checkDirectory t (.ofString directory)
  | .resolve ns directory => resolveNamespace t ns (.ofString directory)
  | .exportAll directory resolveNames validate output =>
    exportDirectory t (.ofString directory) resolveNames validate (output.map .ofString)
  | .importAll artifact output validate =>
    importDocument t (.ofString artifact) (.ofString output) validate
  | .metamodel => unchanged t [] (.ok metamodelSource)

end Concerto.Command
