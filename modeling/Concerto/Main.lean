import Concerto.Command.Run

/-!
The program on the files of a machine.

* `Command.survey`: the files that a request is about, as a tree;
* `Command.store`: the files of a tree that differ from those of another one, written;
* `main`: the command of a command line, between the two.
-/

namespace Concerto.Command

/-! ### Reading files -/

/-- No directory that a path leads to is deeper, since a path has at most 4096 letters. -/
def deepest : Nat := 2048

/-- What is at a place, with the directories below it down to a depth. What cannot be read is not
there. -/
def surveyPlace : Nat → List String → IO (List (List String × FileEntry))
  | depth, place => do
    try
      let path ← IO.FS.realPath (PathName.absolute place).text
      match (← path.metadata).type, depth with
      | .file, _ => return [(place, .file (← IO.FS.readBinFile path))]
      | .dir, 0 => return [(place, .directory)]
      | .dir, depth + 1 =>
        let below ← (← path.readDir).toList.mapM fun entry => do
          match (← entry.path.symlinkMetadata).type with
          | .symlink => surveyPlace 0 (place ++ [entry.fileName])
          | _ => surveyPlace depth (place ++ [entry.fileName])
        return (place, .directory) :: below.flatten
      | _, _ => return []
    catch _ => return []

/-- The paths that a request is about, and how far down below each. -/
def Request.extents : Request → List (PathName × Nat)
  | .help | .metamodel => []
  | .check directory | .resolve _ directory => [(.ofString directory, deepest)]
  | .exportAll directory _ _ output =>
    (.ofString directory, deepest) :: (output.map fun path => (PathName.ofString path, 0)).toList
  | .importAll artifact output _ => [(.ofString artifact, 0), (.ofString output, 1)]

/-- The places on the way along a path, each of which has to be there. -/
def placesAlong (t : FileTree) (p : PathName) : List (List String) :=
  (List.range p.parts.length).map fun n =>
    (t.resolvePath { p with parts := p.parts.take n }).parts

/-- The files that a request is about, as a tree. -/
def survey (request : Request) : IO FileTree := do
  let here := (PathName.ofString (← IO.currentDir).toString).parts
  let t : FileTree := ⟨here, [(here, .directory)]⟩
  request.extents.foldlM (fun t (path, depth) => do
    let along ← (placesAlong t path).mapM (surveyPlace 0)
    let found ← surveyPlace depth (t.resolvePath path).parts
    return (along.flatten ++ found).foldl (fun t (place, entry) => t.put place entry) t) t

/-! ### Writing files -/

/-- Writes what is in a tree and not, or not so, in another one. -/
def store (before after : FileTree) : IO Unit :=
  after.entries.forM fun (place, entry) => do
    let path := (PathName.absolute place).text
    match entry, before.entryAt? place with
    | .directory, none => IO.FS.createDirAll path
    | .directory, some _ => return
    | .file bytes, some (.file old) =>
      if bytes.data ≠ old.data then IO.FS.writeBinFile path bytes
    | .file bytes, _ => IO.FS.writeBinFile path bytes

/-- Runs a command, and gives the number with which the program ends. -/
def perform (invocation : Invocation) : IO UInt32 := do
  let before ← survey invocation.request
  let outcome := invocation.request.run before
  store before outcome.tree
  IO.print outcome.written
  IO.eprint (outcome.errorText invocation.verbose)
  match outcome.ending with
  | .success => return 0
  | .failure _ => return 1
  | .fault fault =>
    IO.eprintln fault.message
    return 1

end Concerto.Command

/-- Runs the command of a command line; one that is not understood is told what there is. -/
def main (arguments : List String) : IO UInt32 :=
  match Concerto.Command.Invocation.ofArguments arguments with
  | .ok invocation => Concerto.Command.perform invocation
  | .error _ => do
    IO.eprint Concerto.Command.helpText
    return 2
