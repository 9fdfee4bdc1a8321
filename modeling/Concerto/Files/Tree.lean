import Concerto.Files.PathName
import Concerto.Text.Quoted

/-!
Trees of files and directories.

* `FileTree`: files and directories under the components that lead to them from the root;
* `FileTree.readBytes`, `FileTree.writeBytes`, `FileTree.makeDirectories`: the operations on one;
* `FileTree.filesBelow`: the files below a directory;
* `FileError`: why an operation fails.
-/

namespace Concerto

/-! ### Errors -/

/-- Why an operation on a file fails. -/
inductive FileFault where
  | noSuchFile
  | alreadyExists
  | notDirectory
  | isDirectory
  deriving DecidableEq, Repr

namespace FileFault

/-- The number of a fault. -/
def number : FileFault → Nat
  | noSuchFile => 2
  | alreadyExists => 17
  | notDirectory => 20
  | isDirectory => 21

/-- The words for a fault. -/
def words : FileFault → String
  | noSuchFile => "No such file or directory"
  | alreadyExists => "File exists"
  | notDirectory => "Not a directory"
  | isDirectory => "Is a directory"

end FileFault

/-- A fault and the path that was asked for. -/
structure FileError where
  fault : FileFault
  path : PathName
  deriving DecidableEq, Repr

/-- The message of an error. -/
def FileError.message (e : FileError) : String :=
  "[Errno " ++ toString e.fault.number ++ "] " ++ e.fault.words ++ ": " ++
    Text.quoted e.path.text

/-! ### Trees -/

/-- What there is at a place. -/
inductive FileEntry where
  | directory
  | file (bytes : ByteArray)

/-- Files and directories under the components that lead to them from the root, and the place
that other paths start at. A directory is there as soon as something is below it. -/
structure FileTree where
  workingDirectory : List String
  entries : List (List String × FileEntry)

namespace FileTree

/-- What there is at a place. -/
def entryAt? (t : FileTree) (place : List String) : Option FileEntry :=
  match t.entries.lookup place with
  | some entry => some entry
  | none =>
    if place = [] || t.entries.any (fun e => place.isPrefixOf e.1) then some .directory else none

/-- The tree with something at a place, instead of what is there. -/
def put (t : FileTree) (place : List String) (entry : FileEntry) : FileTree :=
  { t with entries := t.entries.filter (·.1 ≠ place) ++ [(place, entry)] }

/-- One component further from a directory. -/
def step (t : FileTree) (place : List String) (part : String) : Except FileFault (List String) :=
  match t.entryAt? place with
  | none => .error .noSuchFile
  | some (.file _) => .error .notDirectory
  | some .directory => .ok (if part = ".." then place.dropLast else place ++ [part])

/-- Where a path starts. -/
def startOf (t : FileTree) (p : PathName) : List String :=
  if p.isAbsolute then [] else t.workingDirectory

/-- The place that a path leads to. Every component but the last one has to be there. -/
def locate (t : FileTree) (p : PathName) : Except FileError (List String) :=
  (p.parts.foldlM t.step (t.startOf p)).mapError (⟨·, p⟩)

/-- What there is at a path. -/
def find? (t : FileTree) (p : PathName) : Option FileEntry :=
  match t.locate p with
  | .ok place => t.entryAt? place
  | .error _ => none

/-- There is something at the path. -/
def isThere (t : FileTree) (p : PathName) : Bool := (t.find? p).isSome

/-- There is a directory at the path. -/
def isDirectory (t : FileTree) (p : PathName) : Bool :=
  match t.find? p with
  | some .directory => true
  | _ => false

/-- There is a file at the path. -/
def isFile (t : FileTree) (p : PathName) : Bool :=
  match t.find? p with
  | some (.file _) => true
  | _ => false

/-- The path from the root to where a path leads, whether that is there or not. -/
def resolvePath (t : FileTree) (p : PathName) : PathName :=
  .absolute (p.parts.foldl (fun place part =>
    if part = ".." then place.dropLast else place ++ [part]) (t.startOf p))

/-- The bytes of a file. -/
def readBytes (t : FileTree) (p : PathName) : Except FileError ByteArray := do
  match t.entryAt? (← t.locate p) with
  | some (.file bytes) => return bytes
  | some .directory => throw ⟨.isDirectory, p⟩
  | none => throw ⟨.noSuchFile, p⟩

/-- The tree with a file at a path, instead of a file that is there. -/
def writeBytes (t : FileTree) (p : PathName) (bytes : ByteArray) : Except FileError FileTree := do
  let place ← t.locate p
  match t.entryAt? place with
  | some .directory => throw ⟨.isDirectory, p⟩
  | _ => return t.put place (.file bytes)

/-- The tree with a text as a file at a path. -/
def writeText (t : FileTree) (p : PathName) (text : String) : Except FileError FileTree :=
  t.writeBytes p text.toByteArray

/-- The tree with a directory at a path where nothing is. -/
def makeDirectory (t : FileTree) (p : PathName) : Except FileError FileTree := do
  let place ← t.locate p
  match t.entryAt? place with
  | some _ => throw ⟨.alreadyExists, p⟩
  | none => return t.put place .directory

/-- The tree with a directory at a path, and with the directories on the way to it. A directory
that is there is left as it is. -/
def makeDirectories (t : FileTree) (p : PathName) : Except FileError FileTree :=
  let orThere (t : FileTree) (e : FileError) : Except FileError FileTree :=
    if t.isDirectory p then .ok t else .error e
  match t.makeDirectory p with
  | .ok t => .ok t
  | .error e =>
    if e.fault = .noSuchFile then
      if _h : p.parts = [] then .error e
      else
        match makeDirectories t p.parent with
        | .error e => .error e
        | .ok t =>
          match t.makeDirectory p with
          | .ok t => .ok t
          | .error e => if e.fault = .noSuchFile then .error e else orThere t e
    else orThere t e
termination_by p.parts.length
decreasing_by exact PathName.length_parent_lt _h

/-- The files below a place, by the components that lead from there to them. -/
def filesBelow (t : FileTree) (place : List String) : List (List String) :=
  t.entries.filterMap fun (parts, entry) =>
    match entry with
    | .file _ =>
      if place.isPrefixOf parts && parts ≠ place then some (parts.drop place.length) else none
    | .directory => none

end FileTree

end Concerto
