import Concerto.Text.Join

/-!
Names of paths.

* `PathName`: the components of a path, and whether it starts at the root;
* `PathName.ofString`, `PathName.text`: the path that a text names, and its text;
* `splitAt`: a text between separators.
-/

namespace Concerto

/-- The parts of a text between separators; there is one more than there are separators. -/
def splitAt (separator : Char) : List Char → List (List Char)
  | [] => [[]]
  | c :: cs =>
    if c = separator then [] :: splitAt separator cs
    else
      match splitAt separator cs with
      | [] => [[c]]
      | part :: parts => (c :: part) :: parts

/-- A path: what stands before its first component, which is nothing unless the path starts at
the root, and its components. A dot is no component, since it leads nowhere. -/
structure PathName where
  root : String
  parts : List String
  deriving DecidableEq, Repr

namespace PathName

/-- The components in a text. -/
def components (cs : List Char) : List String :=
  ((splitAt '/' cs).filter fun part => part ≠ [] && part ≠ ['.']).map String.ofList

/-- The path that a text names. Two slashes at the beginning are a root of their own. -/
def ofString (text : String) : PathName :=
  let cs := text.toList
  let slashes := (cs.takeWhile (· = '/')).length
  let root := if slashes = 0 then "" else if slashes = 2 then "//" else "/"
  ⟨root, components cs⟩

/-- The text of a path; the path to where one is has a dot. -/
def text (p : PathName) : String :=
  let joined := p.root ++ Text.joined "/" p.parts
  if joined.isEmpty then "." else joined

/-- The path from the root along some components. -/
def absolute (parts : List String) : PathName := ⟨"/", parts⟩

/-- The path starts at the root. -/
def isAbsolute (p : PathName) : Bool := p.root ≠ ""

/-- The path to something below. -/
def below (p : PathName) (parts : List String) : PathName := { p with parts := p.parts ++ parts }

/-- The path without its last component. -/
def parent (p : PathName) : PathName := { p with parts := p.parts.dropLast }

/-- The path with another one after it; one that starts at the root takes its place. -/
def join (p q : PathName) : PathName := if q.isAbsolute then q else p.below q.parts

theorem length_parent_lt {p : PathName} (h : p.parts ≠ []) :
    p.parent.parts.length < p.parts.length := by
  simp only [parent, List.length_dropLast]
  have := List.length_pos_iff.2 h
  omega

example : (ofString "./m//a.cto/").text = "m/a.cto" ∧ (ofString "").text = "." := by decide +kernel

end PathName

end Concerto
