import Concerto.Files.PathName

/-!
Patterns of file names.

* `GlobPart`: the parts of a pattern for a name: any characters, any one character, one of a set,
  or a given one;
* `globMatches`: a name matches a pattern;
* `PathPattern`: patterns for the last components of a path.
-/

namespace Concerto

/-! ### Names -/

/-- The parts of a pattern. A set is given by ranges of characters; a negated one is met by the
characters that are in none of them. -/
inductive GlobPart where
  | anyText
  | anyChar
  | oneOf (negated : Bool) (ranges : List (Char × Char))
  | char (c : Char)
  deriving DecidableEq, Repr

/-- The ranges of a set: two characters with a dash between them, or a single one. -/
def globRanges : List Char → List (Char × Char)
  | a :: '-' :: b :: rest => (a, b) :: globRanges rest
  | a :: rest => (a, a) :: globRanges rest
  | [] => []

/-- A given character at the beginning of a text, if it is there, and the text after it. -/
def spanChar (c : Char) : List Char → Bool × List Char
  | d :: cs => if d = c then (true, cs) else (false, d :: cs)
  | [] => (false, [])

theorem spanChar_length (c : Char) (cs : List Char) : (spanChar c cs).2.length ≤ cs.length := by
  cases cs with
  | nil => simp [spanChar]
  | cons d cs => by_cases h : d = c <;> simp [spanChar, h]

/-- The characters of a set up to the bracket that closes it, and what follows that. A bracket
at the beginning is one of the set. -/
def splitSet (cs : List Char) : Option (Bool × List Char × List Char) :=
  let (negated, cs) := spanChar '!' cs
  let (bracket, cs) := spanChar ']' cs
  let inside := cs.takeWhile (· ≠ ']')
  match cs.drop inside.length with
  | _ :: rest => some (negated, (if bracket then [']'] else []) ++ inside, rest)
  | [] => none

theorem splitSet_length {cs rest inside : List Char} {negated : Bool}
    (h : splitSet cs = some (negated, inside, rest)) : rest.length ≤ cs.length := by
  have h1 := spanChar_length '!' cs
  have h2 := spanChar_length ']' (spanChar '!' cs).2
  simp only [splitSet] at h
  split at h
  · rename_i d rest' hd
    simp only [Option.some.injEq, Prod.mk.injEq] at h
    obtain ⟨-, -, rfl⟩ := h
    have := congrArg List.length hd
    simp only [List.length_drop, List.length_cons] at this
    omega
  · cases h

/-- The pattern that a text denotes. A bracket that is not closed stands for itself. -/
def globParts : List Char → List GlobPart
  | [] => []
  | '*' :: cs => .anyText :: globParts cs
  | '?' :: cs => .anyChar :: globParts cs
  | '[' :: cs =>
    match _h : splitSet cs with
    | some (negated, inside, rest) => .oneOf negated (globRanges inside) :: globParts rest
    | none => .char '[' :: globParts cs
  | c :: cs => .char c :: globParts cs
termination_by cs => cs.length
decreasing_by
  · simp
  · simp
  · have := splitSet_length _h
    simp
    omega
  · simp
  · simp

/-- A name matches a pattern. -/
def globMatches : List GlobPart → List Char → Bool
  | [], cs => cs.isEmpty
  | .anyText :: parts, [] => globMatches parts []
  | .anyText :: parts, c :: cs =>
    globMatches parts (c :: cs) || globMatches (.anyText :: parts) cs
  | .anyChar :: parts, _ :: cs => globMatches parts cs
  | .oneOf negated ranges :: parts, c :: cs =>
    (ranges.any (fun r => r.1 ≤ c && c ≤ r.2) != negated) && globMatches parts cs
  | .char d :: parts, c :: cs => c = d && globMatches parts cs
  | _ :: _, [] => false
termination_by parts cs => parts.length + cs.length

/-! ### Paths -/

/-- A pattern for a component of a path, or for any directories. -/
inductive ComponentPattern where
  | directories
  | name (parts : List GlobPart)
  deriving DecidableEq, Repr

/-- Patterns for the last components of a path. A pattern that ends in a slash is met by
directories alone. -/
structure PathPattern where
  components : List ComponentPattern
  directoriesOnly : Bool
  deriving DecidableEq, Repr

/-- A pattern may hold two stars only if they are a whole component. -/
structure PatternError where
  deriving DecidableEq, Repr

/-- The message of the error. -/
def PatternError.message (_ : PatternError) : String :=
  "Invalid pattern: '**' can only be an entire path component"

/-- The text holds two stars side by side. -/
def hasTwoStars : List Char → Bool
  | '*' :: '*' :: _ => true
  | _ :: cs => hasTwoStars cs
  | [] => false

/-- The pattern for a component that a text denotes. -/
def ComponentPattern.ofText (cs : List Char) : Except PatternError ComponentPattern :=
  if cs = ['*', '*'] then .ok .directories
  else if hasTwoStars cs then .error ⟨⟩
  else .ok (.name (globParts cs))

namespace PathPattern

/-- The pattern that a text denotes. -/
def ofText (text : String) : Except PatternError PathPattern := do
  let cs := text.toList
  let components ← (PathName.components cs).mapM fun part => ComponentPattern.ofText part.toList
  return ⟨components, cs.getLast? = some '/'⟩

/-- Components of a path match patterns one by one; two stars stand for any number of
components, but not for the last one, which is a file. -/
def matchComponents : List ComponentPattern → List String → Bool
  | [], parts => parts.isEmpty
  | [.directories], _ => false
  | .directories :: patterns, [] => matchComponents patterns []
  | .directories :: patterns, part :: parts =>
    matchComponents patterns (part :: parts) || matchComponents (.directories :: patterns) parts
  | .name p :: patterns, part :: parts =>
    globMatches p part.toList && matchComponents patterns parts
  | .name _ :: _, [] => false
termination_by patterns parts => patterns.length + parts.length

/-- A file whose path ends in components that match the pattern. -/
def matchesFile (p : PathPattern) (parts : List String) : Bool :=
  !p.directoriesOnly && matchComponents (.directories :: p.components) parts

end PathPattern

end Concerto
