import Concerto.Yaml.Lexeme

/-!
The nodes of a YAML document.

* `Node`: scalars, sequences and mappings as they are written;
* `Node.ofText?`: the node of a text, which holds one document at most.
-/

namespace Concerto.Yaml

/-- A node as it is written. -/
inductive Node where
  | scalar (text : String) (plain : Bool)
  | sequence (items : List Node)
  | mapping (fields : List (Node × Node))
  deriving Inhabited

namespace Node

/-- The node that stands where nothing is written. -/
def missing : Node := scalar "" true

/-- What is read from the lexemes ahead; a fault is no result. -/
abbrev Reader := StateT (List Lexeme) Option

/-- The next lexeme is one of some. -/
def nextIn (ls : List Lexeme) : Reader Bool := do
  return (← get).head?.any ls.contains

/-- Takes the next lexeme if it is a given one. -/
def accept (l : Lexeme) : Reader Bool := do
  match ← get with
  | next :: rest => if next = l then set rest; return true else return false
  | [] => return false

/-- Takes a lexeme, which has to be next. -/
def expect (l : Lexeme) : Reader Unit := do
  if !(← accept l) then failure

mutual

/-- Takes a node. Blocks are left out between brackets, and a sequence without indentation is
left out unless it is the value of a key. -/
def read (steps : Nat) (block indentless : Bool) : Reader Node :=
  match steps with
  | 0 => failure
  | steps + 1 => do
    match ← get with
    | .scalar text plain :: rest =>
      set rest
      return scalar text plain
    | .flowSequence :: rest =>
      set rest
      return sequence (← readFlowItems steps true)
    | .flowMapping :: rest =>
      set rest
      return mapping (← readFlowFields steps true)
    | .blockSequence :: rest =>
      if !block then failure
      set rest
      let items ← readBlockItems steps
      expect .blockEnd
      return sequence items
    | .blockMapping :: rest =>
      if !block then failure
      set rest
      return mapping (← readBlockFields steps)
    | .blockEntry :: _ =>
      if !indentless then failure
      return sequence (← readIndentlessItems steps)
    | _ => failure

/-- Takes a node, unless one of some lexemes is next. -/
def readUnless (steps : Nat) (ends : List Lexeme) (block indentless : Bool) : Reader Node :=
  match steps with
  | 0 => failure
  | steps + 1 => do
    if ← nextIn ends then return missing else read steps block indentless

/-- Takes the items of a sequence of its own indentation. -/
def readBlockItems (steps : Nat) : Reader (List Node) :=
  match steps with
  | 0 => failure
  | steps + 1 => do
    if ← accept .blockEntry then
      let item ← readUnless steps [.blockEntry, .blockEnd] true false
      return item :: (← readBlockItems steps)
    else return []

/-- Takes the items of a sequence that is indented like the key it belongs to. -/
def readIndentlessItems (steps : Nat) : Reader (List Node) :=
  match steps with
  | 0 => failure
  | steps + 1 => do
    if ← accept .blockEntry then
      let item ← readUnless steps [.blockEntry, .key, .value, .blockEnd] true false
      return item :: (← readIndentlessItems steps)
    else return []

/-- Takes the fields of a mapping by lines, and its end. -/
def readBlockFields (steps : Nat) : Reader (List (Node × Node)) :=
  match steps with
  | 0 => failure
  | steps + 1 => do
    if ← accept .key then
      let ends := [.key, .value, .blockEnd]
      let key ← readUnless steps ends true true
      let value ← if ← accept .value then readUnless steps ends true true else pure missing
      return (key, value) :: (← readBlockFields steps)
    else
      expect .blockEnd
      return []

/-- Takes the items of a sequence in brackets, and the closing one. A pair with a colon is a
mapping of its own. -/
def readFlowItems (steps : Nat) (first : Bool) : Reader (List Node) :=
  match steps with
  | 0 => failure
  | steps + 1 => do
    if ← accept .flowSequenceEnd then return []
    if !first then expect .flowEntry
    if ← accept .flowSequenceEnd then return []
    if ← accept .key then
      let key ← readUnless steps [.value, .flowEntry, .flowSequenceEnd] false false
      let value ← if ← accept .value then
          readUnless steps [.flowEntry, .flowSequenceEnd] false false
        else pure missing
      return mapping [(key, value)] :: (← readFlowItems steps false)
    else
      let item ← read steps false false
      return item :: (← readFlowItems steps false)

/-- Takes the fields of a mapping in braces, and the closing one. A key without a colon has no
value. -/
def readFlowFields (steps : Nat) (first : Bool) : Reader (List (Node × Node)) :=
  match steps with
  | 0 => failure
  | steps + 1 => do
    if ← accept .flowMappingEnd then return []
    if !first then expect .flowEntry
    if ← accept .flowMappingEnd then return []
    if ← accept .key then
      let key ← readUnless steps [.value, .flowEntry, .flowMappingEnd] false false
      let value ← if ← accept .value then
          readUnless steps [.flowEntry, .flowMappingEnd] false false
        else pure missing
      return (key, value) :: (← readFlowFields steps false)
    else
      let key ← read steps false false
      return (key, missing) :: (← readFlowFields steps false)

end

/-- Skips the ends of documents. -/
def skipEnds : Reader Unit := modify fun ls => ls.dropWhile (· = .documentEnd)

/-- Takes a document, after which nothing may follow. A text without lexemes has none. -/
def readDocument (steps : Nat) : Reader (Option Node) := do
  if (← get).isEmpty then return none
  let ends := [.documentStart, .documentEnd]
  let marked ← accept .documentStart
  let node ←
    if marked && ((← get).isEmpty || (← nextIn ends)) then pure missing else read steps true false
  skipEnds
  if (← get).isEmpty then return some node else failure

/-- The node of a text, if it has any. No node is read from a text that holds no document. -/
def ofText? (text : String) : Option (Option Node) := do
  let ls ← lexemes? text
  (readDocument (2 * ls.length + 2)).run' ls

end Node

end Concerto.Yaml
