import Concerto.Text.Blank
import Concerto.Text.Range

/-!
The lexemes of a YAML document: scalars, indicators, and the beginnings and ends of blocks, which
the indentation tells.

* `Lexeme`: the lexemes;
* `Cursor`: where a text is read, and the blocks and keys that are open there;
* `lexemes?`: the lexemes of a text, if it has any.

Documents are plain: there are no anchors, tags, directives and block scalars. A text that has
some is refused like one with a fault.
-/

namespace Concerto.Yaml

/-- The lexemes. A scalar without quotes is plain. -/
inductive Lexeme where
  | documentStart
  | documentEnd
  | blockSequence
  | blockMapping
  | blockEnd
  | blockEntry
  | flowSequence
  | flowSequenceEnd
  | flowMapping
  | flowMappingEnd
  | flowEntry
  | key
  | value
  | scalar (text : String) (plain : Bool)
  deriving DecidableEq, Repr

/-! ### Characters -/

/-- The character ends a line. -/
def isBreak (c : Char) : Bool :=
  c = '\n' || c = '\r' || c = '\u0085' || c = '\u2028' || c = '\u2029'

/-- What ends a word: white space or the end of the text. -/
def endsWord : Option Char → Bool
  | none => true
  | some c => c = ' ' || c = '\t' || isBreak c

/-- The characters that a document may hold. -/
def documentRanges : Text.CodeTable where
  ranges :=
    [(0x9, 0xA), (0xD, 0xD), (0x20, 0x7E), (0x85, 0x85), (0xA0, 0xD7FF), (0xE000, 0xFFFD),
     (0x10000, 0x10FFFF)]
  ordered := by decide +kernel

/-- The characters that no plain scalar begins with, unless the next one goes on with it. -/
def indicators : List Char := "-?:,[]\x7b\x7d#&*!|>'\"%@`".toList

/-- The brackets and the comma, which end a plain scalar between brackets. -/
def flowIndicators : List Char := ",[]\x7b\x7d".toList

/-- A document marker, three equal characters before the end of a word. -/
def atMarker (c : Char) : List Char → Bool
  | a :: b :: d :: rest => a = c && b = c && d = c && endsWord rest.head?
  | _ => false

/-- A document marker of either kind. -/
def atAnyMarker (cs : List Char) : Bool := atMarker '-' cs || atMarker '.' cs

/-- A line break as it is read, and the number of its characters. -/
def lineBreak : List Char → Option (Char × Nat)
  | '\r' :: '\n' :: _ => some ('\n', 2)
  | c :: _ =>
    if c = '\u2028' || c = '\u2029' then some (c, 1)
    else if isBreak c then some ('\n', 1)
    else none
  | [] => none

/-! ### Reading -/

/-- A scalar that turns out to be a key if a colon follows it: its place among the lexemes, where
it begins, and whether it has to be a key. -/
structure PendingKey where
  place : Nat
  line : Nat
  column : Nat
  offset : Nat
  isRequired : Bool
  deriving DecidableEq, Repr

/-- Where a text is read: what is left of it, the lexemes before, the depth of brackets, the
indentation of the open blocks, the keys that may be pending for each depth, and whether a key may
come next. -/
structure Cursor where
  rest : List Char
  line : Nat
  column : Nat
  offset : Nat
  lexemes : List Lexeme
  depth : Nat
  indent : Int
  outerIndents : List Int
  pending : List (Nat × PendingKey)
  keyAllowed : Bool
  deriving DecidableEq, Repr

/-- A step of reading, which a fault ends. -/
abbrev Reading := StateT Cursor Option

/-- The cursor at the beginning of a text. -/
def Cursor.start (cs : List Char) : Cursor where
  rest := cs
  line := 0
  column := 0
  offset := 0
  lexemes := []
  depth := 0
  indent := -1
  outerIndents := []
  pending := []
  keyAllowed := true

/-- The cursor after one more character. -/
def Cursor.next (c : Cursor) : Cursor :=
  match c.rest with
  | [] => c
  | ch :: rest =>
    let c := { c with rest := rest, offset := c.offset + 1 }
    if isBreak ch && !(ch = '\r' && rest.head? = some '\n') then
      { c with line := c.line + 1, column := 0 }
    else if ch = '\uFEFF' then c
    else { c with column := c.column + 1 }

/-- The cursor after some more characters. -/
def Cursor.skip (c : Cursor) : Nat → Cursor
  | 0 => c
  | n + 1 => c.next.skip n

/-- Takes some characters. -/
def take (n : Nat) : Reading (List Char) := do
  let c ← get
  set (c.skip n)
  return c.rest.take n

/-- Takes the characters at the beginning that satisfy a condition. -/
def takeWhile (p : Char → Bool) : Reading (List Char) := do
  take ((← get).rest.takeWhile p).length

/-- Takes a line break, if there is one. -/
def takeBreak : Reading (Option Char) := do
  match lineBreak (← get).rest with
  | some (c, n) =>
    let _ ← take n
    return some c
  | none => return none

/-- Puts a lexeme after the others. -/
def emit (l : Lexeme) : Reading Unit := modify fun c => { c with lexemes := c.lexemes ++ [l] }

/-- Puts a lexeme at a place among the others. -/
def emitAt (place : Nat) (l : Lexeme) : Reading Unit :=
  modify fun c => { c with lexemes := c.lexemes.take place ++ l :: c.lexemes.drop place }

/-- Whether a key may come next. -/
def allowKey (allowed : Bool) : Reading Unit := modify fun c => { c with keyAllowed := allowed }

/-- Nothing is open between brackets. -/
def inBlock : Reading Bool := do return (← get).depth = 0

/-! ### Blocks and keys -/

/-- Closes the blocks that are indented further than a column. -/
def closeBlocks (column : Int) : List Int → Int → Reading Unit
  | outer :: outers, indent => do
    if column < indent then
      emit .blockEnd
      closeBlocks column outers outer
    else modify fun c => { c with indent := indent, outerIndents := outer :: outers }
  | [], indent => modify fun c => { c with indent := indent, outerIndents := [] }

/-- Closes the blocks that are indented further than a column, unless brackets are open. -/
def unwind (column : Int) : Reading Unit := do
  let c ← get
  if c.depth = 0 then closeBlocks column c.outerIndents c.indent

/-- Opens a block at a column that is indented further than the open ones. -/
def openBlock (column : Nat) (place : Nat) (l : Lexeme) : Reading Unit := do
  let c ← get
  if c.indent < column then
    set { c with indent := column, outerIndents := c.indent :: c.outerIndents }
    emitAt place l

/-- Gives up the key that is pending at the depth of brackets. One that has to be a key is
missing its colon. -/
def dropKey : Reading Unit := do
  let c ← get
  match c.pending.lookup c.depth with
  | some k => if k.isRequired then failure
  | none => pure ()
  set { c with pending := c.pending.filter (·.1 ≠ c.depth) }

/-- Makes a scalar pending that begins here, if a key may come here. -/
def awaitColon : Reading Unit := do
  let c ← get
  if c.keyAllowed then
    dropKey
    let k : PendingKey :=
      ⟨c.lexemes.length, c.line, c.column, c.offset, c.depth = 0 && c.indent = c.column⟩
    modify fun c => { c with pending := (c.depth, k) :: c.pending }

/-- The longest key that a colon may follow. -/
def keyLimit : Nat := 1024

/-- Gives up the keys that a colon can no longer follow. -/
def dropStaleKeys : Reading Unit := do
  let c ← get
  let (fresh, stale) := c.pending.partition fun (_, k) =>
    k.line = c.line && c.offset - k.offset ≤ keyLimit
  if stale.any (·.2.isRequired) then failure
  set { c with pending := fresh }

/-! ### Scalars -/

/-- The length of a plain word. Between brackets it ends at a bracket, a comma or a question
mark. -/
def plainLength (flow : Bool) : List Char → Nat
  | [] => 0
  | c :: cs =>
    let colonEnds := endsWord cs.head? || (flow && flowIndicators.any (cs.head? = some ·))
    if endsWord (some c) || (c = ':' && colonEnds) ||
        (flow && ('?' :: flowIndicators).contains c) then 0
    else plainLength flow cs + 1

/-- Takes spaces and line breaks. A document marker at the beginning of a line ends the scalar,
and then there is no gap. -/
def plainBreaks : Nat → Reading (Option (List Char))
  | 0 => return some []
  | steps + 1 => do
    let _ ← takeWhile (· = ' ')
    match ← takeBreak with
    | none => return some []
    | some b =>
      if atAnyMarker (← get).rest then return none
      else return (← plainBreaks steps).map (b :: ·)

/-- The line breaks of a scalar as its text holds them: a single line feed is a space, and of
several the first is left out. -/
def folded (first : Char) (others : List Char) : List Char :=
  (if first ≠ '\n' then [first] else if others.isEmpty then [' '] else []) ++ others

/-- Takes what stands between two words of a plain scalar; nothing does after its last word. -/
def plainGap : Reading (List Char) := do
  let spaces ← takeWhile (· = ' ')
  match ← takeBreak with
  | none => return spaces
  | some first =>
    allowKey true
    let c ← get
    if atAnyMarker c.rest then return []
    else
      match ← plainBreaks c.rest.length with
      | none => return []
      | some others => return folded first others

/-- Takes the words of a plain scalar, `gap` being what stands before the next one. -/
def plainWords : Nat → List Char → Reading (List Char)
  | 0, _ => return []
  | steps + 1, gap => do
    let c ← get
    let length := plainLength (c.depth ≠ 0) c.rest
    if c.rest.head? = some '#' || length = 0 then return []
    else
      let word ← take length
      allowKey false
      let next ← plainGap
      let c ← get
      if next.isEmpty || (c.depth = 0 && c.column < c.indent + 1) then return gap ++ word
      else return gap ++ word ++ (← plainWords steps next)

/-- The characters that a backslash and a letter stand for. -/
def escapes : List (Char × Char) :=
  [('0', '\x00'), ('a', '\x07'), ('b', '\x08'), ('t', '\t'), ('\t', '\t'), ('n', '\n'),
    ('v', '\x0b'), ('f', '\x0c'), ('r', '\r'), ('e', '\x1b'), (' ', ' '), ('"', '"'),
    ('\\', '\\'), ('/', '/'), ('N', '\u0085'), ('_', '\u00a0'), ('L', '\u2028'),
    ('P', '\u2029')]

/-- The number of hexadecimal digits after a backslash and a letter. -/
def codeLengths : List (Char × Nat) := [('x', 2), ('u', 4), ('U', 8)]

/-- The value of a hexadecimal digit. -/
def hexDigit? (c : Char) : Option Nat :=
  if '0' ≤ c && c ≤ '9' then some (c.toNat - '0'.toNat)
  else if 'a' ≤ c && c ≤ 'f' then some (c.toNat - 'a'.toNat + 10)
  else if 'A' ≤ c && c ≤ 'F' then some (c.toNat - 'A'.toNat + 10)
  else none

/-- Takes a character by its hexadecimal code. -/
def takeCode (length : Nat) : Reading Char := do
  let digits ← take length
  match digits.mapM hexDigit? with
  | none => failure
  | some values =>
    let code := values.foldl (fun n d => 16 * n + d) 0
    if digits.length = length && code.isValidChar then return Char.ofNat code else failure

/-- Takes the line breaks after the first one in quotes, and the white space around them. -/
def quotedBreaks : Nat → Reading (List Char)
  | 0 => return []
  | steps + 1 => do
    if atAnyMarker (← get).rest then failure
    let _ ← takeWhile fun c => c = ' ' || c = '\t'
    match ← takeBreak with
    | some b => return b :: (← quotedBreaks steps)
    | none => return []

/-- Takes what a backslash stands for in double quotes, the backslash being taken. -/
def takeEscape : Reading (List Char) := do
  let c ← get
  match c.rest with
  | [] => failure
  | ch :: _ =>
    match escapes.lookup ch, codeLengths.lookup ch with
    | some e, _ =>
      let _ ← take 1
      return [e]
    | none, some length =>
      let _ ← take 1
      return [← takeCode length]
    | none, none =>
      match ← takeBreak with
      | some _ => quotedBreaks c.rest.length
      | none => failure

/-- Takes a scalar in quotes up to the quote that closes it. -/
def quotedText (quote : Char) : Nat → Reading (List Char)
  | 0 => failure
  | steps + 1 => do
    let c ← get
    match c.rest with
    | [] => failure
    | ch :: rest =>
      if ch = quote then
        if quote = '\'' && rest.head? = some '\'' then
          let _ ← take 2
          return '\'' :: (← quotedText quote steps)
        else
          let _ ← take 1
          return []
      else if quote = '"' && ch = '\\' then
        let _ ← take 1
        let part ← takeEscape
        return part ++ (← quotedText quote steps)
      else if endsWord (some ch) then
        let spaces ← takeWhile fun c => c = ' ' || c = '\t'
        match ← takeBreak with
        | some first =>
          let others ← quotedBreaks c.rest.length
          return folded first others ++ (← quotedText quote steps)
        | none => return spaces ++ (← quotedText quote steps)
      else
        let _ ← take 1
        return ch :: (← quotedText quote steps)

/-! ### Lexemes -/

/-- Takes an indicator of one character. -/
def indicator (l : Lexeme) : Reading Unit := do
  let _ ← take 1
  emit l

/-- Takes a document marker, which closes all blocks. -/
def marker (l : Lexeme) : Reading Unit := do
  unwind (-1)
  dropKey
  allowKey false
  let _ ← take 3
  emit l

/-- Takes a bracket that opens a collection. -/
def openBracket (l : Lexeme) : Reading Unit := do
  awaitColon
  modify fun c => { c with depth := c.depth + 1 }
  allowKey true
  indicator l

/-- Takes a bracket that closes a collection. -/
def closeBracket (l : Lexeme) : Reading Unit := do
  dropKey
  let c ← get
  if c.depth = 0 then failure
  set { c with depth := c.depth - 1 }
  allowKey false
  indicator l

/-- Takes the comma between two items. -/
def comma : Reading Unit := do
  allowKey true
  dropKey
  indicator .flowEntry

/-- Takes an indicator that begins an item or a key of a block. -/
def blockIndicator (block l : Lexeme) (thenKey : Bool) : Reading Unit := do
  let c ← get
  if c.depth = 0 then
    if !c.keyAllowed then failure
    openBlock c.column c.lexemes.length block
  allowKey thenKey
  dropKey
  indicator l

/-- Takes a colon. What is pending becomes a key. -/
def colon : Reading Unit := do
  let c ← get
  match c.pending.lookup c.depth with
  | some k =>
    set { c with pending := c.pending.filter (·.1 ≠ c.depth) }
    emitAt k.place .key
    if c.depth = 0 then openBlock k.column k.place .blockMapping
    allowKey false
    indicator .value
  | none => blockIndicator .blockMapping .value (c.depth = 0)

/-- Takes a scalar in quotes. -/
def quotedScalar (quote : Char) : Reading Unit := do
  awaitColon
  allowKey false
  let _ ← take 1
  let text ← quotedText quote ((← get).rest.length + 1)
  emit (.scalar (String.ofList text) false)

/-- Takes a plain scalar. -/
def plainScalar : Reading Unit := do
  awaitColon
  allowKey false
  let text ← plainWords ((← get).rest.length + 1) []
  emit (.scalar (String.ofList text) true)

/-- A plain scalar begins here. -/
def startsPlain (flow : Bool) : List Char → Bool
  | [] => false
  | c :: cs =>
    if endsWord (some c) then false
    else if indicators.contains c then
      !endsWord cs.head? && (c = '-' || (!flow && (c = '?' || c = ':')))
    else true

/-- Skips white space and comments. A key may follow a line break, unless brackets are open. -/
def skipBlanks : Nat → Reading Unit
  | 0 => return
  | steps + 1 => do
    let _ ← takeWhile (· = ' ')
    if (← get).rest.head? = some '#' then
      let _ ← takeWhile fun c => !isBreak c
    match ← takeBreak with
    | some _ =>
      if ← inBlock then allowKey true
      skipBlanks steps
    | none => return

/-- Takes the next lexeme, before which blocks may end. -/
def nextLexeme : Reading Unit := do
  let c ← get
  let flow := c.depth ≠ 0
  let wordEnds := endsWord (c.rest.drop 1).head?
  match c.rest with
  | [] => failure
  | ch :: _ =>
    if c.column = 0 && ch = '%' then failure
    else if c.column = 0 && atMarker '-' c.rest then marker .documentStart
    else if c.column = 0 && atMarker '.' c.rest then marker .documentEnd
    else if ch = '[' then openBracket .flowSequence
    else if ch = '\x7b' then openBracket .flowMapping
    else if ch = ']' then closeBracket .flowSequenceEnd
    else if ch = '\x7d' then closeBracket .flowMappingEnd
    else if ch = ',' then comma
    else if ch = '-' && wordEnds then blockIndicator .blockSequence .blockEntry true
    else if ch = '?' && (flow || wordEnds) then blockIndicator .blockMapping .key (!flow)
    else if ch = ':' && (flow || wordEnds) then colon
    else if ch = '\'' || ch = '"' then quotedScalar ch
    else if startsPlain flow c.rest then plainScalar
    else failure

/-- Takes the lexemes up to the end of the text, at which all blocks end. -/
def allLexemes : Nat → Reading Unit
  | 0 => failure
  | steps + 1 => do
    skipBlanks (← get).rest.length
    dropStaleKeys
    unwind (← get).column
    if (← get).rest.isEmpty then
      unwind (-1)
      dropKey
    else
      nextLexeme
      allLexemes steps

/-- The lexemes of a text, if it has any. A byte order mark at its beginning does not count. -/
def lexemes? (text : String) : Option (List Lexeme) :=
  let cs := text.toList
  if cs.all documentRanges.contains then
    let cs := if cs.head? = some '\uFEFF' then cs.drop 1 else cs
    ((allLexemes (cs.length + 1)).run (.start cs)).map fun (_, c) => c.lexemes
  else none

end Concerto.Yaml
