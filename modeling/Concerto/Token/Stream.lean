import Concerto.Number.Literal
import Concerto.Token.Scan

/-!
Reading a model from its tokens.

* `TokenStream`: the tokens ahead and the place where the text ends;
* `SourceError`: why a text is no model;
* `Parser`: what is read from the tokens ahead, which leaves others ahead or fails;
* `Parser.foldWhile`, `Parser.many`: repetitions, which end with the first token that does not
  continue them.
-/

namespace Concerto

/-! ### Errors -/

/-- What is wrong with tokens that make up no model. -/
inductive GrammarFault where
  | expected (kinds : List TokenKind) (found : String)
  | expectedName (found : String)
  | reservedName (word : String)
  | expectedVersion (found : String)
  | incompleteImport
  | unexpectedArgument (found : String)
  | abstractEnumeration
  | unexpectedAtTopLevel (found : String)
  | duplicateClause (keyword : Keyword)
  | duplicateModifier (keyword : Keyword)
  | modifierNotAllowed (keyword : Keyword) (type : String)
  deriving DecidableEq, Repr

namespace GrammarFault

/-- The words for a fault. -/
def message : GrammarFault → String
  | expected kinds found =>
    "Expected " ++ Text.joined ", " (kinds.map fun k => Text.quoted k.shown) ++ ", got " ++
      Text.quoted found
  | expectedName found => "Expected identifier, got " ++ Text.quoted found
  | reservedName word => "'" ++ word ++ "' is a reserved word and cannot be used as a name"
  | expectedVersion found => "Expected 'version', got " ++ Text.quoted found
  | incompleteImport => "Import must name a namespace and a declaration"
  | unexpectedArgument found =>
    "Unexpected token " ++ Text.quoted found ++ " in decorator arguments"
  | abstractEnumeration => "An enum cannot be abstract"
  | unexpectedAtTopLevel found => "Unexpected token " ++ Text.quoted found ++ " at top level"
  | duplicateClause keyword => "Duplicate '" ++ keyword.text ++ "' clause"
  | duplicateModifier keyword => "Duplicate '" ++ keyword.text ++ "' modifier"
  | modifierNotAllowed keyword type =>
    "'" ++ keyword.text ++ "' is not allowed on a property of type " ++ type

end GrammarFault

/-- A fault and the place of the token it was found at. -/
structure GrammarError where
  fault : GrammarFault
  place : Place
  deriving DecidableEq, Repr

/-- The message of a fault begins with its place. -/
def GrammarError.message (e : GrammarError) : String :=
  e.place.describe ++ ": " ++ e.fault.message

/-- Why a text is no model: it has no tokens, its tokens make up none, or one of its numbers has
no value. -/
inductive SourceError where
  | lexical (error : LexicalError)
  | grammar (error : GrammarError)
  | number (error : NumberError)
  deriving DecidableEq, Repr

/-- The message of an error. -/
def SourceError.message : SourceError → String
  | lexical e => e.message
  | grammar e => e.message
  | number e => e.message

/-! ### Streams -/

/-- The tokens ahead, and the place where the text ends. -/
structure TokenStream where
  ahead : List Token
  stop : Place
  deriving DecidableEq, Repr

namespace TokenStream

/-- The next token; past the last one it is the end of the text. -/
def current (s : TokenStream) : Token := s.ahead.head?.getD ⟨.eof, "", s.stop⟩

/-- The stream without its next token. -/
def tail (s : TokenStream) : TokenStream := { s with ahead := s.ahead.tail }

/-- The stream of a text. -/
def ofSource (source : String) : Except LexicalError TokenStream := do
  let (tokens, stop) ← scanTokens .start .start source.toList
  return ⟨tokens, stop⟩

end TokenStream

/-- A reader of tokens. -/
abbrev Parser := StateT TokenStream (Except SourceError)

namespace Parser

/-- The next token, which stays ahead. -/
def peek : Parser Token := do return (← get).current

/-- The next token is of a kind. -/
def nextIs (kind : TokenKind) : Parser Bool := do return (← peek).kind = kind

/-- Takes the next token. -/
def advance : Parser Token := do
  let token ← peek
  modify TokenStream.tail
  return token

/-- Fails at a token. -/
def failAt {α : Type} (token : Token) (fault : GrammarFault) : Parser α :=
  throw (.grammar ⟨fault, token.place⟩)

/-- Takes the next token, which has to be of one of some kinds. -/
def expect (kinds : List TokenKind) : Parser Token := do
  let token ← peek
  if kinds.contains token.kind then advance
  else failAt token (.expected kinds token.value)

/-- Takes a symbol. -/
def symbol (s : Symbol) : Parser Unit := do
  let _ ← expect [.symbol s]

/-- Takes a symbol if it is next, and tells whether it was. -/
def takeSymbol (s : Symbol) : Parser Bool := do
  if ← nextIs (.symbol s) then
    let _ ← advance
    return true
  else return false

/-- Takes a keyword if it is next, and tells whether it was. -/
def takeKeyword (k : Keyword) : Parser Bool := do
  if ← nextIs (.keyword k) then
    let _ ← advance
    return true
  else return false

/-- The value of a number token. -/
def numberValue {α : Type} (value : Except NumberError α) : Parser α :=
  match value with
  | .ok a => return a
  | .error e => throw (.number e)

/-- Repeats a step as long as the state and the next token call for it. A step that takes no
token ends the repetition. -/
def foldWhile {σ : Type} (continues : σ → TokenKind → Bool) (step : σ → Parser σ) (s : σ) :
    Parser σ := fun stream =>
  if continues s stream.current.kind then
    match step s stream with
    | .error e => .error e
    | .ok (s, stream') =>
      if stream'.ahead.length < stream.ahead.length then foldWhile continues step s stream'
      else .ok (s, stream')
  else .ok (s, stream)
termination_by stream => stream.ahead.length

/-- Repeats an item as long as the next token calls for one. An item that takes no token ends
the repetition. -/
def many {α : Type} (continues : TokenKind → Bool) (item : Parser α) : Parser (List α) :=
  fun stream =>
  if continues stream.current.kind then
    match item stream with
    | .error e => .error e
    | .ok (a, stream') =>
      if stream'.ahead.length < stream.ahead.length then
        match many continues item stream' with
        | .error e => .error e
        | .ok (as, stream') => .ok (a :: as, stream')
      else .ok ([a], stream')
  else .ok ([], stream)
termination_by stream => stream.ahead.length

/-- One item or more, each after a symbol but the first. -/
def separatedBy {α : Type} (separator : Symbol) (item : Parser α) : Parser (List α) := do
  let first ← item
  let others ← many (· = .symbol separator) do
    symbol separator
    item
  return first :: others

end Parser

end Concerto
