import Concerto.Model.Basic

/-!
Tokens of a model file.

* `TokenKind`: keywords, symbols, literals, names and the end of the file;
* `Place`: a line and a column; `Place.after` moves it past some text;
* `Token`: a kind, its text and its place.
-/

namespace Concerto

/-- The word for a kind of concept. -/
def ConceptKind.word : ConceptKind → String
  | concept => "concept"
  | asset => "asset"
  | participant => "participant"
  | transaction => "transaction"
  | event => "event"

/-- The words with a meaning of their own. -/
inductive Keyword where
  | namespaceKw
  | importKw
  | fromKw
  | abstractKw
  | conceptKw (kind : ConceptKind)
  | enumKw
  | extendsKw
  | identifiedKw
  | byKw
  | propertyKw
  | defaultKw
  | regexKw
  | rangeKw
  | optionalKw
  | trueKw
  | falseKw
  deriving DecidableEq, Repr

namespace Keyword

/-- The keyword as it is written. -/
def text : Keyword → String
  | namespaceKw => "namespace"
  | importKw => "import"
  | fromKw => "from"
  | abstractKw => "abstract"
  | conceptKw kind => kind.word
  | enumKw => "enum"
  | extendsKw => "extends"
  | identifiedKw => "identified"
  | byKw => "by"
  | propertyKw => "o"
  | defaultKw => "default"
  | regexKw => "regex"
  | rangeKw => "range"
  | optionalKw => "optional"
  | trueKw => "true"
  | falseKw => "false"

/-- Every keyword. -/
def all : List Keyword :=
  [namespaceKw, importKw, fromKw, abstractKw, conceptKw .concept, conceptKw .asset,
    conceptKw .participant, conceptKw .transaction, conceptKw .event, enumKw, extendsKw,
    identifiedKw, byKw, propertyKw, defaultKw, regexKw, rangeKw, optionalKw, trueKw, falseKw]

/-- The keyword that a word is. -/
def ofText? (word : String) : Option Keyword := all.find? fun k => k.text = word

/-- Every keyword but the two truth values may also be a name. -/
def canBeName : Keyword → Bool
  | trueKw => false
  | falseKw => false
  | _ => true

theorem mem_all (k : Keyword) : k ∈ all := by
  cases k with
  | conceptKw kind => cases kind <;> decide
  | _ => decide

theorem ofText?_text (k : Keyword) : ofText? k.text = some k := by
  cases k with
  | conceptKw kind => cases kind <;> decide
  | _ => decide

end Keyword

/-- Punctuation. -/
inductive Symbol where
  | openBrace
  | closeBrace
  | openBracket
  | closeBracket
  | openParen
  | closeParen
  | comma
  | dot
  | equals
  | atSign
  | star
  | arrow
  deriving DecidableEq, Repr

namespace Symbol

/-- The symbol as it is written. -/
def text : Symbol → String
  | openBrace => "\x7b"
  | closeBrace => "\x7d"
  | openBracket => "["
  | closeBracket => "]"
  | openParen => "("
  | closeParen => ")"
  | comma => ","
  | dot => "."
  | equals => "="
  | atSign => "@"
  | star => "*"
  | arrow => "-->"

/-- The name of the symbol. -/
def label : Symbol → String
  | openBrace => "LBRACE"
  | closeBrace => "RBRACE"
  | openBracket => "LBRACKET"
  | closeBracket => "RBRACKET"
  | openParen => "LPAREN"
  | closeParen => "RPAREN"
  | comma => "COMMA"
  | dot => "DOT"
  | equals => "EQUALS"
  | atSign => "AT"
  | star => "STAR"
  | arrow => "ARROW"

/-- The symbol that a single character is. -/
def ofChar? : Char → Option Symbol
  | '\x7b' => some openBrace
  | '\x7d' => some closeBrace
  | '[' => some openBracket
  | ']' => some closeBracket
  | '(' => some openParen
  | ')' => some closeParen
  | ',' => some comma
  | '.' => some dot
  | '=' => some equals
  | '@' => some atSign
  | '*' => some star
  | _ => none

theorem text_of_ofChar? {c : Char} {s : Symbol} (h : ofChar? c = some s) :
    s.text = String.singleton c := by
  unfold ofChar? at h
  split at h <;> first | (cases h; rfl) | simp at h

end Symbol

/-- What a token is. -/
inductive TokenKind where
  | keyword (keyword : Keyword)
  | symbol (symbol : Symbol)
  | string
  | integer
  | float
  | regex
  | uri
  | identifier
  | eof
  deriving DecidableEq, Repr

namespace TokenKind

/-- The name of the kind. -/
def label : TokenKind → String
  | keyword k => k.text.map Char.toUpper
  | symbol s => s.label
  | string => "STRING"
  | integer => "INTEGER"
  | float => "FLOAT"
  | regex => "REGEX_LITERAL"
  | uri => "URI"
  | identifier => "IDENTIFIER"
  | eof => "EOF"

/-- The kind as messages show it: a keyword or a symbol by its text, others by their name. -/
def shown : TokenKind → String
  | keyword k => k.text
  | symbol s => s.text
  | kind => kind.label

end TokenKind

/-- A place in a text, both numbers counted from one. -/
structure Place where
  line : Nat
  column : Nat
  deriving DecidableEq, Repr

namespace Place

/-- The beginning of a text. -/
def start : Place := ⟨1, 1⟩

/-- The place after one more character. -/
def next (p : Place) (c : Char) : Place :=
  if c = '\n' then ⟨p.line + 1, 1⟩ else ⟨p.line, p.column + 1⟩

/-- The place after some more text. -/
def after (p : Place) (text : List Char) : Place := text.foldl next p

@[simp] theorem after_nil (p : Place) : p.after [] = p := rfl

@[simp] theorem after_append (p : Place) (s t : List Char) :
    p.after (s ++ t) = (p.after s).after t := List.foldl_append

/-- The words that name a place in a message. -/
def describe (p : Place) : String :=
  "Line " ++ toString p.line ++ ", column " ++ toString p.column

end Place

/-- A token and where it begins. The value is the text of the token, without its quotes and
escapes for a string, and without its first slash for a pattern. -/
structure Token where
  kind : TokenKind
  value : String
  place : Place
  deriving DecidableEq, Repr

end Concerto
