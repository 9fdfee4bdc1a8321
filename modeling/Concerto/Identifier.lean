import Concerto.Text.Letter
import Concerto.Text.Digit

/-!
The names of declarations, properties and enum values.

* `isIdentifierStart`, `isIdentifierPart`: the characters that may begin and continue a name;
* `escapeLength`: the length of a `\uXXXX` escape at the front of a text;
* `isIdentifier`: a text is a name when it is not reserved, its first unit may begin a name, and
  the others may continue one. A unit is an escape or a single character.
-/

namespace Concerto

/-- The words that are no names. -/
def reservedWords : List String := ["null", "true", "false"]

/-- A digit of a `\uXXXX` escape. -/
def isHexDigit (c : Char) : Bool :=
  ('0' ≤ c && c ≤ '9') || ('a' ≤ c && c ≤ 'f') || ('A' ≤ c && c ≤ 'F')

/-- A character that may begin a name. -/
def isIdentifierStart (c : Char) : Bool :=
  c = '$' || c = '_' || Text.isLetter c || Text.isLetterNumber c

/-- The two joiners, which show nothing and may stand inside a name. -/
def isJoiner (c : Char) : Bool := c = '\u200C' || c = '\u200D'

/-- A character that may continue a name. -/
def isIdentifierPart (c : Char) : Bool :=
  isIdentifierStart c || isJoiner c || Text.isDecimalDigit c || Text.isMark c ||
    Text.isConnector c

/-- The characters of an escape and the text after it, if a text begins with an escape. -/
def splitEscape? : List Char → Option (List Char × List Char)
  | '\\' :: 'u' :: a :: b :: c :: d :: rest =>
    if isHexDigit a && isHexDigit b && isHexDigit c && isHexDigit d then
      some (['\\', 'u', a, b, c, d], rest)
    else none
  | _ => none

theorem splitEscape?_append {cs escape rest : List Char}
    (h : splitEscape? cs = some (escape, rest)) : escape ++ rest = cs ∧ escape ≠ [] := by
  fun_cases splitEscape? cs <;> simp_all [splitEscape?]
  obtain ⟨rfl, rfl⟩ := h
  simp

/-- The length of the escape at the front of a text, zero if there is none. -/
def escapeLength (cs : List Char) : Nat :=
  match splitEscape? cs with
  | some (escape, _) => escape.length
  | none => 0

/-- What a name is made of. -/
inductive NameUnit where
  | escape (a b c d : Char)
  | char (c : Char)
  deriving DecidableEq, Repr

namespace NameUnit

/-- The characters of a unit. -/
def chars : NameUnit → List Char
  | escape a b c d => ['\\', 'u', a, b, c, d]
  | char c => [c]

/-- The unit may begin a name. -/
def canStart : NameUnit → Bool
  | escape .. => true
  | char c => isIdentifierStart c

/-- The unit may continue a name. -/
def canContinue : NameUnit → Bool
  | escape .. => true
  | char c => isIdentifierPart c

/-- The units of a text; an escape is taken before a character. -/
def ofChars : List Char → List NameUnit
  | [] => []
  | '\\' :: 'u' :: a :: b :: c :: d :: rest =>
    if isHexDigit a && isHexDigit b && isHexDigit c && isHexDigit d then
      escape a b c d :: ofChars rest
    else char '\\' :: ofChars ('u' :: a :: b :: c :: d :: rest)
  | c :: rest => char c :: ofChars rest

end NameUnit

/-- The units of a name begin and continue as they may. -/
def unitsFormName : List NameUnit → Bool
  | [] => false
  | first :: others => first.canStart && others.all NameUnit.canContinue

/-- The text is a name. -/
def isIdentifier (name : String) : Bool :=
  !reservedWords.contains name && unitsFormName (NameUnit.ofChars name.toList)

theorem isIdentifierPart_of_start {c : Char} (h : isIdentifierStart c = true) :
    isIdentifierPart c = true := by
  simp [isIdentifierPart, h]

example : isIdentifier "Été_9" ∧ isIdentifier "\\u00e9x" ∧ isIdentifier "$" := by decide +kernel

example : ¬ isIdentifier "" ∧ ¬ isIdentifier "9a" ∧ ¬ isIdentifier "null" ∧
    ¬ isIdentifier "\\u12" := by
  decide +kernel

end Concerto
