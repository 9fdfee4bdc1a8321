import Concerto.Json.Writer
import Concerto.Schema.Class
import Concerto.Text.Join

/-!
What a JSON value can have against the metamodel.

* `Problem`: what is wrong with a value;
* `Violation`: a problem and where it is, as the keys and indexes on the way to it;
* `Violation.text`: the two as one line.
-/

namespace Concerto

/-- What is wrong with a value. -/
inductive Problem where
  | missing
  | unknownKey
  | notString
  | notList
  | notNode (expected : NodeClass)
  | wrongClass (expected : NodeClass)
  | notTagged
  | noTag
  | unknownTag (tag : String) (expected : List NodeClass)
  | notIdentifier (name : String)
  | notBoolean
  | unreadableBoolean
  | notInteger
  | unreadableInteger
  | fractionalInteger
  | nonFiniteInteger
  | oversizeInteger
  | notNumber
  | unreadableNumber
  deriving DecidableEq, Repr

namespace Problem

/-- The words for a problem. -/
def message : Problem → String
  | missing => "Field required"
  | unknownKey => "Extra inputs are not permitted"
  | notString => "Input should be a valid string"
  | notList => "Input should be a valid list"
  | notNode expected => "Input should be a valid dictionary or instance of " ++ expected.name
  | wrongClass expected => "Input should be '" ++ expected.tag ++ "'"
  | notTagged => "Input should be a valid dictionary or object to extract fields from"
  | noTag => "Unable to extract tag using discriminator 'class_' | '$class'"
  | unknownTag tag expected =>
    "Input tag '" ++ tag ++ "' found using 'class_' | '$class' does not match any of the " ++
      "expected tags: " ++ Text.joined ", " (expected.map fun c => "'" ++ c.tag ++ "'")
  | notIdentifier name => "Value error, '" ++ name ++ "' is not a valid identifier"
  | notBoolean => "Input should be a valid boolean"
  | unreadableBoolean => "Input should be a valid boolean, unable to interpret input"
  | notInteger => "Input should be a valid integer"
  | unreadableInteger =>
    "Input should be a valid integer, unable to parse string as an integer"
  | fractionalInteger =>
    "Input should be a valid integer, got a number with a fractional part"
  | nonFiniteInteger => "Input should be a finite number"
  | oversizeInteger => "Unable to parse input string as an integer, exceeded maximum size"
  | notNumber => "Input should be a valid number"
  | unreadableNumber => "Input should be a valid number, unable to parse string as a number"

end Problem

/-- A problem, and the keys and indexes that lead to it. -/
structure Violation where
  path : List String
  problem : Problem
  deriving DecidableEq, Repr

/-- A violation on one line; the value as a whole is the root. -/
def Violation.text (v : Violation) : String :=
  let place := Text.joined "." v.path
  (if place.isEmpty then "<root>" else place) ++ ": " ++ v.problem.message

mutual

/-- A value as messages show it inside another: a string is quoted. -/
def Json.shownInside : Json → String
  | .string s => Text.quoted s
  | .null => "None"
  | .bool true => "True"
  | .bool false => "False"
  | .int i => String.ofList (Json.writeInt i)
  | .double d => d.text
  | .array items => "[" ++ Text.joined ", " (Json.shownItems items) ++ "]"
  | .object fields => "\x7b" ++ Text.joined ", " (Json.shownFields fields) ++ "\x7d"

/-- The items of a list as messages show them. -/
def Json.shownItems : List Json → List String
  | [] => []
  | item :: items => Json.shownInside item :: Json.shownItems items

/-- The fields of an object as messages show them. -/
def Json.shownFields : List (String × Json) → List String
  | [] => []
  | (key, value) :: fields =>
    (Text.quoted key ++ ": " ++ Json.shownInside value) :: Json.shownFields fields

end

/-- A value as messages show it: a string stands as it is. -/
def Json.shown : Json → String
  | .string s => s
  | value => value.shownInside

end Concerto
