import Concerto.Number.Literal
import Concerto.Number.Shortest
import Concerto.Text.Quoted
import Concerto.Yaml.Node

/-!
The values of YAML nodes. A plain scalar stands for a truth value, a number, a date or nothing if
it is written like one.

* `Value`: the values;
* `Value.ofScalar?`: the value of a scalar;
* `Value.ofNode?`, `Value.ofText?`: the value of a node, and of a document.

The plain scalars that are told apart are the words for truth values and for nothing, whole
numbers to base two, eight, ten, sixteen and sixty, numbers with a point, the words for infinity
and for no number, and dates without a time of day. Three more are no part of the documents spoken
of here: a base without digits after it, such as `0b_` or `0x_`, a day that is in no calendar, such
as `2024-02-30`, and a date with a time of day. The first and the last are taken for strings, the
second for a date.
-/

namespace Concerto.Yaml

/-- A value. A date is kept as it is written. -/
inductive Value where
  | null
  | bool (value : Bool)
  | int (value : Int)
  | double (value : Double)
  | string (value : String)
  | date (text : String)
  | sequence (items : List Value)
  | mapping (fields : List (Value × Value))
  deriving Inhabited

namespace Value

/-! ### Words -/

/-- The words in lower case, with a capital letter, and in upper case. -/
def inThreeCases (words : List String) : List String :=
  words.flatMap fun w => [w, w.capitalize, w.toUpper]

/-- The words for yes. -/
def yesWords : List String := inThreeCases ["yes", "true", "on"]

/-- The words for no. -/
def noWords : List String := inThreeCases ["no", "false", "off"]

/-- The words for nothing. -/
def nullWords : List String := "" :: "~" :: inThreeCases ["null"]

/-! ### Numbers -/

/-- The value of a digit of a base up to sixteen. -/
def digitOf? (base : Nat) (c : Char) : Option Nat := (hexDigit? c).filter (· < base)

/-- The number that digits of a base denote; there is a digit at least. -/
def natOf? (base : Nat) (cs : List Char) : Option Nat := do
  if cs.isEmpty then failure
  let digits ← cs.mapM (digitOf? base)
  return digits.foldl (fun n d => base * n + d) 0

/-- The characters are digits of a base, or underscores. -/
def inBase (base : Nat) (cs : List Char) : Bool :=
  cs.all fun c => c = '_' || (digitOf? base c).isSome

/-- The text without its underscores. -/
def withoutUnderscores (cs : List Char) : List Char := cs.filter (· ≠ '_')

/-- The parts of a text between colons. -/
def colonParts (cs : List Char) : List (List Char) :=
  cs.foldr (fun c parts =>
    if c = ':' then [] :: parts
    else match parts with
      | part :: parts => (c :: part) :: parts
      | [] => [[c]]) [[]]

/-- A place to base sixty: one digit, or two of which the first is below six. -/
def isSixtieth : List Char → Bool
  | [c] => c.isDigit
  | [c, d] => '0' ≤ c && c ≤ '5' && d.isDigit
  | _ => false

/-- The number that its places to base sixty make up. -/
def sexagesimal? (parts : List (List Char)) : Option Nat := do
  let places ← parts.mapM (natOf? 10)
  return places.foldl (fun n d => 60 * n + d) 0

/-- A whole number without its sign: to base two, eight, ten, sixteen or sixty. -/
def magnitude? (cs : List Char) : Option Nat :=
  match cs with
  | '0' :: 'b' :: bits =>
    if !bits.isEmpty && inBase 2 bits then natOf? 2 (withoutUnderscores bits) else none
  | '0' :: 'x' :: digits =>
    if !digits.isEmpty && inBase 16 digits then natOf? 16 (withoutUnderscores digits) else none
  | ['0'] => some 0
  | '0' :: digits =>
    if inBase 8 digits then natOf? 8 (withoutUnderscores ('0' :: digits)) else none
  | first :: _ =>
    if '1' ≤ first && first ≤ '9' then
      match colonParts cs with
      | whole :: places =>
        if inBase 10 whole && places.all isSixtieth then
          sexagesimal? (withoutUnderscores whole :: places)
        else none
      | [] => none
    else none
  | [] => none

/-- A whole number with or without a sign. -/
def int? (cs : List Char) : Option Int :=
  let (negative, cs) := spanSign cs
  (magnitude? cs).map (signed negative)

/-- An exponent with a sign, if there is one. -/
def isExponent : List Char → Bool
  | [] => true
  | e :: sign :: digits =>
    (e = 'e' || e = 'E') && (sign = '+' || sign = '-') && !digits.isEmpty &&
      digits.all Char.isDigit
  | _ => false

/-- The characters are digits or underscores, and the first is a digit. -/
def isWhole : List Char → Bool
  | c :: cs => c.isDigit && inBase 10 cs
  | [] => false

/-- A number with a point is written with digits before it, which may be signed, or after it. -/
def isPointed (cs : List Char) : Bool :=
  let unsigned := (spanSign cs).2
  let whole := unsigned.takeWhile (· ≠ '.')
  match unsigned.drop whole.length with
  | '.' :: rest =>
    let fraction := rest.takeWhile fun c => c.isDigit || c = '_'
    let exponent := rest.drop fraction.length
    isExponent exponent &&
      (isWhole whole || (whole.isEmpty && unsigned.length = cs.length && isWhole fraction))
  | _ => false

/-- A number to base sixty with a point, without its sign. -/
def sexagesimalDouble? (negative : Bool) (cs : List Char) : Option Double :=
  let whole := cs.takeWhile (· ≠ '.')
  let fraction := cs.drop (whole.length + 1)
  match colonParts whole with
  | first :: place :: places =>
    if whole.length < cs.length && isWhole first && (place :: places).all isSixtieth &&
        inBase 10 fraction then do
      let digits := withoutUnderscores fraction
      let n ← sexagesimal? (withoutUnderscores first :: place :: places)
      let part ← if digits.isEmpty then some 0 else natOf? 10 digits
      let scale := Nat.pow 10 digits.length
      return .ofRatio negative (n * scale + part) scale
    else none
  | _ => none

/-- A number with a point, or one of the words for infinity and for what is no number. -/
def double? (text : String) : Option Double :=
  let cs := text.toList
  let (negative, unsigned) := spanSign cs
  if isPointed cs then
    (Decimal.read? Text.asciiDigit? (withoutUnderscores cs)).map Decimal.toDouble
  else if [".inf", ".Inf", ".INF"].contains (String.ofList unsigned) then
    some (.infinite negative)
  else if [".nan", ".NaN", ".NAN"].contains text then some .nan
  else sexagesimalDouble? negative unsigned

/-- A date: the year, the month and the day, between dashes, whether there is such a day or not. -/
def isDate (cs : List Char) : Bool :=
  match cs with
  | [a, b, c, d, '-', e, f, '-', g, h] => [a, b, c, d, e, f, g, h].all Char.isDigit
  | _ => false

/-! ### Values -/

/-- The value of a scalar. A plain `=` and the mark of a merge have none. -/
def ofScalar? (text : String) (plain : Bool) : Option Value :=
  if !plain then some (string text)
  else if yesWords.contains text then some (bool true)
  else if noWords.contains text then some (bool false)
  else if text = "=" || text = "<<" then none
  else if nullWords.contains text then some null
  else
    match double? text, int? text.toList with
    | some d, _ => some (double d)
    | none, some i => some (int i)
    | none, none => some (if isDate text.toList then date text else string text)

/-- The number that a key counts as. Truth values count as one and zero. -/
def number? : Value → Option Double
  | bool b => some (.ofInt (if b then 1 else 0))
  | int i => some (.ofInt i)
  | double d => some d
  | _ => none

/-- Two keys are the same. Numbers are compared by their size, and what is no number is the same
as nothing. -/
def sameKey (a b : Value) : Bool :=
  match a, b with
  | null, null => true
  | string s, string t => s = t
  | date s, date t => s = t
  | int i, int j => i = j
  | a, b =>
    match a.number?, b.number? with
    | some x, some y => x ≠ .nan && (x = y || (x.toInt? = some 0 && y.toInt? = some 0))
    | _, _ => false

/-- The fields with a value put under a key, in the place of the same key or else at the end. -/
def put (key value : Value) : List (Value × Value) → List (Value × Value)
  | [] => [(key, value)]
  | (k, v) :: fields =>
    if k.sameKey key then (k, value) :: fields else (k, v) :: put key value fields

/-- A value that may stand before a colon. -/
def isKey : Value → Bool
  | sequence _ | mapping _ => false
  | _ => true

mutual

/-- The value of a node. -/
def ofNode? : Node → Option Value
  | .scalar text plain => ofScalar? text plain
  | .sequence items => (ofItems? items).map sequence
  | .mapping fields => (ofFields? [] fields).map mapping

/-- The values of nodes. -/
def ofItems? : List Node → Option (List Value)
  | [] => some []
  | item :: items => do
    let value ← ofNode? item
    return value :: (← ofItems? items)

/-- The fields of a mapping, put after those before. -/
def ofFields? (before : List (Value × Value)) : List (Node × Node) → Option (List (Value × Value))
  | [] => some before
  | (key, value) :: fields => do
    let key ← ofNode? key
    if !key.isKey then failure
    let value ← ofNode? value
    ofFields? (put key value before) fields

end

/-- The value of a document; an empty one stands for nothing. -/
def ofText? (text : String) : Option Value := do
  match ← Node.ofText? text with
  | some node => ofNode? node
  | none => return null

/-- A key in words. -/
def keyText : Value → String
  | null => "None"
  | bool true => "True"
  | bool false => "False"
  | int i => toString i
  | double d => d.text
  | string s => s
  | date s => s
  | sequence _ | mapping _ => ""

end Value

end Concerto.Yaml
