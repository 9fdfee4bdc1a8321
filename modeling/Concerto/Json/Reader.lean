import Concerto.Entries
import Concerto.Json.Value
import Concerto.Number.Literal

/-!
Reading JSON text. The reader also accepts the words `NaN`, `Infinity` and `-Infinity`, and the
last of several values under one key counts.

* `Json.read`: the value of a text, or what is wrong with it and where;
* `Json.Fault`: what is wrong;
* `Json.ReadError.message`: the fault with its line, its column and its offset.

The reader works on the characters that are left, and a fault is reported with these, so that
its offset is what the text has more.

Strings are made of characters. An escape for half of a pair of code units that stands on its own
denotes none: no file could hold it, and a text with such an escape is refused.
-/

namespace Concerto.Json

/-- What can be wrong with a JSON text. -/
inductive Fault where
  | byteOrderMark
  | expectingValue
  | expectingName
  | expectingColon
  | expectingComma
  | extraData
  | unterminatedString
  | controlCharacter
  | invalidEscape
  | invalidUnicodeEscape
  | halfPair
  deriving DecidableEq, Repr

/-- The words for a fault. -/
def Fault.message : Fault → String
  | byteOrderMark => "Unexpected UTF-8 BOM (decode using utf-8-sig)"
  | expectingValue => "Expecting value"
  | expectingName => "Expecting property name enclosed in double quotes"
  | expectingColon => "Expecting ':' delimiter"
  | expectingComma => "Expecting ',' delimiter"
  | extraData => "Extra data"
  | unterminatedString => "Unterminated string starting at"
  | controlCharacter => "Invalid control character at"
  | invalidEscape => "Invalid \\escape"
  | invalidUnicodeEscape => "Invalid \\uXXXX escape"
  | halfPair => "Half of a surrogate pair in the string starting at"

/-- Why a text could not be read while `rest` was left of it. -/
inductive Failure where
  | fault (fault : Fault) (rest : List Char)
  | number (error : NumberError)
  deriving DecidableEq, Repr

/-- The characters between the parts of a JSON text. -/
def isSpace (c : Char) : Bool := c = ' ' || c = '\t' || c = '\n' || c = '\r'

/-- The text after the spaces at its front. -/
def skipSpaces (cs : List Char) : List Char := cs.dropWhile isSpace

/-- The value of a hexadecimal digit of either case. -/
def hexValue? (c : Char) : Option Nat :=
  if '0' ≤ c ∧ c ≤ '9' then some (c.toNat - 0x30)
  else if 'a' ≤ c ∧ c ≤ 'f' then some (c.toNat - 0x57)
  else if 'A' ≤ c ∧ c ≤ 'F' then some (c.toNat - 0x37)
  else none

/-- The number that four hexadecimal digits denote. -/
def hexNumber? (a b c d : Char) : Option Nat := do
  return 0x1000 * (← hexValue? a) + 0x100 * (← hexValue? b) + 0x10 * (← hexValue? c) +
    (← hexValue? d)

/-- What a backslash and one other character stand for inside a string. -/
def escaped? : Char → Option Char
  | '"' => some '"'
  | '\\' => some '\\'
  | '/' => some '/'
  | 'b' => some '\x08'
  | 'f' => some '\x0c'
  | 'n' => some '\n'
  | 'r' => some '\r'
  | 't' => some '\t'
  | _ => none

/-- The code units up to the closing quote of a string whose opening quote begins `start`. A
`\u` escape needs a character after its digits, since the closing quote is still to come. -/
def readUnits (start : List Char) : List Char → Except Failure (List Nat × List Char)
  | [] => .error (.fault .unterminatedString start)
  | '"' :: rest => .ok ([], rest)
  | '\\' :: [] => .error (.fault .unterminatedString start)
  | '\\' :: 'u' :: a :: b :: c :: d :: next :: rest =>
    match hexNumber? a b c d with
    | some n => do
      let (units, rest) ← readUnits start (next :: rest)
      return (n :: units, rest)
    | none =>
      .error (.fault .invalidUnicodeEscape ('u' :: a :: b :: c :: d :: next :: rest))
  | '\\' :: 'u' :: rest => .error (.fault .invalidUnicodeEscape ('u' :: rest))
  | '\\' :: e :: rest =>
    match escaped? e with
    | some c => do
      let (units, rest) ← readUnits start rest
      return (c.toNat :: units, rest)
    | none => .error (.fault .invalidEscape ('\\' :: e :: rest))
  | c :: rest =>
    if c.toNat < 0x20 then .error (.fault .controlCharacter (c :: rest))
    else do
      let (units, rest) ← readUnits start rest
      return (c.toNat :: units, rest)

/-- The first half of a pair of code units. -/
def isHighSurrogate (n : Nat) : Bool := 0xD800 ≤ n && n ≤ 0xDBFF

/-- The second half of a pair of code units. -/
def isLowSurrogate (n : Nat) : Bool := 0xDC00 ≤ n && n ≤ 0xDFFF

/-- The character of a code unit; half of a pair on its own is none. -/
def unitChar? (n : Nat) : Option Char :=
  if isHighSurrogate n || isLowSurrogate n then none else some (Char.ofNat n)

/-- The characters of code units, a pair of halves making one character. -/
def joinUnits : List Nat → Option (List Char)
  | [] => some []
  | [n] => do return [← unitChar? n]
  | high :: low :: rest =>
    if isHighSurrogate high && isLowSurrogate low then do
      let c := Char.ofNat (0x10000 + 0x400 * (high - 0xD800) + (low - 0xDC00))
      return c :: (← joinUnits rest)
    else do return (← unitChar? high) :: (← joinUnits (low :: rest))

/-- The string whose opening quote begins `start` and is followed by `rest`. -/
def readString (start rest : List Char) : Except Failure (String × List Char) := do
  let (units, rest) ← readUnits start rest
  match joinUnits units with
  | some cs => return (String.ofList cs, rest)
  | none => throw (.fault .halfPair start)

/-- The whole part of a number, without superfluous zeros, and the text after it. -/
def spanWhole : List Char → Option (List Nat × List Char)
  | '0' :: rest => some ([0], rest)
  | cs =>
    match spanDigits Text.asciiDigit? cs with
    | ([], _) => none
    | found => some found

/-- The digits after a point, if both are there. -/
def spanFraction : List Char → Option (List Nat × List Char)
  | '.' :: rest =>
    match spanDigits Text.asciiDigit? rest with
    | ([], _) => none
    | found => some found
  | _ => none

/-- The exponent at the front of a text, if there is a complete one. -/
def spanExponent : List Char → Option (Int × List Char)
  | c :: rest =>
    if c = 'e' ∨ c = 'E' then
      let (negative, rest) := spanSign rest
      match spanDigits Text.asciiDigit? rest with
      | ([], _) => none
      | (digits, rest) => some (signed negative (ofDigits digits), rest)
    else none
  | [] => none

/-- The number at the front of a text. It ends where it can go no further: a point without
digits after it, or an `e` without, is left to what follows. -/
def readNumber (cs : List Char) : Except Failure (Json × List Char) :=
  let (negative, unsigned) :=
    match cs with
    | '-' :: rest => (true, rest)
    | _ => (false, cs)
  match spanWhole unsigned with
  | none => .error (.fault .expectingValue cs)
  | some (whole, rest) =>
    match spanFraction rest with
    | some (fraction, rest) =>
      let (exponent, rest) := (spanExponent rest).getD (0, rest)
      let d : Decimal :=
        ⟨negative, ofDigits (whole ++ fraction), exponent - fraction.length⟩
      .ok (.double d.toDouble, rest)
    | none =>
      match spanExponent rest with
      | some (exponent, rest) =>
        let d : Decimal := ⟨negative, ofDigits whole, exponent⟩
        .ok (.double d.toDouble, rest)
      | none =>
        if integerDigitLimit < whole.length then .error (.number (.tooManyDigits whole.length))
        else .ok (.int (signed negative (ofDigits whole)), rest)

/-- The words that stand for a value. -/
def words : List (List Char × Json) :=
  [("null".toList, .null), ("true".toList, .bool true), ("false".toList, .bool false),
    ("NaN".toList, .double .nan), ("Infinity".toList, .double (.infinite false)),
    ("-Infinity".toList, .double (.infinite true))]

/-- The word at the front of a text, with its value. -/
def readWord? (cs : List Char) : Option (Json × List Char) :=
  words.findSome? fun (word, value) =>
    if word.isPrefixOf cs then some (value, cs.drop word.length) else none

mutual

/-- The value at the front of a text that begins without spaces. A value within a value is two
steps away from it and one character on, so two steps for each character are enough. -/
def readValue : Nat → List Char → Except Failure (Json × List Char)
  | 0, cs => .error (.fault .expectingValue cs)
  | steps + 1, cs =>
    match cs with
    | '"' :: rest => do
      let (s, rest) ← readString cs rest
      return (.string s, rest)
    | '\x7b' :: rest =>
      match skipSpaces rest with
      | '\x7d' :: rest => .ok (.object [], rest)
      | rest => do
        let (fields, rest) ← readFields steps [] rest
        return (.object fields, rest)
    | '[' :: rest =>
      match skipSpaces rest with
      | ']' :: rest => .ok (.array [], rest)
      | rest => do
        let (items, rest) ← readItems steps rest
        return (.array items, rest)
    | cs =>
      match readWord? cs with
      | some found => .ok found
      | none => readNumber cs

/-- The items of an array up to its closing bracket, of which there is one at least. -/
def readItems : Nat → List Char → Except Failure (List Json × List Char)
  | 0, cs => .error (.fault .expectingValue cs)
  | steps + 1, cs => do
    let (item, rest) ← readValue steps cs
    match skipSpaces rest with
    | ']' :: rest => return ([item], rest)
    | ',' :: rest =>
      let (items, rest) ← readItems steps (skipSpaces rest)
      return (item :: items, rest)
    | rest => throw (.fault .expectingComma rest)

/-- The fields of an object up to its closing brace, of which there is one at least, put after
those that were read before. -/
def readFields : Nat → List (String × Json) → List Char →
    Except Failure (List (String × Json) × List Char)
  | 0, _, cs => .error (.fault .expectingName cs)
  | steps + 1, before, cs =>
    match cs with
    | '"' :: rest => do
      let (key, rest) ← readString cs rest
      match skipSpaces rest with
      | ':' :: rest =>
        let (value, rest) ← readValue steps (skipSpaces rest)
        let fields := Entries.set key value before
        match skipSpaces rest with
        | '\x7d' :: rest => return (fields, rest)
        | ',' :: rest => readFields steps fields (skipSpaces rest)
        | rest => throw (.fault .expectingComma rest)
      | rest => throw (.fault .expectingColon rest)
    | cs => .error (.fault .expectingName cs)

end

/-- The value that makes up a whole text, spaces around it apart. -/
def readAll (cs : List Char) : Except Failure Json :=
  match cs with
  | '\uFEFF' :: _ => .error (.fault .byteOrderMark cs)
  | _ => do
    let (value, rest) ← readValue (2 * cs.length + 1) (skipSpaces cs)
    match skipSpaces rest with
    | [] => return value
    | rest => throw (.fault .extraData rest)

/-- A fault with the line that it is in, its column there, and the number of characters before
it. -/
structure PlacedFault where
  fault : Fault
  line : Nat
  column : Nat
  offset : Nat
  deriving DecidableEq, Repr

/-- The message of a fault names its place. -/
def PlacedFault.message (f : PlacedFault) : String :=
  f.fault.message ++ ": line " ++ toString f.line ++ " column " ++ toString f.column ++
    " (char " ++ toString f.offset ++ ")"

/-- Why a text is no JSON value: a fault, or a number that cannot be read. -/
inductive ReadError where
  | fault (fault : PlacedFault)
  | number (error : NumberError)
  deriving DecidableEq, Repr

/-- The message of an error. -/
def ReadError.message : ReadError → String
  | fault f => f.message
  | number error => error.message

/-- The fault of a text of which `rest` is left. -/
def Failure.locate (text : List Char) : Failure → ReadError
  | fault f rest =>
    let offset := text.length - rest.length
    let before := text.take offset
    let column := (before.reverse.takeWhile (· ≠ '\n')).length + 1
    .fault ⟨f, before.count '\n' + 1, column, offset⟩
  | number error => .number error

/-- The JSON value of a text. -/
def read (text : String) : Except ReadError Json :=
  (readAll text.toList).mapError (Failure.locate text.toList)

end Concerto.Json
