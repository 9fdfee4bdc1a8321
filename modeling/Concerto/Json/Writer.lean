import Concerto.Json.Value
import Concerto.Number.Literal
import Concerto.Number.Shortest
import Concerto.Text.Quoted

/-!
Writing JSON text, on one line without spaces or with the parts on lines of their own.

* `Json.Layout`: compact, or indented by a number of spaces for each level;
* `Json.write`: the text of a value, unless a whole number in it has too many digits;
* `Json.WriteError`: why a value has no text.

`Json.writeValue` puts the characters together for whole numbers of any size, and `Json.write` looks
at these before: no text is begun that cannot be ended.
-/

namespace Concerto.Json

/-- How the parts of a value are laid out. -/
inductive Layout where
  | compact
  | indented (width : Nat)
  deriving DecidableEq, Repr

/-- A character inside a string: quotes, backslashes and control characters are escaped, and
every other character stands for itself. -/
def writeChar (c : Char) : List Char :=
  if c = '"' then ['\\', '"']
  else if c = '\\' then ['\\', '\\']
  else if c = '\n' then ['\\', 'n']
  else if c = '\r' then ['\\', 'r']
  else if c = '\t' then ['\\', 't']
  else if c = '\x0c' then ['\\', 'f']
  else if c = '\x08' then ['\\', 'b']
  else if c.toNat < 0x20 then '\\' :: 'u' :: Text.hexDigits 4 c.toNat
  else [c]

/-- A string between double quotes. -/
def writeString (s : String) : List Char :=
  '"' :: s.toList.flatMap writeChar ++ ['"']

/-- A double; those that are not finite are written as words. -/
def writeDouble : Double → List Char
  | .nan => "NaN".toList
  | .infinite false => "Infinity".toList
  | .infinite true => "-Infinity".toList
  | .finite negative units h => Double.finiteText negative units h

/-- A whole number in decimal digits. -/
def writeInt (i : Int) : List Char :=
  (if i < 0 then ['-'] else []) ++ Decimal.digitsOf i.natAbs

/-- What stands before an item at a level, and before the bracket that closes the level above. -/
def Layout.lineBreak (layout : Layout) (level : Nat) : List Char :=
  match layout with
  | compact => []
  | indented width => '\n' :: List.replicate (level * width) ' '

/-- What stands between a key and its value. -/
def Layout.colon : Layout → List Char
  | compact => [':']
  | indented _ => [':', ' ']

mutual

/-- The text of a value at a level. -/
def writeValue (layout : Layout) (level : Nat) : Json → List Char
  | .null => "null".toList
  | .bool true => "true".toList
  | .bool false => "false".toList
  | .int i => writeInt i
  | .double d => writeDouble d
  | .string s => writeString s
  | .array [] => ['[', ']']
  | .array (item :: items) =>
    '[' :: layout.lineBreak (level + 1) ++ writeValue layout (level + 1) item ++
      writeItems layout (level + 1) items ++ layout.lineBreak level ++ [']']
  | .object [] => ['\x7b', '\x7d']
  | .object ((key, value) :: fields) =>
    '\x7b' :: layout.lineBreak (level + 1) ++ writeString key ++ layout.colon ++
      writeValue layout (level + 1) value ++ writeFields layout (level + 1) fields ++
      layout.lineBreak level ++ ['\x7d']

/-- The items after the first, each after a comma. -/
def writeItems (layout : Layout) (level : Nat) : List Json → List Char
  | [] => []
  | item :: items =>
    ',' :: layout.lineBreak level ++ writeValue layout level item ++ writeItems layout level items

/-- The fields after the first, each after a comma. -/
def writeFields (layout : Layout) (level : Nat) : List (String × Json) → List Char
  | [] => []
  | (key, value) :: fields =>
    ',' :: layout.lineBreak level ++ writeString key ++ layout.colon ++
      writeValue layout level value ++ writeFields layout level fields

end

/-- Why a value has no text. -/
inductive WriteError where
  | tooManyDigits
  deriving DecidableEq, Repr

/-- The message of the error. -/
def WriteError.message : WriteError → String
  | tooManyDigits =>
    "Exceeds the limit (4300 digits) for integer string conversion; " ++
      "use sys.set_int_max_str_digits() to increase the limit"

/-- The text of a value, whose whole numbers must not have too many digits. -/
def write (layout : Layout) (value : Json) : Except WriteError String :=
  if ∀ i ∈ value.integers, IsReadable i then .ok (String.ofList (writeValue layout 0 value))
  else .error .tooManyDigits

end Concerto.Json
