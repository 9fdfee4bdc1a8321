import Concerto.Number.Literal
import Concerto.Schema.Checked
import Concerto.Text.Blank

/-!
Strings, truth values and numbers where the metamodel asks for them. A number or a truth value
may also be written as a string, and each may stand for the other where nothing is lost.

* `checkString`, `checkBoolean`, `checkInteger`, `checkDouble`;
* `checkList`: a list with a check for its items.
-/

namespace Concerto

/-- A text without the white space around it. -/
def trimmed (cs : List Char) : List Char :=
  let cs := cs.dropWhile Text.isWhiteSpace
  (cs.reverse.dropWhile Text.isWhiteSpace).reverse

/-- A string is never made of anything else. -/
def checkString : Json → Checked String
  | .string s => .ok s
  | _ => .problem .notString

/-- A list with a check for its items. -/
def checkList {α : Type} (check : Json → Checked α) : Json → Checked (List α)
  | .array items => Checked.items check 0 items
  | _ => .problem .notList

/-! ### Truth values -/

/-- The words that mean no. -/
def noWords : List String := ["0", "off", "f", "false", "n", "no"]

/-- The words that mean yes. -/
def yesWords : List String := ["1", "on", "t", "true", "y", "yes"]

/-- The truth value that a word means, in whatever case it is written. -/
def booleanOfWord? (word : String) : Option Bool :=
  let word := word.map Char.toLower
  if noWords.contains word then some false
  else if yesWords.contains word then some true
  else none

/-- The truth value that a whole number means. -/
def booleanOfInt? (i : Int) : Option Bool :=
  if i = 0 then some false else if i = 1 then some true else none

/-- Past these whole numbers a double does not stand for one. -/
def wholeDoubleLimit : Int := Int.ofNat (Nat.pow 2 63)

/-- A whole number that a double may stand for. -/
def wholeOfDouble? (d : Double) : Option Int :=
  d.toInt?.filter fun i => -wholeDoubleLimit < i && i < wholeDoubleLimit

/-- A whole number of 64 bits, one of which is its sign. -/
def fitsWord (i : Int) : Bool := -wholeDoubleLimit ≤ i && i < wholeDoubleLimit

/-- A truth value, or a word, or the numbers zero and one. -/
def checkBoolean : Json → Checked Bool
  | .bool b => .ok b
  | .string s =>
    match booleanOfWord? s with
    | some b => .ok b
    | none => .problem .unreadableBoolean
  | .int i =>
    match booleanOfInt? i with
    | some b => .ok b
    | none => .problem (if fitsWord i then .unreadableBoolean else .notBoolean)
  | .double d =>
    match wholeOfDouble? d with
    | none => .problem .notBoolean
    | some i =>
      match booleanOfInt? i with
      | some b => .ok b
      | none => .problem .unreadableBoolean
  | _ => .problem .notBoolean

/-! ### Whole numbers -/

/-- The text without underscores, each of which has to stand between other characters. -/
def withoutUnderscores? (cs : List Char) : Option (List Char) :=
  let pairs := cs.zip (cs.drop 1)
  if cs.contains '_' && cs.head? ≠ some '_' && cs.getLast? ≠ some '_' &&
      !pairs.contains ('_', '_') then
    some (cs.filter (· ≠ '_'))
  else none

/-- A dash at the beginning of a text, and the text after it. -/
def spanDash : List Char → Bool × List Char
  | '-' :: cs => (true, cs)
  | cs => (false, cs)

/-- A whole number without superfluous zeros, with a dash before it if it is negative. -/
def plainInteger? (cs : List Char) : Option Int :=
  let (negative, unsigned) := spanDash cs
  match spanDigits Text.asciiDigit? unsigned with
  | ([], _) => none
  | (first :: others, rest) =>
    if !rest.isEmpty || (first = 0 && !others.isEmpty) then none
    else some (signed negative (ofDigits (first :: others)))

/-- The text begins with a whole number that has too many digits, whatever follows it. A dash
counts as a digit does. -/
def beginsOversize (cs : List Char) : Bool :=
  let unsigned := (spanDash cs).2
  let digits := (spanDigits Text.asciiDigit? unsigned).1
  digits.head? ≠ some 0 && integerDigitLimit < (cs.length - unsigned.length) + digits.length

/-- The text from its first digit other than zero on, underscores among the zeros being dropped
with them; of zeros alone, or before a point, the last one is kept. -/
def dropLeadingZeros? : List Char → Option (List Char)
  | '0' :: cs =>
    let zeros := cs.takeWhile fun c => c = '0' || c = '_'
    let endsInZero := zeros.getLast? ≠ some '_'
    match cs.drop zeros.length with
    | [] => if endsInZero then some ['0'] else none
    | '.' :: rest => if endsInZero then some ('0' :: '.' :: rest) else none
    | c :: rest => if (Text.asciiDigit? c).isSome then some (c :: rest) else none
  | '-' :: cs => some ('-' :: cs)
  | c :: cs => if (Text.asciiDigit? c).isSome then some (c :: cs) else none
  | [] => none

/-- The text before a point that only zeros follow. -/
def dropZeroFraction (cs : List Char) : List Char :=
  let whole := cs.takeWhile (· ≠ '.')
  let fraction := (cs.drop whole.length).drop 1
  if fraction.all (· = '0') then whole else cs

/-- The whole number of a text: a sign, zeros in front, underscores between digits and a
fraction of zeros are allowed. -/
def looseInteger? (cs : List Char) : Option Int := do
  let cs := trimmed cs
  let unsigned ←
    match cs with
    | '+' :: '-' :: _ => none
    | '+' :: rest => some rest
    | _ => some cs
  let cs := dropZeroFraction (← dropLeadingZeros? unsigned)
  let cs := (withoutUnderscores? cs).getD cs
  if beginsOversize cs then none else plainInteger? cs

/-- A whole number of any size, a truth value, a double without a fraction, or a text. -/
def checkInteger : Json → Checked Int
  | .int i => .ok i
  | .bool b => .ok (if b then 1 else 0)
  | .string s =>
    let cs := s.toList
    if beginsOversize cs then .problem .oversizeInteger
    else
      match plainInteger? cs with
      | some i => .ok i
      | none =>
        match looseInteger? cs with
        | some i => .ok i
        | none => .problem .unreadableInteger
  | .double d =>
    match d.toInt? with
    | some _ =>
      match wholeOfDouble? d with
      | some i => .ok i
      | none => .problem .oversizeInteger
    | none => .problem (if d.isFinite then .fractionalInteger else .nonFiniteInteger)
  | _ => .problem .notInteger

/-! ### Doubles -/

/-- The double that a text denotes, with the words for infinity and for what is no number. -/
def plainDouble? (cs : List Char) : Option Double :=
  match Decimal.read? Text.asciiDigit? cs with
  | some d => some d.toDouble
  | none =>
    let (negative, word) := spanSign cs
    let word := String.ofList (word.map Char.toLower)
    if word = "inf" || word = "infinity" then some (.infinite negative)
    else if word = "nan" then some .nan
    else none

/-- The double that a text denotes, white space around it or underscores in it apart. -/
def looseDouble? (cs : List Char) : Option Double :=
  match plainDouble? (trimmed cs) with
  | some d => some d
  | none => (withoutUnderscores? cs).bind plainDouble?

/-- A number, a truth value or a text. A whole number past all finite doubles is none. -/
def checkDouble : Json → Checked Double
  | .double d => .ok d
  | .int i =>
    let d := Double.ofInt i
    if d.isFinite then .ok d else .problem .notNumber
  | .bool b => .ok (.ofInt (if b then 1 else 0))
  | .string s =>
    match looseDouble? s.toList with
    | some d => .ok d
    | none => .problem .unreadableNumber
  | _ => .problem .notNumber

end Concerto
