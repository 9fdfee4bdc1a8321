import Concerto.Number.Decimal
import Concerto.Text.Quoted

/-!
Values of number literals. A literal may be written with the digits of any script, but only the
digits of a decimal system have a value.

* `IsReadable`: a whole number has at most 4300 digits, so that texts can be made of it and it of them;
* `readInteger`: the whole number a literal denotes;
* `readDouble`: the double nearest to the number a literal denotes;
* `NumberError`: why a literal has no value.
-/

namespace Concerto

/-- Why the text of a number has no value. -/
inductive NumberError where
  | notInteger (text : String)
  | tooManyDigits (count : Nat)
  | notNumber (text : String)
  deriving DecidableEq, Repr

namespace NumberError

/-- The longest quotation of a text that is no whole number. -/
def quotationLimit : Nat := 200

/-- The message of the error. -/
def message : NumberError → String
  | notInteger text =>
    "invalid literal for int() with base 10: " ++
      String.ofList ((Text.quoted text).toList.take quotationLimit)
  | tooManyDigits count =>
    "Exceeds the limit (4300 digits) for integer string conversion: value has " ++
      toString count ++ " digits; use sys.set_int_max_str_digits() to increase the limit"
  | notNumber text => "could not convert string to float: " ++ Text.quoted text

end NumberError

/-- The most digits a whole number is read or written with. -/
def integerDigitLimit : Nat := 4300

/-- The digits of a whole number can be read. -/
def IsReadable (i : Int) : Prop := (Decimal.digitsOf i.natAbs).length ≤ integerDigitLimit

instance (i : Int) : Decidable (IsReadable i) := by
  unfold IsReadable; infer_instance

/-- A whole number with a sign. -/
def signed (negative : Bool) (magnitude : Nat) : Int :=
  if negative then -(magnitude : Int) else magnitude

/-- The whole number that a literal denotes. The digits are counted before what follows them is
looked at, so a literal with too many is refused for their number. -/
def readInteger (text : String) : Except NumberError Int :=
  let (negative, unsigned) := spanSign text.toList
  let (digits, rest) := spanDigits Text.decimalDigit? unsigned
  if integerDigitLimit < digits.length then .error (.tooManyDigits digits.length)
  else if digits.isEmpty || !rest.isEmpty then .error (.notInteger text)
  else .ok (signed negative (ofDigits digits))

/-- The double nearest to the number that a literal denotes. -/
def readDouble (text : String) : Except NumberError Double :=
  match Decimal.read? Text.decimalDigit? text.toList with
  | some d => .ok d.toDouble
  | none => .error (.notNumber text)

example : readInteger "-٤2" = .ok (-42) := by rfl

example : readInteger "²" = .error (.notInteger "²") := by rfl

example : readDouble "1.²" = .error (.notNumber "1.²") := by rfl

end Concerto
