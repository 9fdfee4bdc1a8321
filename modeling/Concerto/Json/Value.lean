import Concerto.Number.Double

/-!
JSON values. Numbers keep their kind: a number without a point and an exponent is a whole number
of any size, every other one a double. The keys of an object keep their order.

* `Json`: the values;
* `Json.field?`: the value of a field of an object;
* `Json.integers`: the whole numbers in a value.
-/

namespace Concerto

/-- A JSON value. -/
inductive Json where
  | null
  | bool (value : Bool)
  | int (value : Int)
  | double (value : Double)
  | string (value : String)
  | array (items : List Json)
  | object (fields : List (String × Json))
  deriving Inhabited

namespace Json

/-- The value of a field of an object. -/
def field? (key : String) : Json → Option Json
  | object fields => fields.lookup key
  | _ => none

mutual

/-- The whole numbers in a value, from the first to the last. -/
def integers : Json → List Int
  | int i => [i]
  | array items => itemIntegers items
  | object fields => fieldIntegers fields
  | _ => []

/-- The whole numbers in the items of an array. -/
def itemIntegers : List Json → List Int
  | [] => []
  | item :: items => integers item ++ itemIntegers items

/-- The whole numbers in the values of fields. -/
def fieldIntegers : List (String × Json) → List Int
  | [] => []
  | (_, value) :: fields => integers value ++ fieldIntegers fields

end

end Json

end Concerto
