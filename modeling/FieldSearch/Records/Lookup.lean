/-
Values of records: looking them up, their text, and comparing them.

- A property is a path of keys with dots between them. A value that is null counts as missing.
- The text of a value is the string itself, of any other value its compact JSON.
- Numbers compare as doubles, truth values false first, all else by lower-case text. What is missing comes last in
  either direction.
-/
import FieldSearch.Json.Writer
import FieldSearch.Query.Direction
import FieldSearch.Text.LowerCase

namespace FieldSearch

def pathKeys (property : String) : List String := (property.toList.splitOn '.').map String.ofList

/-- the value at a path of keys -/
def valueAt (record : Json) : List String → Option Json
  | [] => some record
  | key :: keys => (record.get? key).bind fun value => valueAt value keys

/-- the value of a property, unless it is null -/
def lookup (record : Json) (property : String) : Option Json :=
  match valueAt record (pathKeys property) with
  | some .null => none
  | found => found

/-- the text of a value -/
def textOf : Json → String
  | .string s => s
  | value => value.compact

/-- a number as a double -/
def JsonNumber.toFloat : JsonNumber → Float
  | .int n => floatOfInt n
  | .float x => x

/-- the order of two doubles; what has no order counts as equal -/
def compareFloats (x y : Float) : Ordering :=
  if x < y then .lt else if y < x then .gt else .eq

def compareValues : Json → Json → Ordering
  | .number x, .number y => compareFloats x.toFloat y.toFloat
  | .bool x, .bool y => compare x y
  | x, y => compare (lowerCase (textOf x)) (lowerCase (textOf y))

/-- an order, turned around for descending keys -/
def Direction.apply : Direction → Ordering → Ordering
  | .ascending, o => o
  | .descending, o => o.swap

/-- the order of two values of a key, where a missing one comes last -/
def compareKeys (direction : Direction) : Option Json → Option Json → Ordering
  | none, none => .eq
  | some _, none => .lt
  | none, some _ => .gt
  | some x, some y => direction.apply (compareValues x y)

end FieldSearch
