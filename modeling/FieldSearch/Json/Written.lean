/-
JSON as it is written.

A text may hold numbers too large for a double and halves of character pairs, which stand for nothing. Where nobody asks
for them they do no harm, so they are kept as `none` here; a value needs all of them.
-/
import FieldSearch.Json.Basic

namespace FieldSearch.Json

/-- a written value; `none` is what stands for nothing -/
inductive Written where
  | null
  | bool (b : Bool)
  | number (n : Option JsonNumber)
  | string (s : Option String)
  | array (items : List Written)
  | object (members : List (Option String × Written))
deriving Inhabited

namespace Written

mutual

/-- the value that stands here, if all of it stands for something -/
def value? : Written → Option Json
  | .null => some .null
  | .bool b => some (.bool b)
  | .number n => n.map .number
  | .string s => s.map .string
  | .array items => (values? items).map .array
  | .object members => (memberValues? members).map .object

/-- the values of items -/
def values? : List Written → Option (List Json)
  | [] => some []
  | item :: items => do return (← item.value?) :: (← values? items)

/-- the members with their values -/
def memberValues? : List (Option String × Written) → Option (List (String × Json))
  | [] => some []
  | (key, value) :: members => do return (← key, ← value.value?) :: (← memberValues? members)

end

end Written

mutual

/-- the value as it is written -/
def written : Json → Written
  | .null => .null
  | .bool b => .bool b
  | .number n => .number n
  | .string s => .string s
  | .array items => .array (writtenItems items)
  | .object members => .object (writtenMembers members)

/-- the items as they are written -/
def writtenItems : List Json → List Written
  | [] => []
  | item :: items => item.written :: writtenItems items

/-- the members as they are written -/
def writtenMembers : List (String × Json) → List (Option String × Written)
  | [] => []
  | (key, value) :: members => (some key, value.written) :: writtenMembers members

end

end FieldSearch.Json
