/-
Tagged values: JSON for types with several variants.

- A variant is an object whose tag names it and whose other members are its fields; members beyond those are passed
  over. A variant may also be an array of its tag and its fields in their order.
- Inside of another value a tag may also be the place of its variant among all variants.
-/
import FieldSearch.Json.Basic

namespace FieldSearch.Json

/-- a variant: its name and the names of its fields -/
structure Variant where
  name : String
  fields : List String

/-- the variant that a tag names; its place counts only inside of another value -/
def variantOf (variants : List Variant) (inside : Bool) : Json → Option Variant
  | .string s => variants.find? (·.name = s)
  | .number (.int n) => if inside && 0 ≤ n then variants[n.toNat]? else none
  | _ => none

/-- the fields of a variant from members -/
def fieldsOfMembers (fields : List String) (members : List (String × Json)) : Option (List Json) :=
  fields.mapM fun field => member? field members

/-- the name of the variant that a value is, and its fields in their order -/
def readTagged (tag : String) (variants : List Variant) (inside : Bool) : Json → Option (String × List Json)
  | .object members => do
    let v ← (member? tag members).bind (variantOf variants inside)
    let fields ← fieldsOfMembers v.fields members
    return (v.name, fields)
  | .array (first :: items) => do
    let v ← variantOf variants inside first
    if items.length = v.fields.length then some (v.name, items) else none
  | _ => none

/-- the value as a string -/
def asString? : Json → Option String
  | .string s => some s
  | _ => none

/-- the value as a truth value -/
def asBool? : Json → Option Bool
  | .bool b => some b
  | _ => none

/-- the value as an array -/
def asArray? : Json → Option (List Json)
  | .array items => some items
  | _ => none

/-- the field of a record that is an object with that field, or an array of just its value -/
def readSingle (field : String) : Json → Option Json
  | .object members => member? field members
  | .array [value] => some value
  | _ => none

end FieldSearch.Json
