/-
JSON as constants and predicates.

A constant has its kind and its value side by side. In a predicate a double may be given as a whole number, and a date
is a string in which blanks may stand around its parts.
-/
import FieldSearch.Json.Tagged
import FieldSearch.Query.Predicate

namespace FieldSearch

/-- the constant of a kind that a value describes -/
def Constant.ofValue? : FieldKind → Json → Option Constant
  | .text, .string s => some (.text s)
  | .integer, .number (.int n) => if n ≤ int64Max then some (.integer n) else none
  | .float, .number (.int n) => some (.float (floatOfInt n))
  | .float, .number (.float x) => some (.float x)
  | .boolean, .bool b => some (.boolean b)
  | .date, .string s => (Date.parseLoose? s).map .date
  | _, _ => none

/-- the kinds under their words -/
def Constant.kinds : List (String × FieldKind) :=
  [("text", .text), ("integer", .integer), ("float", .float), ("boolean", .boolean), ("date", .date)]

/-- the kind that a tag names: by its word, or as the key of nothing -/
def Constant.kindOf? : Json → Option FieldKind
  | .string s => (Constant.kinds.find? (·.1 = s)).map Prod.snd
  | .object [(key, .null)] => (Constant.kinds.find? (·.1 = key)).map Prod.snd
  | _ => none

/-- the constant that a value describes -/
def Constant.ofJson? : Json → Option Constant
  | .object members => do
    let kind ← (Json.member? "type" members).bind Constant.kindOf?
    Constant.ofValue? kind (← Json.member? "value" members)
  | .array [tag, value] => do
    Constant.ofValue? (← Constant.kindOf? tag) value
  | _ => none

def Predicate.variants : List Json.Variant :=
  [⟨"contains", ["property", "value"]⟩, ⟨"not_contains", ["property", "value"]⟩, ⟨"equals", ["property", "value"]⟩,
   ⟨"not_equals", ["property", "value"]⟩, ⟨"and", ["children"]⟩, ⟨"or", ["children"]⟩]

/-- the predicate that a value of at most some depth describes; `inside` says whether another value holds it -/
def Predicate.ofJsonAt : (depth : Nat) → (inside : Bool) → Json → Option Predicate
  | 0, _, _ => none
  | depth + 1, inside, j =>
    match j.readTagged "op" Predicate.variants inside with
    | some ("contains", [property, value]) => do
      return .contains (← property.asString?) (← value.asString?)
    | some ("not_contains", [property, value]) => do
      return .notContains (← property.asString?) (← value.asString?)
    | some ("equals", [property, value]) => do
      return .equals (← property.asString?) (← Constant.ofJson? value)
    | some ("not_equals", [property, value]) => do
      return .notEquals (← property.asString?) (← Constant.ofJson? value)
    | some ("and", [children]) => do
      return .and (← (← children.asArray?).mapM (ofJsonAt depth true))
    | some ("or", [children]) => do
      return .or (← (← children.asArray?).mapM (ofJsonAt depth true))
    | _ => none

/-- the predicate that a value describes -/
def Predicate.ofJson? (j : Json) : Option Predicate := Predicate.ofJsonAt (j.depth + 1) false j

end FieldSearch
