/-
Operations and terms as JSON, and JSON as operations and terms.
-/
import FieldSearch.Json.Tagged
import FieldSearch.Term.Operation

namespace FieldSearch

def Operation.toJson : Operation → Json
  | .unary value => .object [("type", .string "unary"), ("value", .string value)]
  | .notUnary operator value =>
    .object [("type", .string "not_unary"), ("operator", .string operator), ("value", .string value)]
  | .and left right operator =>
    .object [("type", .string "and"), ("left", left.toJson), ("right", right.toJson), ("operator", .string operator)]
  | .or left right operator =>
    .object [("type", .string "or"), ("left", left.toJson), ("right", right.toJson), ("operator", .string operator)]
  | .not left value operator =>
    .object [("type", .string "not"), ("left", left.toJson), ("right", .string value), ("operator", .string operator)]
  | .group inner => .object [("type", .string "group"), ("node", inner.toJson)]

def Term.toJson : Term → Json
  | .named name operation =>
    .object [("type", .string "named"), ("name", .string name), ("operation", operation.toJson)]
  | .default name operation =>
    .object [("type", .string "default"), ("name", .string name), ("operation", operation.toJson)]

def Operation.variants : List Json.Variant :=
  [⟨"unary", ["value"]⟩, ⟨"not_unary", ["operator", "value"]⟩, ⟨"and", ["left", "right", "operator"]⟩,
   ⟨"or", ["left", "right", "operator"]⟩, ⟨"not", ["left", "right", "operator"]⟩, ⟨"group", ["node"]⟩]

/-- the operation that a value of at most some depth describes; `inside` says whether another value holds it -/
def Operation.ofJsonAt : (depth : Nat) → (inside : Bool) → Json → Option Operation
  | 0, _, _ => none
  | depth + 1, inside, j =>
    match j.readTagged "type" Operation.variants inside with
    | some ("unary", [value]) => value.asString?.map .unary
    | some ("not_unary", [operator, value]) => do
      return .notUnary (← operator.asString?) (← value.asString?)
    | some ("and", [left, right, operator]) => do
      return .and (← ofJsonAt depth true left) (← ofJsonAt depth true right) (← operator.asString?)
    | some ("or", [left, right, operator]) => do
      return .or (← ofJsonAt depth true left) (← ofJsonAt depth true right) (← operator.asString?)
    | some ("not", [left, value, operator]) => do
      return .not (← ofJsonAt depth true left) (← value.asString?) (← operator.asString?)
    | some ("group", [inner]) => (ofJsonAt depth true inner).map .group
    | _ => none

/-- the operation that a value describes; `inside` says whether another value holds it -/
def Operation.ofJson? (inside : Bool) (j : Json) : Option Operation := Operation.ofJsonAt (j.depth + 1) inside j

/-- the term that a value describes -/
def Term.ofJson? (j : Json) : Option Term :=
  match j.readTagged "type" [⟨"named", ["name", "operation"]⟩, ⟨"default", ["name", "operation"]⟩] false with
  | some ("named", [name, operation]) => do
    return .named (← name.asString?) (← Operation.ofJson? true operation)
  | some ("default", [name, operation]) => do
    return .default (← name.asString?) (← Operation.ofJson? true operation)
  | _ => none

/-- the terms that a value describes -/
def termsOfJson? (j : Json) : Option (List Term) := do
  let items ← ((← j.readSingle "terms").asArray?)
  items.mapM Term.ofJson?

end FieldSearch
