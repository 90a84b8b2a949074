/-
Statements as JSON, and JSON as statements.

Each variant has its name under a tag (`type`, `kind` or `direction`) in front of its fields. Whether a list has been
sorted by is not written.
-/
import FieldSearch.Json.Tagged
import FieldSearch.Statement.Basic

namespace FieldSearch

/-! ## Writing -/

def Demand.toJson : Demand → Json
  | .present => .object [("kind", .string "match")]
  | .absent token => .object [("kind", .string "not_match"), ("token", .string token)]

def FilterExpr.toJson : FilterExpr → Json
  | .unary demand value =>
    .object [("type", .string "unary"), ("operator", demand.toJson), ("value", .string value)]
  | .and left right operator =>
    .object [("type", .string "and"), ("left", left.toJson), ("right", right.toJson), ("operator", .string operator)]
  | .or left right operator =>
    .object [("type", .string "or"), ("left", left.toJson), ("right", right.toJson), ("operator", .string operator)]
  | .group inner => .object [("type", .string "group"), ("expression", inner.toJson)]

/-- a direction as JSON -/
def SortExpr.toJson : SortExpr → Json
  | .ascending explicit => .object [("direction", .string "ascending"), ("explicit", .bool explicit)]
  | .descending => .object [("direction", .string "descending")]

def Statement.toJson : Statement → Json
  | .defaultFilter expression => .object [("type", .string "default_filter"), ("expression", expression.toJson)]
  | .fieldFilter name expression =>
    .object [("type", .string "field_filter"), ("name", .string name), ("expression", expression.toJson)]
  | .sort field direction =>
    .object [("type", .string "sort"), ("field", .string field), ("sort", direction.toJson)]
  | .defaultSort field direction =>
    .object [("type", .string "default_sort"), ("field", .string field), ("sort", direction.toJson)]

def StatementList.toJson (list : StatementList) : Json :=
  .object [("statements", .array (list.statements.map Statement.toJson))]

/-! ## Reading -/

/-- the demand that a value describes -/
def Demand.ofJson? (j : Json) : Option Demand :=
  match j.readTagged "kind" [⟨"match", []⟩, ⟨"not_match", ["token"]⟩] true with
  | some ("match", _) => some .present
  | some ("not_match", [token]) => token.asString?.map .absent
  | _ => none

def FilterExpr.variants : List Json.Variant :=
  [⟨"unary", ["operator", "value"]⟩, ⟨"and", ["left", "right", "operator"]⟩, ⟨"or", ["left", "right", "operator"]⟩,
   ⟨"group", ["expression"]⟩]

/-- the expression that a value of at most some depth describes -/
def FilterExpr.ofJsonAt : (depth : Nat) → Json → Option FilterExpr
  | 0, _ => none
  | depth + 1, j =>
    match j.readTagged "type" FilterExpr.variants true with
    | some ("unary", [operator, value]) => do
      return .unary (← Demand.ofJson? operator) (← value.asString?)
    | some ("and", [left, right, operator]) => do
      return .and (← ofJsonAt depth left) (← ofJsonAt depth right) (← operator.asString?)
    | some ("or", [left, right, operator]) => do
      return .or (← ofJsonAt depth left) (← ofJsonAt depth right) (← operator.asString?)
    | some ("group", [inner]) => (ofJsonAt depth inner).map .group
    | _ => none

/-- the expression that a value describes -/
def FilterExpr.ofJson? (j : Json) : Option FilterExpr := FilterExpr.ofJsonAt (j.depth + 1) j

/-- the direction that a value describes -/
def SortExpr.ofJson? (j : Json) : Option SortExpr :=
  match j.readTagged "direction" [⟨"ascending", ["explicit"]⟩, ⟨"descending", []⟩] true with
  | some ("ascending", [explicit]) => explicit.asBool?.map .ascending
  | some ("descending", _) => some .descending
  | _ => none

def Statement.variants : List Json.Variant :=
  [⟨"default_filter", ["expression"]⟩, ⟨"field_filter", ["name", "expression"]⟩, ⟨"sort", ["field", "sort"]⟩,
   ⟨"default_sort", ["field", "sort"]⟩]

/-- the statement that a value describes -/
def Statement.ofJson? (j : Json) : Option Statement :=
  match j.readTagged "type" Statement.variants false with
  | some ("default_filter", [expression]) => (FilterExpr.ofJson? expression).map .defaultFilter
  | some ("field_filter", [name, expression]) => do
    return .fieldFilter (← name.asString?) (← FilterExpr.ofJson? expression)
  | some ("sort", [field, direction]) => do
    return .sort (← field.asString?) (← SortExpr.ofJson? direction)
  | some ("default_sort", [field, direction]) => do
    return .defaultSort (← field.asString?) (← SortExpr.ofJson? direction)
  | _ => none

/-- the list that a value describes -/
def StatementList.ofJson? (j : Json) : Option StatementList := do
  let items ← ((← j.readSingle "statements").asArray?)
  let statements ← items.mapM Statement.ofJson?
  return { statements }

end FieldSearch
