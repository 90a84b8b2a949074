/-
Schemas read from documents and written as JSON.

- Only names and the field of a default sort must be given. A kind, a condition and a direction are given by their
  words, which are written in small letters.
- What is written leaves out only a property or a default sort that is not given.
-/
import FieldSearch.Json.Basic
import FieldSearch.Schema.Basic
import FieldSearch.Schema.Document

namespace FieldSearch

/-! ## Words -/

def FieldKind.word : FieldKind → String
  | .text => "text"
  | .integer => "integer"
  | .float => "float"
  | .boolean => "boolean"
  | .date => "date"

def FieldKind.ofWord? : String → Option FieldKind
  | "text" => some .text
  | "integer" => some .integer
  | "float" => some .float
  | "boolean" => some .boolean
  | "date" => some .date
  | _ => none

def Condition.word : Condition → String
  | .one => "one"
  | .many => "many"

def Condition.ofWord? : String → Option Condition
  | "one" => some .one
  | "many" => some .many
  | _ => none

def Direction.word : Direction → String
  | .ascending => "ascending"
  | .descending => "descending"

def Direction.ofWord? : String → Option Direction
  | "ascending" => some .ascending
  | "descending" => some .descending
  | _ => none

/-! ## Reading -/

section

variable {α : Type} [Document α]

/-- one of the things that words stand for -/
def Document.asOneOf? {β : Type} (ofWord? : String → Option β) (d : α) : Option β := (asWord? d).bind ofWord?

/-- a list of things -/
def Document.asListOf? {β : Type} (read : α → Option β) (d : α) : Option (List β) := (asList? d).bind (List.mapM read)

/-- the field that a document describes -/
def FieldDef.ofDocument? (d : α) : Option FieldDef :=
  match Document.asRecord? ["name", "property", "kind", "condition", "default"] d with
  | some [name, property, kind, condition, isDefault] => do
    let name ← Document.required Document.asText? name
    let property ← Document.orNothing Document.asText? property
    let kind ← Document.withDefault .text (Document.asOneOf? FieldKind.ofWord?) kind
    let condition ← Document.withDefault .one (Document.asOneOf? Condition.ofWord?) condition
    let isDefault ← Document.withDefault false Document.asBool? isDefault
    return { name, property, kind, condition, isDefault }
  | _ => none

/-- the sort that a document describes -/
def SortDef.ofDocument? (d : α) : Option SortDef :=
  match Document.asRecord? ["name", "property"] d with
  | some [name, property] => do
    let name ← Document.required Document.asText? name
    let property ← Document.orNothing Document.asText? property
    return { name, property }
  | _ => none

/-- the default sort that a document describes -/
def DefaultSort.ofDocument? (d : α) : Option DefaultSort :=
  match Document.asRecord? ["field", "direction"] d with
  | some [field, direction] => do
    let field ← Document.required Document.asText? field
    let direction ← Document.withDefault .ascending (Document.asOneOf? Direction.ofWord?) direction
    return { field, direction }
  | _ => none

/-- the schema that a document describes -/
def Schema.ofDocument? (d : α) : Option Schema :=
  match Document.asRecord? ["fields", "sorts", "default_sort"] d with
  | some [fields, sorts, defaultSort] => do
    let fields ← Document.withDefault [] (Document.asListOf? FieldDef.ofDocument?) fields
    let sorts ← Document.withDefault [] (Document.asListOf? SortDef.ofDocument?) sorts
    let defaultSort ← Document.orNothing DefaultSort.ofDocument? defaultSort
    return { fields, sorts, defaultSort }
  | _ => none

end

/-! ## Shapes -/

/-- what is asked for of a field -/
def FieldDef.shape : Shape :=
  .record [("name", .leaf), ("property", .leaf), ("kind", .leaf), ("condition", .leaf), ("default", .leaf)]

/-- what is asked for of a sort -/
def SortDef.shape : Shape := .record [("name", .leaf), ("property", .leaf)]

/-- what is asked for of a default sort -/
def DefaultSort.shape : Shape := .record [("field", .leaf), ("direction", .leaf)]

/-- what is asked for of a schema -/
def Schema.shape : Shape :=
  .record [("fields", .list FieldDef.shape), ("sorts", .list SortDef.shape), ("default_sort", DefaultSort.shape)]

/-! ## Writing -/

/-- a member that is left out where there is no value -/
def optionalMember (key : String) (value : Option Json) : List (String × Json) :=
  match value with
  | some v => [(key, v)]
  | none => []

def FieldDef.toJson (f : FieldDef) : Json :=
  .object ([("name", .string f.name)] ++ optionalMember "property" (f.property.map .string) ++
    [("kind", .string f.kind.word), ("condition", .string f.condition.word), ("default", .bool f.isDefault)])

def SortDef.toJson (s : SortDef) : Json :=
  .object ([("name", .string s.name)] ++ optionalMember "property" (s.property.map .string))

def DefaultSort.toJson (s : DefaultSort) : Json :=
  .object [("field", .string s.field), ("direction", .string s.direction.word)]

def Schema.toJson (s : Schema) : Json :=
  .object ([("fields", .array (s.fields.map FieldDef.toJson)), ("sorts", .array (s.sorts.map SortDef.toJson))] ++
    optionalMember "default_sort" (s.defaultSort.map DefaultSort.toJson))

end FieldSearch
