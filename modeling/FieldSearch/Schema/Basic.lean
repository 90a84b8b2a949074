/-
Schemas: the fields and sorts of one type of document.

- A field or sort stands for a property, which is its own name unless another is given.
- `Schema.validate` finds the first fault: a name that is no identifier or is taken, two default fields, or a default
  sort that is not declared.
- Both compilers are built from a schema: an index context for statements and registered terms for term queries.
-/
import FieldSearch.Index.Execution
import FieldSearch.Term.Compilation

namespace FieldSearch

/-- a field to search in -/
structure FieldDef where
  name : String
  /-- the property of the records, if it is not the name -/
  property : Option String := none
  kind : FieldKind := .text
  condition : Condition := .one
  /-- whether unqualified text is for this field -/
  isDefault : Bool := false
deriving DecidableEq, Repr

/-- the property of the records -/
def FieldDef.path (f : FieldDef) : String := f.property.getD f.name

/-- a key to sort by -/
structure SortDef where
  name : String
  property : Option String := none
deriving DecidableEq, Repr

/-- the property of the records -/
def SortDef.path (s : SortDef) : String := s.property.getD s.name

/-- the sort to use where a query names none -/
structure DefaultSort where
  field : String
  direction : Direction := .ascending
deriving DecidableEq, Repr

/-- the fields and sorts of a type of document -/
structure Schema where
  fields : List FieldDef := []
  sorts : List SortDef := []
  defaultSort : Option DefaultSort := none
deriving DecidableEq, Repr

namespace Schema

/-- the schema to use where none is given: a single field of text that takes everything -/
def builtin : Schema := { fields := [{ name := "text", condition := .many, isDefault := true }] }

/-- checks that names are identifiers and that none is taken twice; `seen` are the keys taken before -/
def checkNames (seen : List String) : List String → Except Error Unit
  | [] => .ok ()
  | name :: names =>
    if !isIdentifier name then .error (.invalidName name)
    else if seen.contains (nameKey name) then .error (.duplicateTerm name)
    else checkNames (nameKey name :: seen) names

/-- the names of the default fields -/
def defaultNames (s : Schema) : List String := (s.fields.filter (·.isDefault)).map (·.name)

/-- checks that the default sort is declared -/
def checkDefaultSort (s : Schema) : Except Error Unit :=
  match s.defaultSort with
  | none => .ok ()
  | some sort =>
    if s.sorts.any fun declared => sameName declared.name sort.field then .ok ()
    else .error (.unknownSort sort.field)

/-- finds the first fault of a schema -/
def validate (s : Schema) : Except Error Unit := do
  checkNames [] (s.fields.map (·.name))
  if 1 < s.defaultNames.length then throw (.config (.defaultFields s.defaultNames))
  checkNames [] (s.sorts.map (·.name))
  s.checkDefaultSort

def defaultField (s : Schema) : Option FieldDef := s.fields.find? (·.isDefault)

variable {Q : Type}

/-- registers the filters of fields -/
def addFilters (ctx : IndexContext Q) (fields : List FieldDef) : Except Error (IndexContext Q) :=
  fields.foldlM (fun ctx f => ctx.addFilter f.name ⟨f.path, f.kind, none⟩) ctx

/-- registers sorts -/
def addSorts (ctx : IndexContext Q) (sorts : List SortDef) : Except Error (IndexContext Q) :=
  sorts.foldlM (fun ctx s => ctx.addSort s.name s.path) ctx

/-- the context for statements -/
def indexContext (s : Schema) : Except Error (IndexContext Q) := do
  let ctx ← addFilters {} s.fields
  let ctx ← match s.defaultField with
    | some f => ctx.setDefaultFilter f.name
    | none => pure ctx
  addSorts ctx s.sorts

/-- the term of a field: values narrow the query by the predicates of the field -/
def fieldTerm [Query Q] (f : FieldDef) : TermOption Q :=
  let matching : Builder Q := fun _ value => Query.filter (.matching f.path f.kind value)
  let notMatching : Builder Q := fun _ value => Query.filter (.notMatching f.path f.kind value)
  let builders := match f.condition with
    | .one => Builders.one matching
    | .many => Builders.many matching notMatching
  ⟨f.name, f.isDefault, builders⟩

def termRegistry [Query Q] (s : Schema) : Except Error (TermRegistry Q) :=
  TermRegistry.ofTerms (s.fields.map fieldTerm)

/-- puts the default sort into a list -/
def applyDefaultSort (s : Schema) (ctx : IndexContext Q) (list : StatementList) : Except Error StatementList :=
  match s.defaultSort with
  | some sort => ctx.setDefaultSort list sort.field sort.direction
  | none => .ok list

end Schema

end FieldSearch
