/-
Index contexts: the filters and sorts that statements may name.

- A filter leads to a property and its kind; it may apply its predicate in a way of its own.
- One registered filter may be the default one, which receives unqualified text. Once set it stays.
- `FilterMap.compile` makes one predicate of a filter expression.
-/
import FieldSearch.Query.Basic
import FieldSearch.Registry
import FieldSearch.Statement.Basic

namespace FieldSearch

/-- where a filter leads -/
structure FilterMap (Q : Type) where
  property : String
  kind : FieldKind
  /-- how the predicate is applied, if not by narrowing the query -/
  custom : Option (Predicate → Q → Q) := none

namespace FilterMap

variable {Q : Type}

def compile (map : FilterMap Q) : FilterExpr → Predicate
  | .unary .present value => .matching map.property map.kind value
  | .unary (.absent _) value => .notMatching map.property map.kind value
  | .and left right _ => (map.compile left).conj (map.compile right)
  | .or left right _ => (map.compile left).disj (map.compile right)
  | .group inner => map.compile inner

def apply [Query Q] (map : FilterMap Q) (predicate : Predicate) : Q → Q :=
  match map.custom with
  | some custom => custom predicate
  | none => Query.filter predicate

end FilterMap

/-- the filters and sorts of an index -/
structure IndexContext (Q : Type) where
  filters : Registry (FilterMap Q) := {}
  /-- the key of the default filter -/
  defaultFilter : Option String := none
  /-- the properties of the sorts -/
  sorts : Registry String := {}

namespace IndexContext

variable {Q : Type}

/-- registers a filter -/
def addFilter (ctx : IndexContext Q) (name : String) (map : FilterMap Q) : Except Error (IndexContext Q) :=
  (ctx.filters.add name map).map fun filters => { ctx with filters }

/-- registers a sort -/
def addSort (ctx : IndexContext Q) (name property : String) : Except Error (IndexContext Q) :=
  (ctx.sorts.add name property).map fun sorts => { ctx with sorts }

/-- makes a registered filter the default one -/
def setDefaultFilter (ctx : IndexContext Q) (name : String) : Except Error (IndexContext Q) :=
  match ctx.defaultFilter with
  | some existing => .error (.defaultFilterSet existing)
  | none =>
    if ctx.filters.has name then .ok { ctx with defaultFilter := some (nameKey name) }
    else .error (.unknownFilter name)

def filter? (ctx : IndexContext Q) (name : String) : Option (FilterMap Q) := ctx.filters.get? name

/-- the property of a sort -/
def sort? (ctx : IndexContext Q) (name : String) : Option String := ctx.sorts.get? name

/-- puts a default sort into a list, in place of those it has -/
def setDefaultSort (ctx : IndexContext Q) (list : StatementList) (field : String) (direction : Direction) :
    Except Error StatementList :=
  if (ctx.sort? field).isNone then .error (.unknownSort field)
  else
    let kept := list.statements.filter fun s => !s.isDefaultSort
    .ok { list with statements := kept ++ [.defaultSort field (.ofDirection direction)] }

end IndexContext

end FieldSearch
