/-
Running statements against a query.

- Statements apply in their order; those that name nothing registered are skipped.
- The first sort sets the primary key and every later one adds a key.
- A default sort counts only if no sort of the text is registered and nothing has sorted before.
-/
import FieldSearch.Index.Basic

namespace FieldSearch.IndexContext

variable {Q : Type} [Query Q]

/-- a query on its way, and whether it has a primary sort key -/
structure Progress (Q : Type) where
  hasOrder : Bool
  query : Q

/-- applies a filter expression under the name of a filter -/
def applyFilter (ctx : IndexContext Q) (name : String) (expression : FilterExpr) (q : Q) : Q :=
  match ctx.filter? name with
  | some map => map.apply (map.compile expression) q
  | none => q

/-- sorts by the property of a sort -/
def applySort (ctx : IndexContext Q) (name : String) (direction : Direction) (p : Progress Q) : Progress Q :=
  match ctx.sort? name with
  | some property => ⟨true, Query.sortBy p.hasOrder direction property p.query⟩
  | none => p

/-- whether a sort of the text is registered -/
def ordersExplicitly (ctx : IndexContext Q) (statements : List Statement) : Bool :=
  statements.any fun s =>
    match s with
    | .sort field _ => (ctx.sort? field).isSome
    | _ => false

/-- applies a statement; `explicit` says whether a sort of the text is registered -/
def step (ctx : IndexContext Q) (explicit : Bool) (p : Progress Q) : Statement → Progress Q
  | .defaultFilter expression =>
    match ctx.defaultFilter with
    | some name => { p with query := ctx.applyFilter name expression p.query }
    | none => p
  | .fieldFilter name expression => { p with query := ctx.applyFilter name expression p.query }
  | .sort field direction => ctx.applySort field direction.direction p
  | .defaultSort field direction =>
    if explicit || p.hasOrder then p else ctx.applySort field direction.direction p

/-- applies statements in their order -/
def run (ctx : IndexContext Q) (statements : List Statement) (q : Q) : Progress Q :=
  statements.foldl (ctx.step (ctx.ordersExplicitly statements)) ⟨false, q⟩

/-- applies a list, and notes in it whether the query has been sorted -/
def execute (ctx : IndexContext Q) (list : StatementList) (q : Q) : StatementList × Q :=
  let p := ctx.run list.statements q
  ({ list with hasOrder := p.hasOrder }, p.query)

end FieldSearch.IndexContext
