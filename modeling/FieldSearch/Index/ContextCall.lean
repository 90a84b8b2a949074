/-
Calls of an index context, and what they do to it and to the list of the caller step by step.

- Filters and sorts are registered in tables of their own; a default filter is looked up among the filters.
- A default sort is looked up first; then the list loses the default sorts that it has and receives the new one.
- `ContextCall` names the calls, and `Desk` is what they work on.
-/
import FieldSearch.Index.Basic
import FieldSearch.Program

namespace FieldSearch

namespace IndexContext

variable {Q : Type}

/-- registers a filter -/
def insertFilterM (name : String) (map : FilterMap Q) : Program (IndexContext Q) Unit :=
  (Registry.addM name map).within filters fun filters ctx => { ctx with filters }

/-- makes a registered filter the default one -/
def setDefaultFilterM (name : String) : Program (IndexContext Q) Unit := do
  if let some existing := (← get).defaultFilter then
    throw (.defaultFilterSet existing)
  let key := nameKey name
  if !(← get).filters.holds key then
    throw (.unknownFilter name)
  modify fun ctx => { ctx with defaultFilter := some key }

/-- registers a sort -/
def addSortM (name property : String) : Program (IndexContext Q) Unit :=
  (Registry.addM name property).within sorts fun sorts ctx => { ctx with sorts }

/-- puts a default sort into a list, in place of those it has -/
def setDefaultSortM (ctx : IndexContext Q) (field : String) (direction : Direction) : Program StatementList Unit := do
  if (ctx.sort? field).isNone then
    throw (.unknownSort field)
  modify fun list => { list with statements := list.statements.filter fun s => !s.isDefaultSort }
  modify fun list => list.push (.defaultSort field (.ofDirection direction))

end IndexContext

/-- a context, and the statement list of its caller -/
structure Desk (Q : Type) where
  context : IndexContext Q := {}
  list : StatementList := {}

/-- what a caller may ask for -/
inductive ContextCall (Q : Type) where
  | addFilter (name property : String) (kind : FieldKind)
  /-- a filter that is applied in a way of its own -/
  | addFilterWith (name property : String) (kind : FieldKind) (custom : Predicate → Q → Q)
  | setDefaultFilter (name : String)
  | addSort (name property : String)
  | setDefaultSort (field : String) (direction : Direction)
  /-- the caller goes on with another list -/
  | take (list : StatementList)

namespace ContextCall

variable {Q : Type}

/-- a program over the context alone -/
def onContext (p : Program (IndexContext Q) Unit) : Program (Desk Q) Unit :=
  p.within Desk.context fun context desk => { desk with context }

/-- a program over the list alone -/
def onList (p : Program StatementList Unit) : Program (Desk Q) Unit :=
  p.within Desk.list fun list desk => { desk with list }

def perform : ContextCall Q → Program (Desk Q) Unit
  | .addFilter name property kind => onContext (IndexContext.insertFilterM name ⟨property, kind, none⟩)
  | .addFilterWith name property kind custom => onContext (IndexContext.insertFilterM name ⟨property, kind, some custom⟩)
  | .setDefaultFilter name => onContext (IndexContext.setDefaultFilterM name)
  | .addSort name property => onContext (IndexContext.addSortM name property)
  | .setDefaultSort field direction => do onList ((← get).context.setDefaultSortM field direction)
  | .take list => onList (set list)

/-- the desk after some calls, of which some may be refused -/
def performAll (calls : List (ContextCall Q)) (desk : Desk Q) : Desk Q :=
  calls.foldl (fun desk call => call.perform.after desk) desk

end ContextCall

end FieldSearch
