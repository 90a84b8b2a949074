/-
Merging the statements of a query with those of a form.

A form statement that filters a field takes the place of the first statement of the query that filters the same field
and has not been replaced yet. All other form statements follow in their order. Names are compared without regard to
the case of ASCII letters.
-/
import FieldSearch.Lexeme
import FieldSearch.Statement.Basic

namespace FieldSearch

/-- whether a statement filters a field of a given name -/
def Statement.filtersField (name : String) : Statement → Bool
  | .fieldFilter other _ => sameName name other
  | _ => false

/-- the first statement that filters a field, and the others -/
def takeFilter (name : String) : List Statement → Option (Statement × List Statement)
  | [] => none
  | s :: rest =>
    if s.filtersField name then some (s, rest)
    else (takeFilter name rest).map fun (found, others) => (found, s :: others)

/-- the statements of a query with those of a form merged in -/
def mergeStatements : (query form : List Statement) → List Statement
  | [], form => form
  | .fieldFilter name expression :: query, form =>
    match takeFilter name form with
    | some (replacement, others) => replacement :: mergeStatements query others
    | none => .fieldFilter name expression :: mergeStatements query form
  | s :: query, form => s :: mergeStatements query form

def StatementList.merge (query form : StatementList) : StatementList :=
  { statements := mergeStatements query.statements form.statements }

end FieldSearch
