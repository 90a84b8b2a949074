/-
Statements in the form in which they are kept: in a text field, or percent-encoded in an address.

Default sorts are left out, and of several default filters only the first is kept.
-/
import FieldSearch.Statement.Merge
import FieldSearch.Statement.Reading
import FieldSearch.Statement.Writing
import FieldSearch.Text.Percent

namespace FieldSearch

/-- the statements behind a default filter that are kept -/
def keptBehindDefault : List Statement → List Statement
  | [] => []
  | .defaultFilter _ :: rest => keptBehindDefault rest
  | .defaultSort .. :: rest => keptBehindDefault rest
  | s :: rest => s :: keptBehindDefault rest

def keptStatements : List Statement → List Statement
  | [] => []
  | .defaultSort .. :: rest => keptStatements rest
  | .defaultFilter expression :: rest => .defaultFilter expression :: keptBehindDefault rest
  | s :: rest => s :: keptStatements rest

namespace StatementList

/-- a list as text -/
def serialize (list : StatementList) : String :=
  joinSpaced ((keptStatements list.statements).map Statement.literal)

/-- a query with a form merged in, as text -/
def mergeAndSerialize (query form : StatementList) : String := (query.merge form).serialize

/-- a list in percent-encoded form -/
def encode (list : StatementList) : String := Percent.encode list.serialize

/-- the list behind a percent-encoded text -/
def decode (encoded : String) : Except Error StatementList :=
  (Percent.decode encoded).bind parse

end StatementList

end FieldSearch
