/-
Statements: what a search text says, in the order in which it says it.

- A statement filters by a named field or by the default one, or sorts.
- Filter expressions keep the tokens that were typed (`AND`, `&&`, …) and the parentheses, so that they can be written
  back as they were.
- A default sort is never written; it stands in for a sort that the text does not name.
-/
import FieldSearch.Query.Direction

namespace FieldSearch

/-- whether a value is wanted or not -/
inductive Demand where
  | present
  /-- not wanted; the token is the negation that was typed -/
  | absent (token : String)
deriving DecidableEq, Repr

/-- a boolean filter over one field -/
inductive FilterExpr where
  | unary (demand : Demand) (value : String)
  | and (left right : FilterExpr) (operator : String)
  | or (left right : FilterExpr) (operator : String)
  | group (inner : FilterExpr)
deriving DecidableEq, Repr

/-- a value that is wanted -/
def FilterExpr.matching (value : String) : FilterExpr := .unary .present value

/-- a value that is not wanted -/
def FilterExpr.notMatching (token value : String) : FilterExpr := .unary (.absent token) value

/-- a sort direction as it was typed -/
inductive SortExpr where
  /-- `explicit` says whether the suffix was typed -/
  | ascending (explicit : Bool)
  | descending
deriving DecidableEq, Repr

/-- the direction that is meant -/
def SortExpr.direction : SortExpr → Direction
  | .ascending _ => .ascending
  | .descending => .descending

/-- a direction as it is typed without need -/
def SortExpr.ofDirection : Direction → SortExpr
  | .ascending => .ascending false
  | .descending => .descending

/-- one unit of a search text -/
inductive Statement where
  /-- unqualified text, for the default filter -/
  | defaultFilter (expression : FilterExpr)
  | fieldFilter (name : String) (expression : FilterExpr)
  | sort (field : String) (direction : SortExpr)
  /-- the sort to use where the text names none -/
  | defaultSort (field : String) (direction : SortExpr)
deriving DecidableEq, Repr

/-- whether a statement is a sort of the text itself -/
def Statement.isSort : Statement → Bool
  | .sort .. => true
  | _ => false

def Statement.isDefaultSort : Statement → Bool
  | .defaultSort .. => true
  | _ => false

/-- statements in the order in which they apply -/
structure StatementList where
  statements : List Statement := []
  /-- whether an execution has set a primary sort key -/
  hasOrder : Bool := false
deriving DecidableEq, Repr

namespace StatementList

/-- the list with a statement more -/
def push (list : StatementList) (s : Statement) : StatementList :=
  { list with statements := list.statements ++ [s] }

/-- whether the text itself names a sort -/
def hasExplicitSort (list : StatementList) : Bool := list.statements.any Statement.isSort

end StatementList

end FieldSearch
