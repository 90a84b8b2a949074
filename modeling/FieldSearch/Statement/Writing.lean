/-
Statements as text, in two forms.

- The literal form keeps tokens and parentheses as they were typed.
- The normalized form spells every operator `AND`, `OR` or `NOT` and puts every pair of operands into parentheses.
- Statements are joined by single blanks; one without text, a default sort, leaves no trace.
-/
import FieldSearch.Lexeme
import FieldSearch.Statement.Basic

namespace FieldSearch

/-- texts with single blanks between them -/
def joinSpaced : List String → String
  | [] => ""
  | [s] => s
  | s :: rest => s ++ " " ++ joinSpaced rest

/-- two operands with their operator between them; a blank operator is a blank -/
def joinOperands (left operator right : String) : String :=
  if isAllBlank operator then left ++ " " ++ right else left ++ " " ++ operator ++ " " ++ right

/-- a negated value: a blank follows the keyword, none a symbol -/
def writeNegated (token value : String) : String :=
  if token = "NOT" then "NOT " ++ writeValue value else token ++ writeValue value

/-- an expression as it was typed -/
def FilterExpr.literal : FilterExpr → String
  | .unary .present value => writeValue value
  | .unary (.absent token) value => writeNegated token value
  | .and left right operator => joinOperands left.literal operator right.literal
  | .or left right operator => joinOperands left.literal operator right.literal
  | .group inner => "(" ++ inner.literal ++ ")"

/-- an expression in normalized form; a group adds parentheses only around a lone value -/
def FilterExpr.normalized : FilterExpr → String
  | .unary .present value => writeValue value
  | .unary (.absent _) value => "NOT " ++ writeValue value
  | .and left right _ => "(" ++ left.normalized ++ " AND " ++ right.normalized ++ ")"
  | .or left right _ => "(" ++ left.normalized ++ " OR " ++ right.normalized ++ ")"
  | .group (.unary demand value) => "(" ++ (FilterExpr.unary demand value).normalized ++ ")"
  | .group inner => inner.normalized

/-- a direction as it was typed -/
def SortExpr.literal : SortExpr → String
  | .ascending explicit => if explicit then "-asc" else ""
  | .descending => "-desc"

/-- a direction in normalized form -/
def SortExpr.normalized : SortExpr → String
  | .ascending _ => ""
  | .descending => "-desc"

/-- a statement as it was typed -/
def Statement.literal : Statement → String
  | .defaultFilter expression => expression.literal
  | .fieldFilter name expression => name ++ ":" ++ expression.literal
  | .sort field direction => "sort:" ++ field ++ direction.literal
  | .defaultSort .. => ""

/-- a statement in normalized form -/
def Statement.normalized : Statement → String
  | .defaultFilter expression => expression.normalized
  | .fieldFilter name expression => name ++ ":" ++ expression.normalized
  | .sort field direction => "sort:" ++ field ++ direction.normalized
  | .defaultSort .. => ""

/-- the statements of a list as they were typed -/
def StatementList.literal (list : StatementList) : String :=
  joinSpaced ((list.statements.map Statement.literal).filter (· ≠ ""))

/-- the statements of a list in normalized form -/
def StatementList.normalized (list : StatementList) : String :=
  joinSpaced ((list.statements.map Statement.normalized).filter (· ≠ ""))

end FieldSearch
