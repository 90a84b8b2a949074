/-
Reading search texts.

  query      = statement (blanks statement)*
  statement  = "sort:" field ("-asc" | "-desc" | "-dsc")? | name ":" or | or
  or         = and (("OR" | "||" | blanks) and)*
  and        = operand (("AND" | "&&" | blanks) operand)*      blanks: only in front of a negation
  operand    = ("NOT" | "!" | "-") value | value | "(" or ")"

- `AND` binds tighter than `OR`, both join from the left, and a blank in front of a negation means `AND`.
- Where the operand behind an operator cannot be read, the expression ends in front of the operator.
-/
import FieldSearch.Grammar.Operand
import FieldSearch.Statement.Basic

namespace FieldSearch

namespace FilterExpr

def forms : OperandForms FilterExpr := ⟨.matching, .notMatching, .group⟩

/-- reads what stands for `AND` between two operands -/
def readAndToken (c : Cursor) : Option (String × Cursor) :=
  match readJoiner "AND" "&&" c with
  | some found => some found
  | none => if 0 < c.blanks && c.skipBlanks.atNegation then some (blankToken, c.skipBlanks) else none

/-- reads what stands for `OR` between two operands -/
def readOrToken (c : Cursor) : Option (String × Cursor) :=
  match readJoiner "OR" "||" c with
  | some found => some found
  | none => if blanksJoin c then some (blankToken, c.skipBlanks) else none

/-- reads an operator and its right operand; if the operand is missing nothing is read -/
def readLink (token : Cursor → Option (String × Cursor)) (operand : Cursor → Reply FilterExpr) (c : Cursor) :
    Reply (Option (String × FilterExpr)) :=
  match token c with
  | none => .done none c
  | some (operator, behind) => ((operand behind).map fun right => (operator, right)).orNone c

/-- operands joined by `AND` -/
def readAnd (inner : Cursor → Reply FilterExpr) : Cursor → Reply FilterExpr :=
  leftChain (readOperand forms inner) (readLink readAndToken (readOperand forms inner))
    fun left link => .and left link.2 link.1

/-- an expression whose groups `inner` reads -/
def readOr (inner : Cursor → Reply FilterExpr) : Cursor → Reply FilterExpr :=
  leftChain (readAnd inner) (readLink readOrToken (readAnd inner)) fun left link => .or left link.2 link.1

/-- reads an expression; a group is read where less text is left -/
def read (c : Cursor) : Reply FilterExpr :=
  readOr (fun inside => if inside.rest.length < c.rest.length then read inside else ⟨none, none⟩) c
termination_by c.rest.length

end FilterExpr

namespace Statement

/-- the direction that a suffix says -/
def suffixSort? (suffix : String) : Option SortExpr :=
  if suffix = "-asc" then some (.ascending true)
  else if suffix = "-desc" || suffix = "-dsc" then some .descending
  else none

/-- reads what follows `sort:`, a field up to a blank or a `-`, and a suffix up to a blank -/
def readSort (c : Cursor) : Reply Statement :=
  let field := c.span fun a => !isBlank a && a != '-'
  let behind := c.advance field.length
  if field.isEmpty then .fail .sortField c
  else if behind.peek = some '-' then
    let suffix := behind.span fun a => !isBlank a
    match suffixSort? (nameKey (String.ofList suffix)) with
    | some direction => .done (.sort (String.ofList field) direction) (behind.advance suffix.length)
    | none => .fail .sortSuffix behind
  else .done (.sort (String.ofList field) (.ascending false)) behind

def read (c : Cursor) : Reply Statement :=
  match c.termName with
  | none => (FilterExpr.read c).map .defaultFilter
  | some (name, behind) =>
    if nameKey name = "sort" then readSort behind
    else (FilterExpr.read behind.skipBlanks).map (.fieldFilter name)

end Statement

namespace StatementList

def parse (text : String) : Except Error StatementList :=
  (readAll Statement.read .statementBreak text).map fun statements => { statements }

/-- the statements of a text, none if it is malformed -/
def parseOrEmpty (text : String) : StatementList :=
  match parse text with
  | .ok list => list
  | .error _ => {}

end StatementList

end FieldSearch
