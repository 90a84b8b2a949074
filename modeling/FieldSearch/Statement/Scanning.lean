/-
Search texts read by a scanner.

- An expression that cannot be read leaves the scanner where it stood. Where the operand behind an operator cannot be read
  the expression ends in front of the operator, so the scanner goes back behind the operand before it.
- A sort that cannot be read leaves the scanner in front of its `sort:`.
-/
import FieldSearch.Grammar.Scanning
import FieldSearch.Statement.Reading

namespace FieldSearch

open Scan

namespace FilterExpr

/-- reads what stands for `AND` between two operands, behind blanks -/
def scanAndToken (blanks : Nat) (spaced : Bool) : Scan (Option String) := do
  match ← scanJoiner "AND" "&&" spaced with
  | some operator => return some operator
  | none =>
    if blanks = 0 then return none
    if ← atNegation then return some blankToken
    return none

/-- reads what stands for `OR` between two operands, behind blanks -/
def scanOrToken (blanks : Nat) (spaced : Bool) : Scan (Option String) := do
  match ← scanJoiner "OR" "||" spaced with
  | some operator => return some operator
  | none =>
    if ← scanBlanksJoin blanks then return some blankToken
    return none

/-- reads an operator and its right operand; if one of them is missing nothing is read -/
def scanLink (token : Nat → Bool → Scan (Option String)) (operand : Scan (Option FilterExpr)) :
    Scan (Option (Option (String × FilterExpr))) := do
  let save ← offset
  let (blanks, spaced) ← scanGap
  match ← token blanks spaced with
  | none =>
    moveTo save
    return some none
  | some operator =>
    match ← operand with
    | some right => return some (some (operator, right))
    | none =>
      moveTo save
      return some none

/-- an operand whose groups `inner` reads -/
def scanUnary (inner : Scan (Option FilterExpr)) : Scan (Option FilterExpr) := scanOperand forms moveTo inner

/-- operands joined by `AND` -/
def scanAnd (inner : Scan (Option FilterExpr)) : Scan (Option FilterExpr) :=
  scanChain (scanUnary inner) (scanLink scanAndToken (scanUnary inner)) fun left link => .and left link.2 link.1

/-- an expression whose groups `inner` reads -/
def scanOr (inner : Scan (Option FilterExpr)) : Scan (Option FilterExpr) :=
  scanChain (scanAnd inner) (scanLink scanOrToken (scanAnd inner)) fun left link => .or left link.2 link.1

/-- reads an expression; a group is read where less text is unread -/
def scan : Scan (Option FilterExpr) := recurse scanOr

end FilterExpr

namespace Statement

/-- reads the suffix of a sort up to a blank -/
def scanSuffix : Scan (Option SortExpr) := do
  let size := sizeWhile (fun a => !isBlank a) (← rest)
  let (suffix, _) ← ahead size
  match suffixSort? (nameKey (String.ofList suffix)) with
  | none => return none
  | some direction =>
    skip size
    return some direction

/-- reads a sort: its `sort:`, a field up to a blank or a `-`, and a suffix behind a `-` -/
def scanSort : Scan (Option Statement) := do
  let start ← offset
  let _ ← termName
  let size := sizeWhile (fun a => !isBlank a && a != '-') (← rest)
  if size = 0 then
    expected .sortField
    moveTo start
    return none
  let (field, _) ← ahead size
  skip size
  if (← peek) = some '-' then
    match ← scanSuffix with
    | some direction => return some (.sort (String.ofList field) direction)
    | none =>
      expected .sortSuffix
      moveTo start
      return none
  else return some (.sort (String.ofList field) (.ascending false))

def scan : Scan (Option Statement) := do
  match ← peekTermName with
  | none => return (← FilterExpr.scan).map .defaultFilter
  | some name =>
    if nameKey name = "sort" then scanSort
    else
      let _ ← termName
      let _ ← skipBlanks
      return (← FilterExpr.scan).map (.fieldFilter name)

end Statement

namespace StatementList

/-- reads the statements of a text -/
def scan : Scan (Except Error StatementList) :=
  return (← scanAll Statement.scan .statementBreak).map fun statements => { statements }

end StatementList

end FieldSearch
