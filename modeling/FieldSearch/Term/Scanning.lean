/-
Term queries read by a scanner.

Behind an operator that was typed the operand must follow, else the whole value cannot be read, and the scanner stays where
it got to. Only behind blanks may a value end, and then the scanner goes back in front of them.
-/
import FieldSearch.Grammar.Scanning
import FieldSearch.Term.Reading

namespace FieldSearch

open Scan

namespace Operation

/-- reads one value -/
def scanOne : Scan (Option Operation) := do
  match ← quoted with
  | some value => return some (.unary value)
  | none =>
    match ← nonBlank with
    | some value => return some (.unary value)
    | none =>
      expected .value
      return none

/-- an operand whose groups `inner` reads -/
def scanUnary (inner : Scan (Option Operation)) : Scan (Option Operation) := scanOperand forms (fun _ => pure ()) inner

/-- reads `AND` and its right operand -/
def scanAndLink (operand : Scan (Option Operation)) : Scan (Option (Option (String × Operation))) := do
  let save ← offset
  let (_, spaced) ← scanGap
  match ← scanJoiner "AND" "&&" spaced with
  | none =>
    moveTo save
    return some none
  | some operator =>
    match ← operand with
    | some right => return some (some (operator, right))
    | none => return none

/-- operands joined by `AND` -/
def scanAnd (inner : Scan (Option Operation)) : Scan (Option Operation) :=
  scanChain (scanUnary inner) (scanAndLink (scanUnary inner)) fun left link => .and left link.2 link.1

/-- reads the negation behind an operand and blanks; a keyword or `-` must be spaced -/
def scanNotToken (spaced : Bool) : Scan (Option String) := do
  if spaced then
    if ← eatKeyword "NOT" then return some "NOT"
  if ← eatChar '!' then return some "!"
  if spaced then
    if ← eatChar '-' then return some "-"
  return none

/-- reads a link; `and` reads the right operand of `OR` -/
def scanLink (and : Scan (Option Operation)) : Scan (Option (Option Link)) := do
  let save ← offset
  let (blanks, spaced) ← scanGap
  match ← scanJoiner "OR" "||" spaced with
  | some operator =>
    match ← and with
    | some right => return some (some (.or operator right))
    | none => return none
  | none =>
    match ← scanNotToken spaced with
    | some operator =>
      match ← scanNegated with
      | some value => return some (some (.not operator value))
      | none => return none
    | none =>
      if ← scanBlanksJoin blanks then
        match ← and with
        | some right => return some (some (.or blankToken right))
        | none =>
          moveTo save
          return some none
      else
        moveTo save
        return some none

/-- a combination of values whose groups `inner` reads -/
def scanManyWith (inner : Scan (Option Operation)) : Scan (Option Operation) :=
  scanChain (scanAnd inner) (scanLink (scanAnd inner)) join

/-- reads a combination of values; a group is read where less text is unread -/
def scanMany : Scan (Option Operation) := recurse scanManyWith

/-- reads as many values as a term takes -/
def scan : Condition → Scan (Option Operation)
  | .one => scanOne
  | .many => scanMany

end Operation

namespace TermRegistry

variable {Q : Type}

def scanTerm (r : TermRegistry Q) : Scan (Option Term) := do
  match ← peekTermName with
  | some name =>
    let _ ← termName
    let _ ← skipBlanks
    match r.get? name with
    | some t => return (← Operation.scan t.builders.condition).map (.named t.name)
    | none => return (← Operation.scan .one).map (.named name)
  | none =>
    match r.default? with
    | some t => return (← Operation.scan t.builders.condition).map (.default t.name)
    | none =>
      expected .termName
      return none

/-- reads the terms of a text -/
def scan (r : TermRegistry Q) : Scan (Except Error (List Term)) := scanAll r.scanTerm .termBreak

end TermRegistry

end FieldSearch
