/-
What the two grammars share, as programs over a scanner.

- An operand is a value, a negated value or a parenthesised expression. Where one cannot be read, each grammar has its own
  way to give it up: one goes back to where the operand starts, the other stays where it got to.
- Behind an operand blanks are skipped before an operator is looked for. `scanChain` reads operands and joins them from the
  left, `scanAll` reads a whole text as items with blanks between them.
-/
import FieldSearch.Grammar.Operand
import FieldSearch.Grammar.Scanner

namespace FieldSearch

namespace Scan

variable {α β : Type}

/-- reads a value: quoted, else a bare word -/
def scanValue : Scan (Option String) := do
  match ← quoted with
  | some value => return some value
  | none => bareWord

/-- reads a negation and gives its token -/
def scanNegation : Scan (Option String) := do
  if ← eatKeyword "NOT" then return some "NOT"
  if ← eatChar '!' then return some "!"
  if ← eatChar '-' then return some "-"
  return none

/-- reads the value behind a negation; blanks in front of it are skipped and a group is refused -/
def scanNegated : Scan (Option String) := do
  let _ ← skipBlanks
  if (← peek) = some '(' then
    expected .negatedGroup
    return none
  match ← scanValue with
  | some value => return some value
  | none =>
    expected .negatedValue
    return none

/-- reads an expression behind a `(`, and its `)` -/
def scanGroup (inner : Scan (Option α)) : Scan (Option α) := do
  let _ ← skipBlanks
  match ← inner with
  | none => return none
  | some a =>
    let _ ← skipBlanks
    if ← eatChar ')' then return some a
    expected .closingParen
    return none

/-- reads a value or a parenthesised expression, which `inner` reads; `giveUp` is told where the operand starts -/
def scanPrimary (forms : OperandForms α) (giveUp : Nat → Scan Unit) (inner : Scan (Option α)) : Scan (Option α) := do
  match ← scanValue with
  | some value => return some (forms.single value)
  | none =>
    let start ← offset
    if ← eatChar '(' then
      match ← scanGroup inner with
      | some a => return some (forms.group a)
      | none =>
        giveUp start
        return none
    else
      expected .value
      return none

def scanOperand (forms : OperandForms α) (giveUp : Nat → Scan Unit) (inner : Scan (Option α)) : Scan (Option α) := do
  let start ← offset
  match ← scanNegation with
  | none => scanPrimary forms giveUp inner
  | some token =>
    match ← scanNegated with
    | some value => return some (forms.negated token value)
    | none =>
      giveUp start
      return none

/-! ## Between operands -/

/-- skips the blanks behind an operand; gives their number, and whether a keyword may come next -/
def scanGap : Scan (Nat × Bool) := do
  let behindGroup := (← prev) = some ')'
  let blanks ← skipBlanks
  return (blanks, 0 < blanks || behindGroup)

/-- reads the keyword or the symbol of an operator with the blanks behind it; a keyword must be spaced -/
def scanJoiner (keyword symbol : String) (spaced : Bool) : Scan (Option String) := do
  if spaced then
    if ← eatKeyword keyword then
      let _ ← skipBlanks
      return some keyword
  if ← eatSymbol symbol then
    let _ ← skipBlanks
    return some symbol
  return none

/-- whether skipped blanks join what follows: neither the end, a `)`, an operator nor a name with its `:` -/
def scanBlanksJoin (blanks : Nat) : Scan Bool := do
  if blanks = 0 then return false
  if ← atEnd then return false
  if (← peek) = some ')' then return false
  if ← atOperator then return false
  return (← peekTermName).isNone

/-- reads one element and joins it to what was read, unless there is none or it cannot be read -/
def chainRound (step : Scan (Option (Option β))) (join : α → β → α) (left : α) : Scan (α ⊕ Option α) := do
  match ← step with
  | none => return .inr none
  | some none => return .inr (some left)
  | some (some b) => return .inl (join left b)

/-- reads elements, for as long as there are any, and joins them to what was read -/
def joinAll (step : Scan (Option (Option β))) (join : α → β → α) (first : α) : Scan (Option α) :=
  loop (chainRound step join) first

/-- reads a first operand and then steps, each of which is joined to what stands left of it -/
def scanChain (operand : Scan (Option α)) (step : Scan (Option (Option β))) (join : α → β → α) : Scan (Option α) := do
  match ← operand with
  | none => return none
  | some first => joinAll step join first

/-! ## Whole texts -/

/-- reads one item and the blanks behind it, which must be there unless the text ends -/
def scanItem (item : Scan (Option α)) (gap : Expectation) : Scan (Option (Option α)) := do
  if ← atEnd then return some none
  match ← item with
  | none => return none
  | some a =>
    let blanks ← skipBlanks
    if !(← atEnd) && blanks = 0 then
      expected gap
      return none
    else return some (some a)

/-- reads a whole text as items with blanks between them -/
def scanAll (item : Scan (Option α)) (gap : Expectation) : Scan (Except Error (List α)) := do
  let _ ← skipBlanks
  match ← joinAll (scanItem item gap) (fun items a => items ++ [a]) [] with
  | some items => return .ok items
  | none => return .error (← complaint)

end Scan

end FieldSearch
