/-
What the two grammars share: operands and the words between them.

- An operand is a value, a negated value or a parenthesised expression. A negation takes a single value, never a group.
- Operands are joined by a keyword or a symbol. A keyword needs a blank or a `)` in front of it, a symbol does not. A
  blank alone joins too, unless an operator, a name with its `:` or a `)` follows.
- `leftChain` reads operands and joins them from the left.
-/
import FieldSearch.Grammar.Reply

namespace FieldSearch

/-- how the operands of an expression are put into a tree -/
structure OperandForms (α : Type) where
  /-- a value -/
  single : String → α
  /-- a negated value with the token that negates it -/
  negated : String → String → α
  /-- an expression in parentheses -/
  group : α → α

/-- reads a value: quoted, else a bare word -/
def readValue (c : Cursor) : Reply String :=
  c.quoted.orElse fun _ => .ofOption c.bareWord

/-- reads a negation and gives its token -/
def readNegation (c : Cursor) : Option (String × Cursor) :=
  if c.atKeyword "NOT" then some ("NOT", c.advance 3)
  else if c.startsWith "!" then some ("!", c.bump)
  else if c.startsWith "-" then some ("-", c.bump)
  else none

/-- reads the value behind a negation; blanks in front of it are skipped and a group is refused -/
def readNegated (c : Cursor) : Reply String :=
  let c := c.skipBlanks
  if c.peek = some '(' then .fail .negatedGroup c
  else (readValue c).orElse fun _ => .fail .negatedValue c

/-- reads `)` behind an expression -/
def closeGroup {α : Type} (a : α) (c : Cursor) : Reply α :=
  match c.skipBlanks.eatChar ')' with
  | some behind => .done a behind
  | none => .fail .closingParen c.skipBlanks

variable {α : Type}

/-- reads a value or a parenthesised expression, which `inner` reads -/
def readPrimary (forms : OperandForms α) (inner : Cursor → Reply α) (c : Cursor) : Reply α :=
  ((readValue c).map forms.single).orElse fun _ =>
    match c.eatChar '(' with
    | none => .fail .value c
    | some inside => (inner inside.skipBlanks).bind fun a behind => closeGroup (forms.group a) behind

def readOperand (forms : OperandForms α) (inner : Cursor → Reply α) (c : Cursor) : Reply α :=
  match readNegation c with
  | some (token, behind) => (readNegated behind).map (forms.negated token)
  | none => readPrimary forms inner c

/-! ## Between operands -/

/-- whether a keyword may come next: behind a blank or a `)` -/
def spaced (c : Cursor) : Bool := 0 < c.blanks || c.prev == some ')'

/-- reads the keyword or the symbol of an operator with the blanks around it -/
def readJoiner (keyword symbol : String) (c : Cursor) : Option (String × Cursor) :=
  let behind := c.skipBlanks
  if spaced c && behind.atKeyword keyword then some (keyword, (behind.advance keyword.length).skipBlanks)
  else if behind.startsWith symbol then some (symbol, (behind.advance symbol.length).skipBlanks)
  else none

/-- whether blanks alone join what follows: they are there, and neither the end, a `)`, an operator nor a name with its
`:` comes behind them -/
def blanksJoin (c : Cursor) : Bool :=
  let behind := c.skipBlanks
  0 < c.blanks && !behind.atEnd && behind.peek != some ')' && !behind.atOperator && behind.peekTermName.isNone

/-- the token of an operator that is only blanks -/
def blankToken : String := " "

/-- reads a first operand and then steps, each of which is joined to what stands left of it -/
def leftChain {β : Type} (operand : Cursor → Reply α) (step : Cursor → Reply (Option β)) (join : α → β → α)
    (c : Cursor) : Reply α :=
  (operand c).bind fun first behind => (chain step behind).map fun links => links.foldl join first

end FieldSearch
