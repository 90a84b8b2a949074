/-
Reading term queries.

  terms    = term (blanks term)*
  term     = name ":" value | value                            a value without a name is for the default term
  value    = one | many                                        as the term takes one value or many
  one      = quoted | characters up to a blank
  many     = and ((("OR" | "||" | blanks) and) | (not single))*
  and      = operand (("AND" | "&&") operand)*
  operand  = not single | single | "(" many ")"
  not      = "NOT" | "!" | "-"

- `a NOT b` stands at the level of `OR` and joins from the left: `a NOT b c` is `(a NOT b) OR c`.
- Behind an operator that was typed the operand must follow; only behind blanks may the value end.
- A name that is not registered takes one value.
-/
import FieldSearch.Grammar.Operand
import FieldSearch.Term.Operation
import FieldSearch.Term.Registry

namespace FieldSearch

namespace Operation

def forms : OperandForms Operation := ⟨.unary, .notUnary, .group⟩

/-- reads one value -/
def readOne (c : Cursor) : Reply Operation :=
  ((c.quoted.orElse fun _ => .ofOption c.nonBlank).orElse fun _ => .fail .value c).map .unary

/-- reads `AND` and its right operand -/
def readAndLink (operand : Cursor → Reply Operation) (c : Cursor) : Reply (Option (String × Operation)) :=
  match readJoiner "AND" "&&" c with
  | none => .done none c
  | some (operator, behind) => (operand behind).map fun right => some (operator, right)

/-- operands joined by `AND` -/
def readAnd (inner : Cursor → Reply Operation) : Cursor → Reply Operation :=
  leftChain (readOperand forms inner) (readAndLink (readOperand forms inner)) fun left link => .and left link.2 link.1

/-- what joins the left side of an operation -/
inductive Link where
  | or (operator : String) (right : Operation)
  | not (operator value : String)

/-- an operation with a link joined to it -/
def join (left : Operation) : Link → Operation
  | .or operator right => .or left right operator
  | .not operator value => .not left value operator

/-- reads the negation behind an operand; a keyword or `-` needs a blank or a `)` in front of it -/
def readNotToken (c : Cursor) : Option (String × Cursor) :=
  let behind := c.skipBlanks
  if spaced c && behind.atKeyword "NOT" then some ("NOT", behind.advance 3)
  else if behind.startsWith "!" then some ("!", behind.bump)
  else if spaced c && behind.startsWith "-" then some ("-", behind.bump)
  else none

/-- reads a link; `and` reads the right operand of `OR` -/
def readLink (and : Cursor → Reply Operation) (c : Cursor) : Reply (Option Link) :=
  match readJoiner "OR" "||" c with
  | some (operator, behind) => (and behind).map fun right => some (.or operator right)
  | none =>
    match readNotToken c with
    | some (operator, behind) => (readNegated behind).map fun value => some (.not operator value)
    | none =>
      if blanksJoin c then ((and c.skipBlanks).map (Link.or blankToken)).orNone c
      else .done none c

/-- a combination of values whose groups `inner` reads -/
def readManyWith (inner : Cursor → Reply Operation) : Cursor → Reply Operation :=
  leftChain (readAnd inner) (readLink (readAnd inner)) join

/-- reads a combination of values; a group is read where less text is left -/
def readMany (c : Cursor) : Reply Operation :=
  readManyWith (fun inside => if inside.rest.length < c.rest.length then readMany inside else ⟨none, none⟩) c
termination_by c.rest.length

/-- reads as many values as a term takes -/
def read : Condition → Cursor → Reply Operation
  | .one => readOne
  | .many => readMany

end Operation

namespace TermRegistry

variable {Q : Type}

def readTerm (r : TermRegistry Q) (c : Cursor) : Reply Term :=
  match c.termName with
  | some (name, behind) =>
    match r.get? name with
    | some t => (Operation.read t.builders.condition behind.skipBlanks).map (.named t.name)
    | none => (Operation.read .one behind.skipBlanks).map (.named name)
  | none =>
    match r.default? with
    | some t => (Operation.read t.builders.condition c).map (.default t.name)
    | none => .fail .termName c

def parse (r : TermRegistry Q) (text : String) : Except Error (List Term) :=
  readAll r.readTerm .termBreak text

/-- the terms of a text, none if it is malformed -/
def parseOrEmpty (r : TermRegistry Q) (text : String) : List Term :=
  match r.parse text with
  | .ok terms => terms
  | .error _ => []

/-- a text in normalized form -/
def normalize (r : TermRegistry Q) (text : String) : Except Error String :=
  (r.parse text).map normalizedTerms

end TermRegistry

end FieldSearch
