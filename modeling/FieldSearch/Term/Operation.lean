/-
Operations: the value of a term as a tree of boolean operators, and terms themselves.

- The tokens that were typed are kept, so that an operation can be written back as it was.
- `left NOT value` stands beside `AND` and `OR`: `left` must match and the value must not. Only a single value can be
  negated.
-/
import FieldSearch.Statement.Writing

namespace FieldSearch

/-- the boolean structure of the value of a term -/
inductive Operation where
  | unary (value : String)
  | notUnary (operator value : String)
  | and (left right : Operation) (operator : String)
  | or (left right : Operation) (operator : String)
  | not (left : Operation) (value operator : String)
  | group (inner : Operation)
deriving DecidableEq, Repr

namespace Operation

/-- an operation as it was typed -/
def literal : Operation → String
  | .unary value => writeValue value
  | .notUnary operator value => writeNegated operator value
  | .and left right operator => joinOperands left.literal operator right.literal
  | .or left right operator => joinOperands left.literal operator right.literal
  | .not left value operator => left.literal ++ " " ++ writeNegated operator value
  | .group inner => "(" ++ inner.literal ++ ")"

/-- an operation in normalized form; a group adds parentheses only around a lone value -/
def normalized : Operation → String
  | .unary value => writeValue value
  | .notUnary _ value => "NOT " ++ writeValue value
  | .and left right _ => "(" ++ left.normalized ++ " AND " ++ right.normalized ++ ")"
  | .or left right _ => "(" ++ left.normalized ++ " OR " ++ right.normalized ++ ")"
  | .not left value _ => "(" ++ left.normalized ++ " NOT " ++ writeValue value ++ ")"
  | .group (.unary value) => "(" ++ writeValue value ++ ")"
  | .group (.notUnary _ value) => "(NOT " ++ writeValue value ++ ")"
  | .group inner => inner.normalized

end Operation

/-- a term of a query -/
inductive Term where
  /-- a value under a name -/
  | named (name : String) (operation : Operation)
  /-- unqualified text, bound to the default term of a name -/
  | default (name : String) (operation : Operation)
deriving DecidableEq, Repr

namespace Term

/-- the name of the term that the value is for -/
def name : Term → String
  | .named name _ => name
  | .default name _ => name

/-- the value -/
def operation : Term → Operation
  | .named _ operation => operation
  | .default _ operation => operation

/-- a term as it was typed -/
def literal : Term → String
  | .named name operation => name ++ ":" ++ operation.literal
  | .default _ operation => operation.literal

/-- a term in normalized form, always with its name -/
def normalized (t : Term) : String := t.name ++ ":" ++ t.operation.normalized

end Term

/-- terms as they were typed -/
def literalTerms (terms : List Term) : String := joinSpaced (terms.map Term.literal)

/-- terms in normalized form -/
def normalizedTerms (terms : List Term) : String := joinSpaced (terms.map Term.normalized)

end FieldSearch
