/-
Predicates: boolean conditions over the properties of a record.

- Text is matched by containment, every other kind by equality with a constant.
- `Predicate.conj` and `Predicate.disj` take up the children of operands of their own kind, so that chains stay flat.
-/
import FieldSearch.Query.Constant

namespace FieldSearch

/-- a condition over the properties of a record -/
inductive Predicate where
  | contains (property value : String)
  | notContains (property value : String)
  | equals (property : String) (value : Constant)
  | notEquals (property : String) (value : Constant)
  | and (children : List Predicate)
  | or (children : List Predicate)

namespace Predicate

/-- what a value must satisfy to match a property -/
def matching (property : String) (kind : FieldKind) (value : String) : Predicate :=
  match kind with
  | .text => .contains property value
  | kind => .equals property (.coerce value kind)

/-- what a value must satisfy not to match a property -/
def notMatching (property : String) (kind : FieldKind) (value : String) : Predicate :=
  match kind with
  | .text => .notContains property value
  | kind => .notEquals property (.coerce value kind)

/-- the children of a conjunction, any other predicate alone -/
def conjuncts : Predicate → List Predicate
  | .and children => children
  | p => [p]

/-- the children of a disjunction, any other predicate alone -/
def disjuncts : Predicate → List Predicate
  | .or children => children
  | p => [p]

/-- both hold -/
def conj (left right : Predicate) : Predicate := .and (left.conjuncts ++ right.conjuncts)

/-- one of the two holds -/
def disj (left right : Predicate) : Predicate := .or (left.disjuncts ++ right.disjuncts)

end Predicate

end FieldSearch
