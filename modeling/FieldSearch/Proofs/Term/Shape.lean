/-
The shape of operations that can be written down: which trees the value of a term spells out.

- `AND` binds tighter than `OR` and `NOT`, and all of them join from the left, so neither `OR` nor `NOT` stands directly
  under `AND`, and what stands right of `OR` is a chain of `AND`.
- A blank stands for `OR` only where no negation comes next; it never stands for `AND`.
-/
import FieldSearch.Proofs.Grammar.Operand
import FieldSearch.Term.Operation

namespace FieldSearch.Operation

/-- whether an operation is a value or a group -/
def isOperand : Operation → Bool
  | .unary _ => true
  | .notUnary .. => true
  | .group _ => true
  | _ => false

/-- whether an operation is an operand or joined by `AND` -/
def isConjunction : Operation → Bool
  | .or .. => false
  | .not .. => false
  | _ => true

/-- whether an operation is a negated value -/
def isNegated : Operation → Bool
  | .notUnary .. => true
  | _ => false

/-- the leftmost operand of a chain of `AND` -/
def leading : Operation → Operation
  | .and left _ _ => left.leading
  | n => n

/-- an operation that its own text spells out -/
def WellShaped : Operation → Prop
  | .unary _ => True
  | .notUnary operator _ => operator ∈ negationTokens
  | .and left right operator =>
    left.WellShaped ∧ right.WellShaped ∧ left.isConjunction = true ∧ right.isOperand = true ∧
      (operator = "AND" ∨ operator = "&&")
  | .or left right operator =>
    left.WellShaped ∧ right.WellShaped ∧ right.isConjunction = true ∧
      (operator = "OR" ∨ operator = "||" ∨ operator = blankToken ∧ right.leading.isNegated = false)
  | .not left _ operator => left.WellShaped ∧ operator ∈ negationTokens
  | .group inner => inner.WellShaped

instance decidableWellShaped : (n : Operation) → Decidable n.WellShaped
  | .unary _ => inferInstanceAs (Decidable True)
  | .notUnary operator _ => inferInstanceAs (Decidable (operator ∈ negationTokens))
  | .and left right _ =>
    have := decidableWellShaped left
    have := decidableWellShaped right
    inferInstanceAs (Decidable (_ ∧ _ ∧ _ ∧ _ ∧ _))
  | .or left right _ =>
    have := decidableWellShaped left
    have := decidableWellShaped right
    inferInstanceAs (Decidable (_ ∧ _ ∧ _ ∧ _))
  | .not left _ _ =>
    have := decidableWellShaped left
    inferInstanceAs (Decidable (_ ∧ _))
  | .group inner => decidableWellShaped inner

/-- an operand is a chain of `AND` without a link -/
theorem conjunction_of_operand {n : Operation} (h : n.isOperand = true) : n.isConjunction = true := by
  cases n <;> simp_all [isOperand, isConjunction]

/-- and it is its own leftmost operand -/
theorem leading_of_operand {n : Operation} (h : n.isOperand = true) : n.leading = n := by
  cases n <;> simp_all [isOperand, leading]

end FieldSearch.Operation
