/-
The shape of statements that can be written down: which trees the text of a query spells out.

- `AND` binds tighter than `OR` and both join from the left, so no `OR` stands directly under `AND`, and what stands right
  of an operator is never of its own kind.
- A blank stands for `AND` only in front of a negation, and for `OR` only where none comes next.
- Unqualified text directly behind another filter would be taken up by it.
-/
import FieldSearch.Lexeme
import FieldSearch.Proofs.Grammar.Operand
import FieldSearch.Statement.Basic

namespace FieldSearch

namespace FilterExpr

/-- whether an expression is joined by `OR` -/
def isOr : FilterExpr → Bool
  | .or .. => true
  | _ => false

/-- whether an expression is a value or a group -/
def isOperand : FilterExpr → Bool
  | .unary .. => true
  | .group _ => true
  | _ => false

/-- whether an expression is a negated value -/
def isNegated : FilterExpr → Bool
  | .unary (.absent _) _ => true
  | _ => false

/-- the leftmost operand of a chain of `AND` -/
def leading : FilterExpr → FilterExpr
  | .and left _ _ => left.leading
  | e => e

/-- an expression that its own text spells out -/
def WellShaped : FilterExpr → Prop
  | .unary .present _ => True
  | .unary (.absent token) _ => token ∈ negationTokens
  | .and left right operator =>
    left.WellShaped ∧ right.WellShaped ∧ left.isOr = false ∧ right.isOperand = true ∧
      (operator = "AND" ∨ operator = "&&" ∨ operator = blankToken ∧ right.isNegated = true)
  | .or left right operator =>
    left.WellShaped ∧ right.WellShaped ∧ right.isOr = false ∧
      (operator = "OR" ∨ operator = "||" ∨ operator = blankToken ∧ right.leading.isNegated = false)
  | .group inner => inner.WellShaped

instance decidableWellShaped : (e : FilterExpr) → Decidable e.WellShaped
  | .unary .present _ => inferInstanceAs (Decidable True)
  | .unary (.absent token) _ => inferInstanceAs (Decidable (token ∈ negationTokens))
  | .and left right _ =>
    have := decidableWellShaped left
    have := decidableWellShaped right
    inferInstanceAs (Decidable (_ ∧ _ ∧ _ ∧ _ ∧ _))
  | .or left right _ =>
    have := decidableWellShaped left
    have := decidableWellShaped right
    inferInstanceAs (Decidable (_ ∧ _ ∧ _ ∧ _))
  | .group inner => decidableWellShaped inner

/-- an operand is its own leftmost operand and no `OR` -/
theorem leading_of_operand {e : FilterExpr} (h : e.isOperand = true) : e.leading = e ∧ e.isOr = false := by
  cases e with
  | unary => exact ⟨rfl, rfl⟩
  | group => exact ⟨rfl, rfl⟩
  | and => simp [isOperand] at h
  | or => simp [isOperand] at h

end FilterExpr

namespace Statement

/-- whether a statement is unqualified text -/
def isDefaultFilter : Statement → Bool
  | .defaultFilter _ => true
  | _ => false

/-- whether a statement filters -/
def isFilter : Statement → Bool
  | .defaultFilter _ => true
  | .fieldFilter .. => true
  | _ => false

/-- a statement that its own text spells out -/
def WellShaped : Statement → Prop
  | .defaultFilter e => e.WellShaped
  | .fieldFilter name e => isIdentifier name = true ∧ nameKey name ≠ "sort" ∧ e.WellShaped
  | .sort field _ => field ≠ "" ∧ ∀ a ∈ field.toList, isBlank a = false ∧ a ≠ '-'
  | .defaultSort .. => False

instance decidableWellShaped : (s : Statement) → Decidable s.WellShaped
  | .defaultFilter e => FilterExpr.decidableWellShaped e
  | .fieldFilter _ _ => inferInstanceAs (Decidable (_ ∧ _ ∧ _))
  | .sort _ _ => @instDecidableAnd _ _ inferInstance (List.decidableBAll _ _)
  | .defaultSort .. => inferInstanceAs (Decidable False)

/-- unqualified text stands directly behind no filter -/
def MayFollow (s t : Statement) : Prop := s.isFilter = true → t.isDefaultFilter = false

instance (s t : Statement) : Decidable (s.MayFollow t) := inferInstanceAs (Decidable (_ → _))

end Statement

/-- a list that its own text spells out -/
structure StatementList.WellShaped (list : StatementList) : Prop where
  each : ∀ s ∈ list.statements, s.WellShaped
  apart : list.statements.IsChain Statement.MayFollow

instance (list : StatementList) : Decidable list.WellShaped :=
  decidable_of_iff ((∀ s ∈ list.statements, s.WellShaped) ∧ list.statements.IsChain Statement.MayFollow)
    ⟨fun h => ⟨h.1, h.2⟩, fun h => ⟨h.each, h.apart⟩⟩

end FieldSearch
