/-
What the normalized text of an operation fixes.

- `parse_normalized`: behind the name of a term for many values the normalized text of every operation, whatever its shape,
  is read as its canonical operation. `canonical_of_normalized`: so the text fixes the canonical operation.
- `normalized_canonical`: what is read has the same normalized text and asks the same of every query. Operations with the
  same normalized text therefore ask the same.
-/
import FieldSearch.Proofs.Term.Normalization
import FieldSearch.Proofs.Term.Precedence

namespace FieldSearch

namespace TermRegistry

variable {Q : Type} {r : TermRegistry Q}

/-- the normalized text of an operation is read as its canonical one -/
theorem parse_normalized (hr : r.Keyed) {name : String} {t : TermOption Q} (ht : r.get? name = some t)
    (hmany : t.builders.condition = .many) (n : Operation) :
    r.parse (name ++ ":" ++ n.normalized) = .ok [.named t.name n.canonical] := by
  rw [← n.canonical_literal]
  exact parse_named hr ht hmany n.canonical_wellShaped

/-- operations with the same normalized text have the same canonical one -/
theorem canonical_of_normalized (hr : r.Keyed) {name : String} {t : TermOption Q} (ht : r.get? name = some t)
    (hmany : t.builders.condition = .many) {m n : Operation} (h : m.normalized = n.normalized) :
    m.canonical = n.canonical := by
  have hm := parse_normalized hr ht hmany m
  rw [h, parse_normalized hr ht hmany n] at hm
  simpa using hm.symm

/-- **The normalized text of an operation fixes what it asks.** Behind any name that leads to a term for many values the
normalized text of any operation is read as one term, with an operation that has the same normalized text and makes the
same calls on every query, nested in the same way. Operations with the same normalized text therefore make the same
calls. -/
theorem normalized_canonical {options : List (TermOption Q)} (hr : ofTerms options = .ok r) {name : String}
    {t : TermOption Q} (ht : r.get? name = some t) (hmany : t.builders.condition = .many) (n : Operation) :
    (∃ read : Operation, r.parse (name ++ ":" ++ n.normalized) = .ok [.named t.name read] ∧
        read.normalized = n.normalized ∧ read.requests = n.requests ∧
        ∀ {Q' : Type} [Query Q'] (ctx : TermContext Q') (q : Q'), read.build ctx q = n.build ctx q) ∧
      ∀ m : Operation, m.normalized = n.normalized → m.requests = n.requests ∧
        ∀ {Q' : Type} [Query Q'] (ctx : TermContext Q') (q : Q'), m.build ctx q = n.build ctx q := by
  have hkeyed := ofTerms_keyed hr
  have hbuild : ∀ {m : Operation}, m.requests = n.requests → ∀ {Q' : Type} [Query Q'] (ctx : TermContext Q') (q : Q'),
      m.build ctx q = n.build ctx q := by
    intro m h Q' _ ctx q
    rw [m.build_eq_perform, n.build_eq_perform, h]
  refine ⟨⟨n.canonical, parse_normalized hkeyed ht hmany n, n.canonical_normalized, n.requests_canonical, ?_⟩,
    fun m h => ?_⟩
  · exact hbuild n.requests_canonical
  · have hrequests : m.requests = n.requests := by
      rw [← m.requests_canonical, canonical_of_normalized hkeyed ht hmany h, n.requests_canonical]
    exact ⟨hrequests, hbuild hrequests⟩

/-- an operation that no text says: an `OR` under an `AND`, groups in groups, exclusions in exclusions, and operators that are
none -/
def oddOperation : Operation :=
  .and (.or (.group (.group (.unary "a"))) (.notUnary "~" "OR") "then") (.not (.not (.unary "") "b" "") "c d" "-") ""

/-- the term for many values of the registry with notes -/
def notedTerm : TermOption (Trace String) := ⟨"t", true, .many (noted "+") (noted "-")⟩

theorem normalized_canonical_odd :
    ofTerms notedTerms = .ok notedRegistry ∧ notedRegistry.get? "T" = some notedTerm ∧ ¬oddOperation.WellShaped ∧
      ∃ read : Operation,
        notedRegistry.parse "T:(((a) OR NOT \"OR\") AND ((\"\" NOT b) NOT \"c d\"))" = .ok [.named "t" read] ∧
        read.normalized = "(((a) OR NOT \"OR\") AND ((\"\" NOT b) NOT \"c d\"))" ∧
        (read.build ⟨{}, some notedTerm⟩ ({} : Trace String)).calls =
          [.all [[.any [[.note "+a"], [.note "-OR"]]], [.all [[.all [[.note "+"], [.note "-b"]]], [.note "-c d"]]]]] := by
  have hr : ofTerms notedTerms = .ok notedRegistry := rfl
  have ht : notedRegistry.get? "T" = some notedTerm := rfl
  have htext : oddOperation.normalized = "(((a) OR NOT \"OR\") AND ((\"\" NOT b) NOT \"c d\"))" := by decide
  obtain ⟨⟨read, hread, hnormalized, -, hbuild⟩, -⟩ := normalized_canonical hr ht rfl oddOperation
  rw [htext] at hread hnormalized
  refine ⟨hr, ht, by decide, read, hread, hnormalized, ?_⟩
  rw [hbuild]
  rfl

end TermRegistry

end FieldSearch
