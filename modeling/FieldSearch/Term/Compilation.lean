/-
Operations compiled to calls of the builders of a term.

A value goes to the builder for matching values, a negated one to the other builder. A term without a builder for negated
values leaves the query as it is, as does a context without a term.
-/
import FieldSearch.Term.Operation
import FieldSearch.Term.Registry

namespace FieldSearch

/-- the services, and the term whose values are applied -/
structure TermContext (Q : Type) where
  services : Services
  current : Option (TermOption Q) := none

namespace TermContext

variable {Q : Type}

/-- requires a value -/
def applyMatch (ctx : TermContext Q) (value : String) (q : Q) : Q :=
  match ctx.current with
  | some t => t.builders.matching ⟨ctx.services, t.info⟩ value q
  | none => q

/-- excludes a value -/
def applyNotMatch (ctx : TermContext Q) (value : String) (q : Q) : Q :=
  match ctx.current with
  | none => q
  | some t =>
    match t.builders.notMatching? with
    | some notMatching => notMatching ⟨ctx.services, t.info⟩ value q
    | none => q

end TermContext

/-- what an operation does to a query -/
def Operation.build {Q : Type} [Query Q] (ctx : TermContext Q) : Operation → Q → Q
  | .unary value => ctx.applyMatch value
  | .notUnary _ value => ctx.applyNotMatch value
  | .and left right _ => Query.all [left.build ctx, right.build ctx]
  | .or left right _ => Query.any [left.build ctx, right.build ctx]
  | .not left value _ => Query.all [left.build ctx, ctx.applyNotMatch value]
  | .group inner => inner.build ctx

namespace TermRegistry

variable {Q : Type} [Query Q]

/-- applies a term; one that is not registered leaves the query as it is -/
def applyTerm (r : TermRegistry Q) (services : Services) (q : Q) (t : Term) : Q :=
  match r.get? t.name with
  | some option => t.operation.build ⟨services, some option⟩ q
  | none => q

/-- applies terms in their order -/
def execute (r : TermRegistry Q) (services : Services) (terms : List Term) (q : Q) : Q :=
  terms.foldl (r.applyTerm services) q

end TermRegistry

end FieldSearch
