/-
Queries: what an index must offer so that search texts can be run against it.

A query is narrowed by predicates, sorted by properties, and narrowed by what several branches make of it: `any` keeps
what one of them selects, `all` what every one does.
-/
import FieldSearch.Query.Direction
import FieldSearch.Query.Predicate

namespace FieldSearch

/-- a type of queries over some index -/
class Query (Q : Type) where
  /-- keeps what satisfies a predicate -/
  filter : Predicate → Q → Q
  /-- sets the primary sort key -/
  orderBy : Direction → String → Q → Q
  /-- adds a further sort key -/
  thenBy : Direction → String → Q → Q
  /-- keeps what some branch selects -/
  any : List (Q → Q) → Q → Q
  /-- keeps what every branch selects -/
  all : List (Q → Q) → Q → Q

/-- adds a sort key, the primary one if there is none yet -/
def Query.sortBy {Q : Type} [Query Q] (hasOrder : Bool) (direction : Direction) (property : String) (q : Q) : Q :=
  if hasOrder then Query.thenBy direction property q else Query.orderBy direction property q

end FieldSearch
