/-
Sort directions.
-/

namespace FieldSearch

/-- the direction of a sort key -/
inductive Direction where
  | ascending
  | descending
deriving DecidableEq, Repr

end FieldSearch
