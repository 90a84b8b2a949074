/-
Traces: the query that does nothing but record the calls it receives.

Each branch of `any` and `all` runs on an empty trace of its own, and its calls are recorded as one list. Notes are
entries that the builders of an application leave.
-/
import FieldSearch.Query.Basic

namespace FieldSearch

/-- a call that a query received -/
inductive Call (ν : Type) where
  | filter (predicate : Predicate)
  | orderBy (direction : Direction) (property : String)
  | thenBy (direction : Direction) (property : String)
  | any (branches : List (List (Call ν)))
  | all (branches : List (List (Call ν)))
  | note (entry : ν)

/-- the calls received so far, the first one first -/
structure Trace (ν : Type) where
  calls : List (Call ν) := []

namespace Trace

variable {ν : Type}

/-- the trace with a call more -/
def record (call : Call ν) (t : Trace ν) : Trace ν := ⟨t.calls ++ [call]⟩

def branchCalls (branch : Trace ν → Trace ν) : List (Call ν) := (branch {}).calls

instance : Query (Trace ν) where
  filter predicate := record (.filter predicate)
  orderBy direction property := record (.orderBy direction property)
  thenBy direction property := record (.thenBy direction property)
  any branches := record (.any (branches.map branchCalls))
  all branches := record (.all (branches.map branchCalls))

end Trace

end FieldSearch
