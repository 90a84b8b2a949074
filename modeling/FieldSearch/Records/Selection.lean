/-
Selections: queries over JSON records held in memory.

- A selection is an ascending list of places of records, with the sort keys set so far.
- `any` collects the places that its branches select, `all` keeps those that every branch selects. Each branch starts from
  the whole selection, and its sort keys are dropped.
- `results` sorts by the keys, the first one first, and leaves records that no key tells apart in their order.
-/
import FieldSearch.Json.Reader
import FieldSearch.Error
import FieldSearch.Query.Basic
import FieldSearch.Records.Evaluation

namespace FieldSearch

/-- selected records and the keys to sort them by -/
structure Selection where
  records : Array Json
  /-- the places of the selected records -/
  selected : List Nat
  order : List (String × Direction)

/-- the list with `a` put in from its end on: behind the last element that `a` does not come before -/
def insertFromEnd {α : Type} (before : α → α → Bool) (a : α) : List α → List α
  | [] => [a]
  | b :: reversed => if before a b then b :: insertFromEnd before a reversed else a :: b :: reversed

/-- a list in order; what has no order among itself stays as it was -/
def stableSort {α : Type} (before : α → α → Bool) (as : List α) : List α :=
  (as.foldl (fun reversed a => insertFromEnd before a reversed) []).reverse

/-- ascending places with one more among them -/
def insertPlace (i : Nat) : List Nat → List Nat
  | [] => [i]
  | j :: places =>
    if i < j then i :: j :: places
    else if i = j then j :: places
    else j :: insertPlace i places

/-- places in ascending order, each one once -/
def placeSet (places : List Nat) : List Nat := places.foldr insertPlace []

namespace Selection

/-- all of the records, unsorted -/
def ofRecords (records : List Json) : Selection := ⟨records.toArray, List.range records.length, []⟩

/-- all records of a JSON text -/
def ofJson (text : String) : Except Error Selection :=
  match Json.parse? text with
  | none => .error .json
  | some value =>
    match value.canonical with
    | .array records => .ok (ofRecords records)
    | _ => .error (.config .recordsNotArray)

/-- how many records are selected -/
def size (s : Selection) : Nat := s.selected.length

/-- the record at a place -/
def record (s : Selection) (i : Nat) : Json := s.records.getD i .null

/-- keeps the selected records that satisfy a predicate -/
def filter (predicate : Predicate) (s : Selection) : Selection :=
  { s with selected := s.selected.filter fun i => predicate.holds (s.record i) }

/-- the selections that branches make of one selection -/
def branchSelections (branches : List (Selection → Selection)) (s : Selection) : List (List Nat) :=
  branches.map fun branch => (branch s).selected

/-- selects the records that some branch selects -/
def any (branches : List (Selection → Selection)) (s : Selection) : Selection :=
  { s with selected := placeSet (branchSelections branches s).flatten }

/-- keeps the selected records that every branch selects -/
def all (branches : List (Selection → Selection)) (s : Selection) : Selection :=
  let selections := branchSelections branches s
  { s with selected := (placeSet s.selected).filter fun i => selections.all (·.contains i) }

instance : Query Selection where
  filter := filter
  orderBy direction property s := { s with order := [(property, direction)] }
  thenBy direction property s := { s with order := s.order ++ [(property, direction)] }
  any := any
  all := all

/-- the order of two records by several keys: the first key that tells them apart decides -/
def compareBy : List (String × Direction) → Json → Json → Ordering
  | [], _, _ => .eq
  | (property, direction) :: keys, a, b =>
    (compareKeys direction (lookup a property) (lookup b property)).then (compareBy keys a b)

/-- the places of the selected records in the order of the keys -/
def sorted (s : Selection) : List Nat :=
  stableSort (fun i j => compareBy s.order (s.record i) (s.record j) == .lt) s.selected

/-- the selected records in the order of the keys -/
def results (s : Selection) : List Json := s.sorted.map s.record

end Selection

end FieldSearch
