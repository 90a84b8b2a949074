/-
JSON values.

- An object keeps its members as they were read: in order, repeated keys included.
- `canonical` orders the members of every object by key and keeps the last of repeated ones, which is the form of
  records.
-/
import FieldSearch.Decimal.Reading

namespace FieldSearch

/-- a JSON number: a whole number of 64 bits, with sign or without, or a double -/
inductive JsonNumber where
  | int (n : Int)
  | float (x : Float)

/-- a JSON value -/
inductive Json where
  | null
  | bool (b : Bool)
  | number (n : JsonNumber)
  | string (s : String)
  | array (items : List Json)
  | object (members : List (String × Json))
deriving Inhabited

namespace Json

/-- the whole number `n` -/
def int (n : Int) : Json := .number (.int n)

/-- the whole number `n` -/
def nat (n : Nat) : Json := .number (.int n)

/-- a value put at its key into members ordered by key; a member of the same key is replaced -/
def insertMember (key : String) (value : Json) : List (String × Json) → List (String × Json)
  | [] => [(key, value)]
  | (k, v) :: members =>
    if key < k then (key, value) :: (k, v) :: members
    else if key = k then (key, value) :: members
    else (k, v) :: insertMember key value members

/-- members ordered by key, of repeated keys the last -/
def orderMembers (members : List (String × Json)) : List (String × Json) :=
  members.foldl (fun ordered (key, value) => insertMember key value ordered) []

mutual

/-- the value with the members of every object ordered by key, of repeated keys the last -/
def canonical : Json → Json
  | .array items => .array (canonicalItems items)
  | .object members => .object (orderMembers (canonicalMembers members))
  | value => value

/-- `canonical` for items -/
def canonicalItems : List Json → List Json
  | [] => []
  | item :: items => item.canonical :: canonicalItems items

/-- `canonical` for the values of members -/
def canonicalMembers : List (String × Json) → List (String × Json)
  | [] => []
  | (key, value) :: members => (key, value.canonical) :: canonicalMembers members

end

mutual

/-- how deep values are nested in a value -/
def depth : Json → Nat
  | .array items => itemsDepth items + 1
  | .object members => membersDepth members + 1
  | _ => 0

/-- how deep values are nested in the deepest of several items -/
def itemsDepth : List Json → Nat
  | [] => 0
  | item :: items => max item.depth (itemsDepth items)

/-- how deep values are nested in the deepest value of several members -/
def membersDepth : List (String × Json) → Nat
  | [] => 0
  | (_, value) :: members => max value.depth (membersDepth members)

end

/-- the first member of a key -/
def member? (key : String) : List (String × Json) → Option Json
  | [] => none
  | (k, v) :: members => if k = key then some v else member? key members

/-- the member of a key, if the value is an object that has one -/
def get? (value : Json) (key : String) : Option Json :=
  match value with
  | .object members => member? key members
  | _ => none

end Json

end FieldSearch
