/-
Registries: entries under names, in the order in which they were registered.

A name must be an identifier and is taken once only, where the case of ASCII letters does not count. A refused
registration changes nothing.
-/
import FieldSearch.Error
import FieldSearch.Lexeme

namespace FieldSearch

/-- entries under the keys of their names -/
structure Registry (α : Type) where
  entries : List (String × α) := []

namespace Registry

variable {α : Type}

/-- the entry of a key -/
def lookup (key : String) : List (String × α) → Option α
  | [] => none
  | (k, a) :: rest => if k = key then some a else lookup key rest

/-- the entry of a name -/
def get? (r : Registry α) (name : String) : Option α := lookup (nameKey name) r.entries

/-- whether a name is taken -/
def has (r : Registry α) (name : String) : Bool := (r.get? name).isSome

/-- the registry with one entry more -/
def add (r : Registry α) (name : String) (a : α) : Except Error (Registry α) :=
  if !isIdentifier name then .error (.invalidName name)
  else if r.has name then .error (.duplicateTerm name)
  else .ok ⟨r.entries ++ [(nameKey name, a)]⟩

end Registry

end FieldSearch
