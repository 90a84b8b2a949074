/-
The store of terms, and what a registration does to it step by step.

- The terms stand in a table by key. The order of registration and the key of the default term are kept beside it.
- A registration sets the default key first, then the order, then the table; all checks come before.
-/
import FieldSearch.Program
import FieldSearch.Term.Registry

namespace FieldSearch

/-- registered terms, their order and their default term -/
structure TermStore (Q : Type) where
  options : Registry (TermOption Q) := {}
  /-- the keys in the order of registration -/
  order : List String := []
  /-- the key of the default term -/
  defaultKey : Option String := none

namespace TermStore

variable {Q : Type}

/-- registers a term -/
def registerM (t : TermOption Q) : Program (TermStore Q) Unit := do
  let key ← Registry.keyOf t.name
  if (← get).options.holds key then
    throw (.duplicateTerm t.name)
  if t.isDefault then
    if let some existing := (← get).defaultKey then
      throw (.defaultTermSet existing)
    modify fun store => { store with defaultKey := some key }
  modify fun store => { store with order := store.order ++ [key] }
  modify fun store => { store with options := store.options.insert key t }

def get? (store : TermStore Q) (name : String) : Option (TermOption Q) := store.options.atKey? (nameKey name)

def default? (store : TermStore Q) : Option (TermOption Q) := store.defaultKey.bind store.options.atKey?

/-- the registered terms in the order of their registration -/
def toList (store : TermStore Q) : List (TermOption Q) := store.order.filterMap store.options.atKey?

/-- the number of registered terms -/
def size (store : TermStore Q) : Nat := store.options.entries.length

/-- the store after some registrations, of which some may be refused -/
def registerAll (terms : List (TermOption Q)) (store : TermStore Q) : TermStore Q :=
  terms.foldl (fun store t => (registerM t).after store) store

end TermStore

end FieldSearch
