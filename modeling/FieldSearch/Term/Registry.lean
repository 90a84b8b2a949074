/-
Registered terms: what each name compiles to.

- A term takes one value or a boolean combination of many, and has a builder for values that must match. It may have another
  one for values that must not, however many values it takes; `Builders.one` and `Builders.many` are the two usual kinds.
- A builder sees the services of the application and the term it is called for.
- One term at most is the default term. A refused registration changes nothing.
-/
import FieldSearch.Query.Basic
import FieldSearch.Registry

namespace FieldSearch

/-- how many values a term takes -/
inductive Condition where
  /-- one: quoted, or characters up to a blank -/
  | one
  /-- a boolean combination -/
  | many
deriving DecidableEq, Repr

/-- what an application offers to its builders: for each type of service one value at most, which is looked up by the type.
Terms are read, compiled and rendered without a look at them, so two types, texts and numbers, stand for all that there may
be. -/
structure Services where
  text : Option String := none
  number : Option Nat := none
deriving DecidableEq, Repr

/-- what is known of a registered term -/
structure TermInfo where
  name : String
  isDefault : Bool
  condition : Condition
  /-- whether there is a builder for values that must not match -/
  excludes : Bool
deriving DecidableEq, Repr

/-- what a builder sees -/
structure BuilderContext where
  services : Services
  current : TermInfo

/-- applies a value to a query -/
abbrev Builder (Q : Type) := BuilderContext → String → Q → Q

/-- how many values a term takes, and its builders for them -/
structure Builders (Q : Type) where
  condition : Condition
  /-- the builder for values that must match -/
  matching : Builder Q
  /-- the builder for values that must not match, if there is one -/
  notMatching? : Option (Builder Q)

namespace Builders

variable {Q : Type}

/-- a term for one value, which cannot be excluded -/
def one (matching : Builder Q) : Builders Q := ⟨.one, matching, none⟩

/-- a term for a combination of values -/
def many (matching notMatching : Builder Q) : Builders Q := ⟨.many, matching, some notMatching⟩

end Builders

/-- a term to register -/
structure TermOption (Q : Type) where
  name : String
  isDefault : Bool
  builders : Builders Q

/-- what is known of a term -/
def TermOption.info {Q : Type} (t : TermOption Q) : TermInfo :=
  ⟨t.name, t.isDefault, t.builders.condition, t.builders.notMatching?.isSome⟩

/-- registered terms -/
structure TermRegistry (Q : Type) where
  terms : Registry (TermOption Q) := {}
  /-- the key of the default term -/
  defaultKey : Option String := none

namespace TermRegistry

variable {Q : Type}

/-- the key of the default term once a term is registered, or the refusal of a second default term -/
def nextDefault (r : TermRegistry Q) (t : TermOption Q) : Except Error (Option String) :=
  if !t.isDefault then .ok r.defaultKey
  else
    match r.defaultKey with
    | some existing => .error (.defaultTermSet existing)
    | none => .ok (some (nameKey t.name))

def register (r : TermRegistry Q) (t : TermOption Q) : Except Error (TermRegistry Q) := do
  let terms ← r.terms.add t.name t
  let defaultKey ← r.nextDefault t
  return { terms, defaultKey }

/-- registers terms one after the other, up to the first that is refused -/
def ofTerms (terms : List (TermOption Q)) : Except Error (TermRegistry Q) :=
  terms.foldlM register {}

def get? (r : TermRegistry Q) (name : String) : Option (TermOption Q) := r.terms.get? name

def default? (r : TermRegistry Q) : Option (TermOption Q) := r.defaultKey.bind fun key => Registry.lookup key r.terms.entries

/-- the registered terms in the order of their registration -/
def toList (r : TermRegistry Q) : List (TermOption Q) := r.terms.entries.map Prod.snd

end TermRegistry

end FieldSearch
