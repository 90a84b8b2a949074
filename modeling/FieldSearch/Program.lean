/-
Programs over a store.

- A program reads and writes its store step by step and may be refused on the way. A refusal undoes nothing: the store stays
  as the steps before left it.
- Tables are written by key: an entry goes in the place of the one that its key had, or behind the others.
- A registration takes the key of the name, looks whether it is taken, and writes the table.
-/
import FieldSearch.Registry

namespace FieldSearch

/-- a program over a store -/
abbrev Program (σ : Type) := ExceptT Error (StateM σ)

namespace Program

variable {σ τ α : Type}

/-- what a program answers, and the store that it leaves -/
def on (p : Program σ α) (s : σ) : Except Error α × σ := p.run.run s

/-- the store that a program leaves, also if it was refused -/
def after (p : Program σ α) (s : σ) : σ := (p.on s).2

/-- a program over a part of a store -/
def within (part : τ → σ) (replace : σ → τ → τ) (p : Program σ α) : Program τ α :=
  ExceptT.mk fun t => ((p.on (part t)).1, replace (p.after (part t)) t)

end Program

namespace Registry

variable {α : Type}

/-- the key of a name that may be registered -/
def keyOf (name : String) : Except Error String :=
  if !isIdentifier name then .error (.invalidName name) else .ok (nameKey name)

/-- the entry of a key -/
def atKey? (r : Registry α) (key : String) : Option α := lookup key r.entries

/-- whether a key is taken -/
def holds (r : Registry α) (key : String) : Bool := (r.atKey? key).isSome

/-- entries with one under a key -/
def put (key : String) (a : α) : List (String × α) → List (String × α)
  | [] => [(key, a)]
  | (k, b) :: rest => if k = key then (key, a) :: rest else (k, b) :: put key a rest

/-- the table with an entry under a key -/
def insert (r : Registry α) (key : String) (a : α) : Registry α := ⟨put key a r.entries⟩

/-- registers an entry under a name -/
def addM (name : String) (a : α) : Program (Registry α) Unit := do
  let key ← keyOf name
  if (← get).holds key then
    throw (.duplicateTerm name)
  modify fun r => r.insert key a

end Registry

end FieldSearch
