/-
Replies of readers: what was read, where reading goes on, and the furthest failure met on the way.

- A reader is a function from a cursor to a reply. Its value never depends on the failures, which are only collected.
- `chain` repeats a step for as long as it gives elements. Every element must leave less text than before, so the
  length of what is left bounds the repetition.
- `readAll` reads a whole text as items with blanks between them.
-/
import FieldSearch.Grammar.Cursor
import FieldSearch.Error

namespace FieldSearch

/-- what a reader answers -/
structure Reply (α : Type) where
  /-- what was read and the place behind it -/
  value : Option (α × Cursor)
  /-- the furthest failure met on the way, also of ways that were given up -/
  failure : Option Failure

namespace Reply

variable {α β : Type}

/-- the reply of having read `a` up to `c` -/
def done (a : α) (c : Cursor) : Reply α := ⟨some (a, c), none⟩

/-- the reply of an unmet expectation at `c` -/
def fail (expectation : Expectation) (c : Cursor) : Reply α := ⟨none, some ⟨c.offset, expectation⟩⟩

/-- the reply of a reader that names no expectation of its own -/
def ofOption (r : Option (α × Cursor)) : Reply α := ⟨r, none⟩

/-- goes on from what was read -/
def bind (r : Reply α) (next : α → Cursor → Reply β) : Reply β :=
  match r.value with
  | none => ⟨none, r.failure⟩
  | some (a, c) => ⟨(next a c).value, furthest r.failure (next a c).failure⟩

/-- changes what was read -/
def map (f : α → β) (r : Reply α) : Reply β :=
  ⟨r.value.map fun (a, c) => (f a, c), r.failure⟩

/-- asks a second reader if the first read nothing -/
def orElse (r : Reply α) (other : Unit → Reply α) : Reply α :=
  match r.value with
  | some _ => r
  | none => ⟨(other ()).value, furthest r.failure (other ()).failure⟩

/-- reads nothing at `c` where the reader failed -/
def orNone (r : Reply α) (c : Cursor) : Reply (Option α) :=
  match r.value with
  | some (a, c') => ⟨some (some a, c'), r.failure⟩
  | none => ⟨some (none, c), r.failure⟩

end Reply

/-- reads elements for as long as `step` gives one and text gets used up by it -/
def chain {α : Type} (step : Cursor → Reply (Option α)) (c : Cursor) : Reply (List α) :=
  (step c).bind fun found behind =>
    match found with
    | none => .done [] behind
    | some a =>
      if behind.rest.length < c.rest.length then (chain step behind).map (a :: ·) else .done [a] behind
termination_by c.rest.length

/-- what is reported when reading stops at `c`: the furthest failure, unless reading got past it -/
def complaintAt (c : Cursor) (failure : Option Failure) : Error :=
  let here := match c.peek with
    | some a => Error.parse c.offset (.unexpectedChar a)
    | none => Error.parse c.offset .unexpectedEnd
  match failure with
  | none => here
  | some f => if c.offset ≤ f.offset then .parse f.offset (.expected f.expectation) else here

/-- reads one item and the blanks behind it, which must be there unless the text ends -/
def itemStep {α : Type} (item : Cursor → Reply α) (gap : Expectation) (c : Cursor) : Reply (Option α) :=
  if c.atEnd then .done none c
  else (item c).bind fun a behind =>
    if behind.blanks = 0 && !behind.atEnd then .fail gap behind else .done (some a) behind.skipBlanks

/-- reads a whole text as items with blanks between them -/
def readAll {α : Type} (item : Cursor → Reply α) (gap : Expectation) (text : String) : Except Error (List α) :=
  let first := (Cursor.start text).skipBlanks
  let reply := chain (itemStep item gap) first
  match reply.value with
  | some (items, _) => .ok items
  | none => .error (complaintAt first reply.failure)

/-- reads a quoted value; a missing last quote is a failure at the end of the text -/
def Cursor.quoted (c : Cursor) : Reply String :=
  match c.eatChar '"' with
  | none => ⟨none, none⟩
  | some inside =>
    match Cursor.scanQuoted inside.rest with
    | some (value, n) => .done (String.ofList value) (inside.advance n)
    | none => .fail .closingQuote (inside.advance inside.rest.length)

end FieldSearch
