/-
TOML as documents.

- Nothing has no form of its own, so what is given is there.
- A word may also be the key of an empty table or an empty list, alone in its table.
- A record is a table, or a list of its first fields. What follows in such a list is passed over.
-/
import FieldSearch.Schema.Document
import FieldSearch.Toml.Value

namespace FieldSearch.Toml.Value

def asText? : Value → Option String
  | .text s => some s
  | _ => none

/-- a truth value -/
def asBool? : Value → Option Bool
  | .bool b => some b
  | _ => none

/-- a word, or the key of what is empty -/
def asWord? : Value → Option String
  | .text s => some s
  | .table [(key, .table [])] => some key
  | .table [(key, .list [])] => some key
  | _ => none

/-- the items of a list -/
def asList? : Value → Option (List Value)
  | .list items => some items
  | _ => none

/-- the fields of a table, or of a list -/
def asRecord? (names : List String) : Value → Option (List (Option Value))
  | .table members => Document.ofMembers? names members
  | .list items => some (Document.ofItems names items)
  | _ => none

instance : Document Value := ⟨asText?, asBool?, asWord?, fun v => some (some v), asList?, asRecord?⟩

end FieldSearch.Toml.Value
