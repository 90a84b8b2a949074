/-
JSON as documents.

- Texts, truth values and lists are written as such. A word may also be the key of an object with nothing else than
  `null` in it.
- A record is an object or a list of its first fields. All keys of such an object must stand for something, even those
  that are passed over.
-/
import FieldSearch.Json.Written
import FieldSearch.Schema.Document

namespace FieldSearch.Json.Written

def asText? : Written → Option String
  | .string s => s
  | _ => none

/-- a truth value -/
def asBool? : Written → Option Bool
  | .bool b => some b
  | _ => none

/-- a word, or the key of nothing -/
def asWord? : Written → Option String
  | .string s => s
  | .object [(key, .null)] => key
  | _ => none

/-- anything but `null` -/
def asOptional? : Written → Option (Option Written)
  | .null => some none
  | value => some (some value)

/-- the items of a list -/
def asList? : Written → Option (List Written)
  | .array items => some items
  | _ => none

/-- a member whose key stands for something -/
def namedMember? : Option String × Written → Option (String × Written)
  | (key, value) => key.map fun k => (k, value)

/-- the fields of an object, or of a list that is no longer than there are fields -/
def asRecord? (names : List String) : Written → Option (List (Option Written))
  | .object members => (members.mapM namedMember?).bind (Document.ofMembers? names)
  | .array items => if items.length ≤ names.length then some (Document.ofItems names items) else none
  | _ => none

instance : Document Written := ⟨asText?, asBool?, asWord?, asOptional?, asList?, asRecord?⟩

end FieldSearch.Json.Written
