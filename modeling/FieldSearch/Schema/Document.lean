/-
Documents: what schema files say, before they are read as a schema.

- Every format has values of its own and its own way to say a text, a truth value, one of several words, nothing, a list
  or a record. A `Document` answers each of these questions; an answer `none` refuses the file.
- A record is asked for by the names of its fields. A field may be missing, fields that are not known are passed over,
  and a known one may not stand twice.
-/
namespace FieldSearch

/-- values of a format that a schema is read from -/
class Document (α : Type) where
  /-- the text at a place -/
  asText? : α → Option String
  /-- the truth value at a place -/
  asBool? : α → Option Bool
  /-- the word at a place, where one of several is asked for -/
  asWord? : α → Option String
  /-- what stands at a place where there may be nothing -/
  asOptional? : α → Option (Option α)
  /-- the items at a place -/
  asList? : α → Option (List α)
  /-- the fields of the names at a place -/
  asRecord? : List String → α → Option (List (Option α))

/-- what is asked for at a place -/
inductive Shape where
  /-- a text, a truth value or a word -/
  | leaf
  | list (item : Shape)
  | record (fields : List (String × Shape))

namespace Document

variable {α β : Type}

/-- the member of a key, if there is one; refused if there are several -/
def uniqueMember? (members : List (String × α)) (key : String) : Option (Option α) :=
  match members.filter fun m => m.1 = key with
  | [] => some none
  | [m] => some (some m.2)
  | _ => none

/-- the fields of a record that is written as members -/
def ofMembers? (names : List String) (members : List (String × α)) : Option (List (Option α)) :=
  names.mapM (uniqueMember? members)

/-- the fields of a record that is written as the list of its first fields -/
def ofItems (names : List String) (items : List α) : List (Option α) :=
  (names.zipIdx).map fun (_, i) => items[i]?

/-- a field that must be there -/
def required (read : α → Option β) : Option α → Option β
  | some d => read d
  | none => none

/-- a field that may be missing -/
def withDefault (fallback : β) (read : α → Option β) : Option α → Option β
  | some d => read d
  | none => some fallback

/-- a field that may be missing or nothing -/
def orNothing [Document α] (read : α → Option β) : Option α → Option (Option β)
  | none => some none
  | some d => (asOptional? d).bind fun
    | none => some none
    | some d => (read d).map some

end Document

end FieldSearch
