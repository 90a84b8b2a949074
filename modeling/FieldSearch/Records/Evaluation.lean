/-
What predicates mean for a record.

- Containment ignores case and looks at the text of a value, of an array at the text of each item.
- Equality of an array is equality of one of its items. Text is equal up to the case of ASCII letters; a whole number
  is equal as such or as a double; a date is equal to what the first ten bytes of a string say.
- A missing value satisfies neither, so it satisfies both negations.
-/
import FieldSearch.Query.Predicate
import FieldSearch.Records.Lookup
import FieldSearch.Text.Utf8

namespace FieldSearch

/-- whether a text occurs in another -/
def occursIn (needle : List Char) : List Char → Bool
  | [] => needle.isEmpty
  | c :: cs => needle.isPrefixOf (c :: cs) || occursIn needle cs

/-- whether the text of a value has a text in it, up to case -/
def hasText (needle : String) (value : Json) : Bool :=
  occursIn (lowerCase needle).toList (lowerCase (textOf value)).toList

/-- whether a value contains a text -/
def containsText (needle : String) : Option Json → Bool
  | none => false
  | some (.array items) => items.any (hasText needle)
  | some value => hasText needle value

/-- the first characters that take `n` bytes together, if a character ends there -/
def takeBytes : (n : Nat) → List Char → Option (List Char)
  | 0, _ => some []
  | _ + 1, [] => none
  | n + 1, c :: cs => if c.utf8Size ≤ n + 1 then (takeBytes (n + 1 - c.utf8Size) cs).map (c :: ·) else none
termination_by _ cs => cs.length

/-- the date at the start of a text -/
def leadingDate? (s : String) : Option Date :=
  (takeBytes 10 s.toList).bind fun cs => Date.parse? (String.ofList cs)

/-- whether a value that is no array is equal to a constant -/
def equalsScalar (value : Json) : Constant → Bool
  | .text s => sameName (textOf value) s
  | .integer n =>
    match value with
    | .number (.int m) => m == n || floatOfInt m == floatOfInt n
    | .number (.float x) => x == floatOfInt n
    | _ => false
  | .float x =>
    match value with
    | .number m => m.toFloat == x
    | _ => false
  | .boolean b =>
    match value with
    | .bool c => b == c
    | _ => false
  | .date d =>
    match value with
    | .string s => leadingDate? s == some d
    | _ => false

mutual

/-- whether a value is equal to a constant -/
def equalsConstant (constant : Constant) : Json → Bool
  | .array items => equalsAny constant items
  | .null => equalsScalar .null constant
  | .bool b => equalsScalar (.bool b) constant
  | .number n => equalsScalar (.number n) constant
  | .string s => equalsScalar (.string s) constant
  | .object members => equalsScalar (.object members) constant

/-- whether one of several values is equal to a constant -/
def equalsAny (constant : Constant) : List Json → Bool
  | [] => false
  | item :: items => equalsConstant constant item || equalsAny constant items

end

namespace Predicate

mutual

/-- whether a record satisfies a predicate -/
def holds (record : Json) : Predicate → Bool
  | .contains property value => containsText value (lookup record property)
  | .notContains property value => !containsText value (lookup record property)
  | .equals property value => (lookup record property).any (equalsConstant value)
  | .notEquals property value => !(lookup record property).any (equalsConstant value)
  | .and children => allHold record children
  | .or children => anyHolds record children

/-- whether a record satisfies every predicate -/
def allHold (record : Json) : List Predicate → Bool
  | [] => true
  | p :: ps => p.holds record && allHold record ps

/-- whether a record satisfies some predicate -/
def anyHolds (record : Json) : List Predicate → Bool
  | [] => false
  | p :: ps => p.holds record || anyHolds record ps

end

end Predicate

end FieldSearch
