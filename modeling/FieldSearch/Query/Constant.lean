/-
Typed constants, made from the text of a search value.

`Constant.coerce` never fails: text that does not read as its kind gives the kind's zero: 0, 0.0, false or the first day
of 1970. Blanks around a value do not count, except in text.
-/
import FieldSearch.Date
import FieldSearch.Lexeme

namespace FieldSearch

/-- what kind of value a property holds -/
inductive FieldKind where
  | text
  | integer
  | float
  | boolean
  | date
deriving DecidableEq, Repr

/-- a value of one of the kinds -/
inductive Constant where
  | text (s : String)
  /-- a whole number of 64 bits with sign -/
  | integer (n : Int)
  | float (x : Float)
  | boolean (b : Bool)
  | date (d : Date)

/-- the truth value that a text stands for -/
def readBool (s : String) : Bool := ["true", "yes", "1"].contains (nameKey s)

/-- the constant of a kind that a text stands for -/
def Constant.coerce (raw : String) : FieldKind → Constant
  | .text => .text raw
  | .integer => .integer ((readInt64? (trim raw)).getD 0)
  | .float => .float ((readFloat? (trim raw)).getD 0.0)
  | .boolean => .boolean (readBool (trim raw))
  | .date => .date ((Date.parse? (trim raw)).getD Date.epoch)

end FieldSearch
