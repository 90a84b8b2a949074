/-
Writing JSON text.

- `compact` has no space at all, `pretty` one item a line, two spaces a level.
- Strings escape `"`, `\` and control characters, all else is written as it is.
- A double is written with the fewest digits that read back: with a power of ten below 10^-5 and from 10^16 on, else
  plain, with `.0` if it is whole.
-/
import FieldSearch.Json.Basic
import FieldSearch.Decimal.Shortest
import FieldSearch.Text.Hex

namespace FieldSearch.Json

/-- doubles have a power of ten below 10^-5 and from 10^16 on; what is no number has no form but `null` -/
def floatLayout : Layout := ⟨-5, 16, "e", true, ".0", "", "null", "null"⟩

/-- a character of a string -/
def writeChar (c : Char) : List Char :=
  if c == '"' then ['\\', '"']
  else if c == '\\' then ['\\', '\\']
  else if c == '\n' then ['\\', 'n']
  else if c == '\r' then ['\\', 'r']
  else if c == '\t' then ['\\', 't']
  else if c == '\x08' then ['\\', 'b']
  else if c == '\x0c' then ['\\', 'f']
  else if c.toNat < 0x20 then '\\' :: 'u' :: Hex.write Hex.lowerDigit 4 c.toNat
  else [c]

/-- a string in quotes -/
def writeString (s : String) : String :=
  String.ofList ('"' :: (s.toList.flatMap writeChar ++ ['"']))

def writeNumber : JsonNumber → String
  | .int n => writeInt n
  | .float x => floatLayout.writeFloat x

mutual

/-- a value without spaces -/
def compact : Json → String
  | .null => "null"
  | .bool b => if b then "true" else "false"
  | .number n => writeNumber n
  | .string s => writeString s
  | .array items => "[" ++ compactItems items ++ "]"
  | .object members => "\x7b" ++ compactMembers members ++ "\x7d"

/-- items with commas between them -/
def compactItems : List Json → String
  | [] => ""
  | [item] => item.compact
  | item :: items => item.compact ++ "," ++ compactItems items

/-- members with commas between them -/
def compactMembers : List (String × Json) → String
  | [] => ""
  | [(key, value)] => writeString key ++ ":" ++ value.compact
  | (key, value) :: members => writeString key ++ ":" ++ value.compact ++ "," ++ compactMembers members

end

/-- the start of a line at a level -/
def indent (level : Nat) : String := String.ofList ('\n' :: List.replicate (2 * level) ' ')

mutual

/-- a value with one item a line, its own lines at a level -/
def prettyAt (level : Nat) : Json → String
  | .array [] => "[]"
  | .array items => "[" ++ prettyItems (level + 1) items ++ indent level ++ "]"
  | .object [] => "\x7b\x7d"
  | .object members => "\x7b" ++ prettyMembers (level + 1) members ++ indent level ++ "\x7d"
  | .null => "null"
  | .bool b => if b then "true" else "false"
  | .number n => writeNumber n
  | .string s => writeString s

/-- items, each on its line -/
def prettyItems (level : Nat) : List Json → String
  | [] => ""
  | [item] => indent level ++ item.prettyAt level
  | item :: items => indent level ++ item.prettyAt level ++ "," ++ prettyItems level items

/-- members, each on its line -/
def prettyMembers (level : Nat) : List (String × Json) → String
  | [] => ""
  | [(key, value)] => indent level ++ writeString key ++ ": " ++ value.prettyAt level
  | (key, value) :: members =>
    indent level ++ writeString key ++ ": " ++ value.prettyAt level ++ "," ++ prettyMembers level members

end

/-- a value with one item a line -/
def pretty (value : Json) : String := value.prettyAt 0

end FieldSearch.Json
