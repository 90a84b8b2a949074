/-
Values written as TOML.

- A table has its plain values first and then its tables, each under a header of the whole path; headers have an empty
  line in front. An array of tables has a header for each of them. A table without values of its own needs no header
  unless it is empty.
- An array of several items has a line for each.
- Text has double quotes, unless it holds quotes or `\` itself: then single ones, or three of either.
- There is no way to say that there is nothing, and whole numbers have 64 bits with sign.
-/
import FieldSearch.Json.Writer
import FieldSearch.Text.Hex

namespace FieldSearch.Toml

/-- doubles are written without powers of ten -/
def floatLayout : Layout := ⟨-400, 400, "e", false, ".0", "", "nan", "inf"⟩

/-! ## Strings and keys -/

/-- the greatest number of a character side by side -/
def longestRun (a : Char) (current longest : Nat) : List Char → Nat
  | [] => longest
  | c :: r => if c = a then longestRun a (current + 1) (max longest (current + 1)) r else longestRun a 0 longest r

/-- a quote of strings without escapes -/
def plainQuote : Char := '\x27'

/-- whether a character must be escaped wherever it stands -/
def needsEscape (c : Char) : Bool := (c.toNat < 0x20 && c != '\t' && c != '\n') || c.toNat == 0x7F

/-- a character in a string of one line with escapes -/
def writeChar (c : Char) : List Char :=
  match c with
  | '\x08' => ['\\', 'b']
  | '\t' => ['\\', 't']
  | '\n' => ['\\', 'n']
  | '\x0c' => ['\\', 'f']
  | '\r' => ['\\', 'r']
  | '"' => ['\\', '"']
  | '\\' => ['\\', '\\']
  | c => if c.toNat < 0x20 || c.toNat = 0x7F then "\\u".toList ++ Hex.write Hex.upperDigit 4 c.toNat else [c]

/-- the characters of a string of several lines with escapes; two quotes side by side, but no third, stay as they are -/
def writeLong (quotes : Nat) : List Char → List Char
  | [] => []
  | c :: r =>
    if c = '"' then if quotes < 2 then c :: writeLong (quotes + 1) r else '\\' :: c :: writeLong 0 r
    else (if c = '\n' then [c] else writeChar c) ++ writeLong 0 r

/-- a text with a quote in front and behind -/
def between (mark : String) (text : List Char) : String := mark ++ String.ofList text ++ mark

/-- a text between three quotes, with the end of a line behind the first three if it has several lines -/
def between3 (mark : String) (isLong : Bool) (text : List Char) : String :=
  mark ++ (if isLong then "\n" else "") ++ String.ofList text ++ mark

def writeString (s : String) : String :=
  let cs := s.toList
  let escapes := cs.any needsEscape
  let slash := cs.contains '\\'
  let isLong := cs.contains '\n'
  let double := longestRun '"' 0 0 cs
  let single := longestRun plainQuote 0 0 cs
  if !escapes && !slash && double = 0 && !isLong then between "\"" (cs.flatMap writeChar)
  else if !escapes && single = 0 && !isLong then between "'" cs
  else if !escapes && !slash && double ≤ 2 then between3 "\"\"\"" isLong (writeLong 0 cs)
  else if !escapes && single ≤ 2 then between3 "'''" isLong cs
  else if isLong then between3 "\"\"\"" true (writeLong 0 cs)
  else between "\"" (cs.flatMap writeChar)

/-- whether a key needs no quotes -/
def isBareKey (s : String) : Bool := !s.isEmpty && s.toList.all fun c => c.isAlphanum || c == '_' || c == '-'

def writeKey (s : String) : String :=
  let cs := s.toList
  let escapes := cs.contains '\n' || cs.any needsEscape
  if isBareKey s then s
  else if !escapes && (cs.contains '\\' || cs.contains '"') && !cs.contains plainQuote then between "'" cs
  else between "\"" (cs.flatMap writeChar)

/-! ## Values -/

/-- a whole number, if it has a form -/
def writeNumber : JsonNumber → Option String
  | .int n => if n ≤ int64Max then some (writeInt n) else none
  | .float x => some (floatLayout.writeFloat x)

mutual

/-- a value on the side of its key -/
def writeValue : Json → Option String
  | .null => none
  | .bool b => some (if b then "true" else "false")
  | .number n => writeNumber n
  | .string s => some (writeString s)
  | .array items => do
    match ← writeItems items with
    | [] => return "[]"
    | [item] => return "[" ++ item ++ "]"
    | items => return "[" ++ String.join (items.map fun item => "\n    " ++ item ++ ",") ++ "\n]"
  | .object members => do
    match ← writeMembers members with
    | [] => return "\x7b\x7d"
    | members => return "\x7b " ++ ", ".intercalate members ++ " \x7d"

/-- the items of an array -/
def writeItems : List Json → Option (List String)
  | [] => some []
  | item :: items => do return (← writeValue item) :: (← writeItems items)

/-- the members of a table on one line -/
def writeMembers : List (String × Json) → Option (List String)
  | [] => some []
  | (key, value) :: members => do
    return (writeKey key ++ " = " ++ (← writeValue value)) :: (← writeMembers members)

end

/-! ## Tables -/

/-- whether a value is a table -/
def isTable : Json → Bool
  | .object _ => true
  | _ => false

/-- whether a value gets headers of its own: a table, or an array of nothing but tables -/
def hasHeader : Json → Bool
  | .object _ => true
  | .array items => !items.isEmpty && items.all isTable
  | _ => false

/-- a header, if there is one, and the lines below it -/
structure Section where
  header : Option String
  lines : List String

/-- the lines of the plain values of a table -/
def plainLines : List (String × Json) → Option (List String)
  | [] => some []
  | (key, value) :: members =>
    if hasHeader value then plainLines members
    else do return (writeKey key ++ " = " ++ (← writeValue value)) :: (← plainLines members)

/-- the path of a header -/
def writePath (path : List String) : String := ".".intercalate (path.map writeKey)

/-- the section of a table; none if the table holds tables only -/
def tableSection (path : List String) (members : List (String × Json)) : Option (List Section) := do
  let lines ← plainLines members
  if lines.isEmpty && !members.isEmpty then return []
  else return [⟨some ("[" ++ writePath path ++ "]"), lines⟩]

/-- the section of a table in an array -/
def elementSection (path : List String) (members : List (String × Json)) : Option Section := do
  return ⟨some ("[[" ++ writePath path ++ "]]"), ← plainLines members⟩

mutual

/-- the sections of the tables among members -/
def memberSections (path : List String) : List (String × Json) → Option (List Section)
  | [] => some []
  | (key, .object ms) :: members => do
    return (← tableSection (path ++ [key]) ms) ++ (← memberSections (path ++ [key]) ms) ++ (← memberSections path members)
  | (key, .array items) :: members => do
    let own ← if hasHeader (.array items) then elementSections (path ++ [key]) items else some []
    return own ++ (← memberSections path members)
  | _ :: members => memberSections path members

/-- the sections of the tables of an array -/
def elementSections (path : List String) : List Json → Option (List Section)
  | [] => some []
  | .object ms :: items => do
    return (← elementSection path ms) :: (← memberSections path ms) ++ (← elementSections path items)
  | _ :: items => elementSections path items

end

/-- the text of a section; `isFirst` says whether nothing stands in front of it -/
def Section.text (isFirst : Bool) (s : Section) : String :=
  let header := match s.header with
    | some header => (if isFirst then "" else "\n") ++ header ++ "\n"
    | none => ""
  header ++ String.join (s.lines.map (· ++ "\n"))

/-- the text of sections -/
def writeSections : (isFirst : Bool) → List Section → String
  | _, [] => ""
  | isFirst, s :: rest => s.text isFirst ++ writeSections (isFirst && s.header.isNone && s.lines.isEmpty) rest

/-- a table as TOML -/
def write (value : Json) : Option String :=
  match value with
  | .object members => do
    let root : Section := ⟨none, ← plainLines members⟩
    return writeSections true (root :: (← memberSections [] members))
  | _ => none

end FieldSearch.Toml
