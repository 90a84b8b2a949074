/-
Lexemes shared by the two query grammars: identifiers, keywords, bare words and quoted values.

- An identifier is an ASCII letter or `_` followed by ASCII letters, digits and `_`. Names of fields and terms are
  identifiers and are compared through `nameKey`, which lowers ASCII letters only.
- A bare word is a run of word characters that starts with no `-` and is no keyword.
- `writeValue` writes any value so that it reads back as one value: bare where possible, else quoted.
-/
import FieldSearch.Text.Blank

namespace FieldSearch

/-- the reserved words, always in capitals -/
def keywords : List String := ["AND", "OR", "NOT"]

/-- the characters that end a bare word although they are not blank -/
def structuralChars : List Char := ['(', ')', '"', ':', '!', '&', '|']

def isIdentifierStart (c : Char) : Bool := c.isAlpha || c == '_'

/-- whether a character may stand in an identifier after the first place -/
def isIdentifierChar (c : Char) : Bool := c.isAlphanum || c == '_'

/-- whether a character may stand in a bare word -/
def isWordChar (c : Char) : Bool := !isBlank c && !structuralChars.contains c

/-- whether a character may start a bare word: a leading `-` would be a negation -/
def isWordStart (c : Char) : Bool := isWordChar c && c != '-'

/-- whether a text is an identifier -/
def isIdentifier (s : String) : Bool :=
  match s.toList with
  | [] => false
  | c :: cs => isIdentifierStart c && cs.all isIdentifierChar

/-- whether a value can be written without quotes and read back as one bare word -/
def isBareWord (s : String) : Bool :=
  match s.toList with
  | [] => false
  | c :: cs => isWordStart c && cs.all isWordChar && !keywords.contains s

/-- the form under which names are compared: ASCII letters lowered, all else kept -/
def nameKey (name : String) : String :=
  String.ofList (name.toList.map Char.toLower)

/-- whether two names are the same name -/
def sameName (a b : String) : Bool := nameKey a == nameKey b

/-- the characters of a quoted value between its quotes: `"` and `\` get a `\` in front -/
def escapeChars : List Char → List Char
  | [] => []
  | c :: cs => if c == '"' || c == '\\' then '\\' :: c :: escapeChars cs else c :: escapeChars cs

/-- a value in quotes -/
def quote (s : String) : String :=
  String.ofList ('"' :: escapeChars s.toList ++ ['"'])

/-- a value as it is written in a query: bare where that reads back, else quoted -/
def writeValue (s : String) : String :=
  if isBareWord s then s else quote s

end FieldSearch
