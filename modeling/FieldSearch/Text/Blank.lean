/-
Blank characters: the Unicode property `White_Space`.

- `isBlank` decides the property; the 25 characters form ten runs.
- `trim` cuts blanks off both ends of a text.
- `isAllBlank` holds of a text with nothing else in it.
-/

namespace FieldSearch

/-- the runs of the property `White_Space`, both ends included -/
def blankRuns : List (Nat × Nat) :=
  [(0x09, 0x0D), (0x20, 0x20), (0x85, 0x85), (0xA0, 0xA0), (0x1680, 0x1680), (0x2000, 0x200A), (0x2028, 0x2029),
   (0x202F, 0x202F), (0x205F, 0x205F), (0x3000, 0x3000)]

/-- whether a character is white space in the sense of Unicode -/
def isBlank (c : Char) : Bool :=
  blankRuns.any fun run => run.1 ≤ c.toNat && c.toNat ≤ run.2

/-- the characters of a text without the blanks at its start -/
def dropBlanks (cs : List Char) : List Char :=
  cs.dropWhile isBlank

/-- the characters of a text without the blanks at its start and at its end -/
def trimChars (cs : List Char) : List Char :=
  (dropBlanks (dropBlanks cs).reverse).reverse

/-- a text without the blanks at its start and at its end -/
def trim (s : String) : String :=
  String.ofList (trimChars s.toList)

/-- whether a text holds nothing but blanks -/
def isAllBlank (s : String) : Bool :=
  s.toList.all isBlank

end FieldSearch
