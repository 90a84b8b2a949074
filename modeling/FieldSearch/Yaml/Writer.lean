/-
Values written as YAML.

- A mapping has one line for each member, and goes in by two spaces below its key; a sequence does not go in below a key.
  A key that is long or has several lines gets a mark, and so does its value.
- Text is plain where it reads back as the same text. Text that would read as another type has single quotes, as has
  text with characters that mean something in its place; characters that cannot be shown need double quotes. Text of
  several lines is a literal block.
- Lines end in the ends of lines that a text has itself, else in a line feed.
-/
import FieldSearch.Json.Writer
import FieldSearch.Yaml.Scalar

namespace FieldSearch.Yaml

/-- doubles have a power of ten below 10^-5 and from 10^16 on -/
def floatLayout : Layout := ⟨-5, 16, "e", false, ".0", "", ".nan", ".inf"⟩

/-! ## What text looks like -/

/-- the text without a `+` in front -/
def dropPlus : List Char → List Char
  | '+' :: r => r
  | cs => cs

/-- the number behind the mark of a base, such as `0x` -/
def markedNumber? (mark : Char) (base : Nat) : List Char → Option Nat
  | '0' :: m :: r =>
    if m = mark && !r.isEmpty then
      (r.mapM fun c => (Hex.value? c).filter (· < base)).map fun ds => ds.foldl (fun n d => base * n + d) 0
    else none
  | _ => none

/-- whether text reads as a whole number in a base other than ten, in 128 bits with sign or without -/
def isMarkedNumber (cs : List Char) : Bool :=
  let isBelow (bound : Nat) (cs : List Char) : Bool :=
    [('x', 16), ('o', 8), ('b', 2)].any fun (mark, base) => (markedNumber? mark base cs).any (· ≤ bound)
  match cs with
  | '-' :: r => isBelow (Nat.pow 2 127) r
  | cs => isBelow (Nat.pow 2 128 - 1) (dropPlus cs)

/-- whether text is digits with a zero in front, which some readers take for a number -/
def isPadded (cs : List Char) : Bool :=
  let digits := match cs with
    | '-' :: r => r
    | cs => dropPlus cs
  1 < digits.length && digits.head? = some '0' && digits.all Char.isDigit

/-- whether a sign stands behind a `+` in front -/
def hasTwoSigns : List Char → Bool
  | '+' :: c :: _ => c == '+' || c == '-'
  | _ => false

/-- whether text reads as a finite number with a point or a power of ten, or as a word for another -/
def isFloatNumber (s : String) : Bool :=
  let body := dropPlus s.toList
  let words := [".inf", ".Inf", ".INF"]
  words.contains (String.ofList body) || (words.map ("-" ++ ·)).contains s || [".nan", ".NaN", ".NAN"].contains s ||
    (!hasTwoSigns s.toList && (readFloat? (String.ofList body)).any fun x => x.isFinite)

/-- words that some readers take for truth values or for nothing -/
def typedWords : List String :=
  ["true", "True", "TRUE", "false", "False", "FALSE", "null", "Null", "NULL", "~", "y", "Y", "yes", "Yes", "YES", "n", "N",
    "no", "No", "NO", "on", "On", "ON", "off", "Off", "OFF"]

/-- whether text would not read as text if it were plain -/
def looksTyped (s : String) : Bool :=
  s.isEmpty || typedWords.contains s || isPadded s.toList || isMarkedNumber s.toList || isFloatNumber s

/-- whether a character is written as it is -/
def isPrintable (c : Char) : Bool :=
  let n := c.toNat
  n == 0x0A || (0x20 ≤ n && n ≤ 0x7E) || (0xA0 ≤ n && n ≤ 0xFFFD && n != 0xFEFF)

/-- characters that start no plain text -/
def leadMarks : List Char :=
  ['#', ',', '[', ']', '\x7b', '\x7d', '&', '*', '!', '|', '>', singleQuote, '"', '%', '@', '\x60']

/-- whether a mark of the document stands at the start of a text -/
def startsWithMark (cs : List Char) : Bool :=
  "---".toList.isPrefixOf cs || "...".toList.isPrefixOf cs

/-- whether `: ` or ` #` stands in a text behind its first character `before` -/
def hasInnerMark (before : Char) : List Char → Bool
  | [] => false
  | c :: r =>
    (c == ':' && atGap r) || (c == '#' && (isSpace before || isBreak before)) || hasInnerMark c r

/-- whether characters of a text mean something where it stands -/
def hasMarks : List Char → Bool
  | [] => false
  | c :: r =>
    startsWithMark (c :: r) || leadMarks.contains c || ((c == '?' || c == ':' || c == '-') && atGap r) ||
      hasInnerMark c r

/-- whether a space and the end of a line stand side by side, in this order -/
def hasSpaceBreak : List Char → Bool
  | a :: b :: r => (a == ' ' && isBreak b) || hasSpaceBreak (b :: r)
  | _ => false

/-- whether the end of a line and a space stand side by side, in this order -/
def hasBreakSpace : List Char → Bool
  | a :: b :: r => (isBreak a && b == ' ') || hasBreakSpace (b :: r)
  | _ => false

/-- whether a text needs escapes -/
def needsEscapes (cs : List Char) : Bool := hasSpaceBreak cs || !cs.all isPrintable

/-- whether a space or the end of a line stands at either end -/
def hasLooseEnds (cs : List Char) : Bool :=
  cs.head?.any (fun c => c == ' ' || isBreak c) || cs.getLast?.any fun c => c == ' ' || isBreak c

/-! ## Lines -/

/-- a line and what ends it -/
structure Line where
  text : String
  ending : Char := '\n'

/-- the lines of a text; what is left behind its last end of a line is a line too -/
def textToLines : List Char → List Line
  | [] => []
  | c :: r =>
    if isBreak c then ⟨"", c⟩ :: textToLines r
    else
      match textToLines r with
      | [] => [⟨String.singleton c, '\n'⟩]
      | l :: ls => { l with text := String.singleton c ++ l.text } :: ls

/-- a line that goes in; an empty line stays empty -/
def Line.goIn (l : Line) : Line := if l.text.isEmpty then l else { l with text := "  " ++ l.text }

/-- lines with a mark in front of the first, the others below it -/
def marked (mark : String) : List Line → List Line
  | [] => [⟨mark, '\n'⟩]
  | first :: others => { first with text := mark ++ first.text } :: others.map Line.goIn

/-! ## Scalars -/

/-- a character between double quotes -/
def writeEscaped (c : Char) : List Char :=
  if isPrintable c && !isBreak c && c != '"' && c != '\\' then [c]
  else
    match c with
    | '\x00' => ['\\', '0']
    | '\x07' => ['\\', 'a']
    | '\x08' => ['\\', 'b']
    | '\t' => ['\\', 't']
    | '\n' => ['\\', 'n']
    | '\x0b' => ['\\', 'v']
    | '\x0c' => ['\\', 'f']
    | '\r' => ['\\', 'r']
    | '\x1b' => ['\\', 'e']
    | '"' => ['\\', '"']
    | '\\' => ['\\', '\\']
    | '\u0085' => ['\\', 'N']
    | '\u2028' => ['\\', 'L']
    | '\u2029' => ['\\', 'P']
    | c =>
      let n := c.toNat
      if n ≤ 0xFF then '\\' :: 'x' :: Hex.write Hex.upperDigit 2 n
      else if n ≤ 0xFFFF then '\\' :: 'u' :: Hex.write Hex.upperDigit 4 n
      else '\\' :: 'U' :: Hex.write Hex.upperDigit 8 n

/-- text between double quotes -/
def doubleQuoted (cs : List Char) : List Line :=
  [⟨String.ofList ('"' :: cs.flatMap writeEscaped ++ ['"']), '\n'⟩]

/-- text between single quotes, each of its own twice -/
def singleQuoted (cs : List Char) : List Line :=
  textToLines (singleQuote :: cs.flatMap (fun c => if c = singleQuote then [c, c] else [c]) ++ [singleQuote])

/-- the mark of a literal block: a digit if it starts with a blank, and how its end is kept -/
def literalMark (cs : List Char) : String :=
  let hint := if cs.head?.any fun c => c == ' ' || isBreak c then "2" else ""
  let chomp := match cs.reverse with
    | a :: b :: _ => if !isBreak a then "-" else if isBreak b then "+" else ""
    | [a] => if isBreak a then "+" else "-"
    | [] => "-"
  "|" ++ hint ++ chomp

/-- the lines of a text; all but the first go in below it -/
def textLines (s : String) : List Line :=
  let cs := s.toList
  if needsEscapes cs then doubleQuoted cs
  else if cs.contains '\n' then
    if cs.getLast? = some ' ' then doubleQuoted cs else ⟨literalMark cs, '\n'⟩ :: textToLines cs
  else if hasBreakSpace cs then doubleQuoted cs
  else if looksTyped s || hasLooseEnds cs || hasMarks cs || cs.any isBreak then singleQuoted cs
  else [⟨s, '\n'⟩]

/-! ## Collections -/

/-- what stands for a scalar or an empty collection -/
def scalarLines : Json → List Line
  | .null => [⟨"null", '\n'⟩]
  | .bool b => [⟨if b then "true" else "false", '\n'⟩]
  | .number (.int n) => [⟨writeInt n, '\n'⟩]
  | .number (.float x) => [⟨floatLayout.writeFloat x, '\n'⟩]
  | .string s => textLines s
  | .array _ => [⟨"[]", '\n'⟩]
  | .object _ => [⟨"\x7b\x7d", '\n'⟩]

/-- whether a key needs no mark: it has one line and 128 bytes at most -/
def isSimpleKey (key : String) : Bool := !key.toList.any isBreak && key.utf8ByteSize ≤ 128

mutual

/-- the lines of a value -/
def lines : Json → List Line
  | .array (item :: items) => itemLines (item :: items)
  | .object (m :: members) => memberLines (m :: members)
  | value => scalarLines value

def itemLines : List Json → List Line
  | [] => []
  | item :: items => marked "- " (lines item) ++ itemLines items

def memberLines : List (String × Json) → List Line
  | [] => []
  | (key, value) :: members =>
    let own := if isSimpleKey key then
      let name := String.join ((textLines key).map (·.text)) ++ ":"
      match value with
      | .array (item :: items) => ⟨name, '\n'⟩ :: itemLines (item :: items)
      | .object (m :: ms) => ⟨name, '\n'⟩ :: (memberLines (m :: ms)).map Line.goIn
      | value => marked (name ++ " ") (scalarLines value)
    else marked "? " (textLines key) ++ marked ": " (lines value)
    own ++ memberLines members

end

/-- a value as YAML -/
def write (value : Json) : String := String.join ((lines value).map fun l => l.text.push l.ending)

end FieldSearch.Yaml
