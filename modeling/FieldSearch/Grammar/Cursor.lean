/-
Cursors: a place in a query text, with what stands before and after it.

- A cursor holds the character just before it, the characters after it and its byte offset. `Cursor.At text c` says
  that `c` is a place of `text`: what is left is a suffix, and the offset is the length in bytes of what was read.
- Looking (`peek`, `startsWith`, `atKeyword`, `atOperator`, `peekTermName`) answers from what is left and moves
  nothing. Reading gives what was read and the cursor behind it; the old cursor stays the place to go back to.
-/
import FieldSearch.Lexeme

namespace FieldSearch

/-- a place in a text -/
structure Cursor where
  /-- the character just before the place -/
  prev : Option Char
  /-- the characters after the place -/
  rest : List Char
  /-- how many bytes stand before the place -/
  offset : Nat
deriving DecidableEq, Repr

namespace Cursor

/-- the length in bytes of some characters -/
def byteLength : List Char → Nat
  | [] => 0
  | c :: cs => c.utf8Size + byteLength cs

/-- `c` is a place of `text` -/
def At (text : List Char) (c : Cursor) : Prop :=
  ∃ before, text = before ++ c.rest ∧ c.offset = byteLength before ∧ c.prev = before.getLast?

/-- the place before the whole text -/
def start (text : String) : Cursor := ⟨none, text.toList, 0⟩

/-- whether nothing is left -/
def atEnd (c : Cursor) : Bool := c.rest.isEmpty

/-- the next character -/
def peek (c : Cursor) : Option Char := c.rest.head?

/-- the place behind the next character; the end stays the end -/
def bump (c : Cursor) : Cursor :=
  match c.rest with
  | [] => c
  | a :: r => ⟨some a, r, c.offset + a.utf8Size⟩

/-- the place `n` characters further -/
def advance (c : Cursor) : Nat → Cursor
  | 0 => c
  | n + 1 => c.bump.advance n

/-- the place of the text that stands at a byte offset, looked for from `c` on with `n` characters to go -/
def seekFrom (c : Cursor) (target : Nat) : Nat → Option Cursor
  | 0 => if c.offset = target then some c else none
  | n + 1 => if c.offset = target then some c else c.bump.seekFrom target n

/-- the place of a text at a byte offset, if the offset is one of a character or of the end -/
def seek? (text : String) (target : Nat) : Option Cursor :=
  (start text).seekFrom target text.length

/-! ## Looking -/

/-- the characters next to come that satisfy `p` -/
def span (c : Cursor) (p : Char → Bool) : List Char := c.rest.takeWhile p

/-- whether a text comes next -/
def startsWith (c : Cursor) (s : String) : Bool := s.toList.isPrefixOf c.rest

/-- whether a keyword comes next and ends there: no word character follows it -/
def atKeyword (c : Cursor) (keyword : String) : Bool :=
  c.startsWith keyword && !(c.advance keyword.length).rest.head?.any isWordChar

/-- whether a negation comes next -/
def atNegation (c : Cursor) : Bool :=
  c.atKeyword "NOT" || c.startsWith "!" || c.startsWith "-"

/-- whether any keyword or symbolic operator comes next -/
def atOperator (c : Cursor) : Bool :=
  keywords.any c.atKeyword || ["&&", "||", "!", "-"].any c.startsWith

/-- the identifier that comes next -/
def peekIdentifier (c : Cursor) : Option (List Char) :=
  match c.rest with
  | [] => none
  | a :: r => if isIdentifierStart a then some (a :: r.takeWhile isIdentifierChar) else none

/-- the identifier that comes next with a `:` right behind it -/
def peekTermName (c : Cursor) : Option String :=
  c.peekIdentifier.bind fun name =>
    if (c.advance name.length).peek = some ':' then some (String.ofList name) else none

/-! ## Reading -/

/-- reads one given character -/
def eatChar (c : Cursor) (a : Char) : Option Cursor :=
  if c.peek = some a then some c.bump else none

/-- reads a given text -/
def eatSymbol (c : Cursor) (s : String) : Option Cursor :=
  if c.startsWith s then some (c.advance s.length) else none

def eatKeyword (c : Cursor) (keyword : String) : Option Cursor :=
  if c.atKeyword keyword then some (c.advance keyword.length) else none

/-- how many blanks come next -/
def blanks (c : Cursor) : Nat := (c.span isBlank).length

/-- the place behind the blanks that come next -/
def skipBlanks (c : Cursor) : Cursor := c.advance c.blanks

def identifier (c : Cursor) : Option (String × Cursor) :=
  c.peekIdentifier.map fun name => (String.ofList name, c.advance name.length)

/-- reads an identifier and the `:` right behind it -/
def termName (c : Cursor) : Option (String × Cursor) :=
  c.peekTermName.map fun name => (name, c.advance (name.length + 1))

/-- reads a bare word; keywords and names before a `:` are none -/
def bareWord (c : Cursor) : Option (String × Cursor) :=
  match c.rest with
  | [] => none
  | a :: _ =>
    let word := c.span isWordChar
    let behind := c.advance word.length
    if isWordStart a && !keywords.contains (String.ofList word) && behind.peek != some ':' then
      some (String.ofList word, behind)
    else none

/-- reads characters up to the next blank, at least one -/
def nonBlank (c : Cursor) : Option (String × Cursor) :=
  match c.span fun a => !isBlank a with
  | [] => none
  | run => some (String.ofList run, c.advance run.length)

/-- the characters of a quoted value after its first quote, and how many characters it takes with its last quote; a
`\` gives the next character as it is -/
def scanQuoted : List Char → Option (List Char × Nat)
  | [] => none
  | ['\\'] => none
  | '\\' :: a :: r => (scanQuoted r).map fun (value, n) => (a :: value, n + 2)
  | a :: r => if a = '"' then some ([], 1) else (scanQuoted r).map fun (value, n) => (a :: value, n + 1)

end Cursor

end FieldSearch
