/-
Places in YAML text.

- A place is what is left of a text, with its line and column. Only the ends of lines change the line.
- What comes between two parts of a scalar is folded: a lone end of a line becomes a space, of several the first is
  dropped.
-/
namespace FieldSearch.Yaml

/-! ## Characters -/

/-- whether a character ends a line -/
def isBreak (c : Char) : Bool := c == '\n' || c == '\r' || c == '\u0085' || c == '\u2028' || c == '\u2029'

/-- whether a character is a space or a tab -/
def isSpace (c : Char) : Bool := c == ' ' || c == '\t'

/-- whether a space, a tab, the end of a line or of the text comes next -/
def atGap : List Char → Bool
  | [] => true
  | c :: _ => isSpace c || isBreak c

/-- whether a character may stand in a text at all -/
def isAllowed (c : Char) : Bool :=
  let n := c.toNat
  n == 0x09 || n == 0x0A || n == 0x0D || (0x20 ≤ n && n ≤ 0x7E) || n == 0x85 || (0xA0 ≤ n && n ≤ 0xFFFD) || 0x10000 ≤ n

/-- what starts a token of its own and so no plain scalar -/
def indicators : List Char :=
  ['-', '?', ':', ',', '[', ']', '\x7b', '\x7d', '#', '&', '*', '!', '|', '>', '\x27', '"', '%', '@', '\x60']

/-- whether a character may stand in the name of an anchor, a handle or a directive -/
def isNameChar (c : Char) : Bool := c.isAlphanum || c == '-' || c == '_'

/-- the brackets and the comma of flow collections -/
def flowMarks : List Char := [',', '[', ']', '\x7b', '\x7d']

/-! ## Places -/

/-- a place in a text -/
structure Place where
  rest : List Char
  line : Nat := 0
  column : Nat := 0

namespace Place

/-- the next character -/
def peek (p : Place) : Option Char := p.rest.head?

/-- the place behind the next character of the line -/
def skip (p : Place) : Place := { p with rest := p.rest.drop 1, column := p.column + 1 }

/-- the place `n` characters further on the line -/
def skipN (p : Place) (n : Nat) : Place := { p with rest := p.rest.drop n, column := p.column + n }

/-- what stands for the end of a line that comes next, and the place behind it -/
def readBreak (p : Place) : List Char × Place :=
  let behind (n : Nat) : Place := ⟨p.rest.drop n, p.line + 1, 0⟩
  match p.rest with
  | '\r' :: '\n' :: _ => (['\n'], behind 2)
  | c :: _ =>
    if c = '\u2028' || c = '\u2029' then ([c], behind 1) else (['\n'], behind 1)
  | [] => ([], p)

/-- whether `---` or `...` stands alone at the start of a line -/
def atDocumentMark (p : Place) : Bool :=
  p.column == 0 &&
    match p.rest with
    | '-' :: '-' :: '-' :: r => atGap r
    | '.' :: '.' :: '.' :: r => atGap r
    | _ => false

/-- the place behind characters of the line that satisfy `test` -/
def skipWhile (p : Place) (test : Char → Bool) : Place := p.skipN (p.rest.takeWhile test).length

/-- the place behind blanks and a comment -/
def skipToLineEnd (p : Place) : Place :=
  let behind := p.skipWhile isSpace
  if behind.peek = some '#' then behind.skipWhile (!isBreak ·) else behind

end Place

/-! ## Blanks inside of scalars -/

/-- blanks and ends of lines between two parts of a scalar -/
structure Fold where
  /-- the spaces before any end of a line -/
  spaces : List Char := []
  /-- the first end of a line -/
  first : Option (List Char) := none
  /-- those that follow -/
  more : List Char := []

/-- what stands in a scalar for folded blanks: a lone end of a line becomes a space -/
def Fold.text (f : Fold) : List Char :=
  match f.first with
  | none => f.spaces
  | some ['\n'] => if f.more.isEmpty then [' '] else f.more
  | some first => first ++ f.more

/-- reads blanks and ends of lines; behind an end a tab must not stand left of `indent` -/
def readFold (indent : Nat) (f : Fold) (p : Place) : Option (Fold × Place) :=
  match p.rest with
  | [] => some (f, p)
  | c :: _ =>
    if isSpace c then
      if f.first.isSome && c = '\t' && p.column < indent then none
      else
        let f := if f.first.isSome then f else { f with spaces := f.spaces ++ [c] }
        if p.skip.rest.length < p.rest.length then readFold indent f p.skip else none
    else if isBreak c then
      let (end', behind) := p.readBreak
      let f := if f.first.isSome then { f with more := f.more ++ end' } else { f with first := some end', spaces := [] }
      if behind.rest.length < p.rest.length then readFold indent f behind else none
    else some (f, p)
termination_by p.rest.length

end FieldSearch.Yaml
