/-
Scalars of YAML text, folded and unescaped.

- A plain scalar ends in front of a mark, a comment or a line that does not go in far enough.
- A quoted scalar ends at its quote, wherever its lines go in.
- A block scalar ends with the lines that go in as far as its first one. How its end is kept stands in front of it.
-/
import FieldSearch.Text.Hex
import FieldSearch.Yaml.Place

namespace FieldSearch.Yaml

/-- how a scalar is written, as far as its reading depends on it -/
inductive Style where
  | plain
  /-- as a block that keeps its lines -/
  | literal
  /-- in quotes, or as a block that is folded -/
  | other
deriving DecidableEq, Repr

/-! ## Scalars -/

/-- reads the part of a plain scalar up to a blank or to what ends the scalar -/
def readPlainPart (inFlow : Bool) : List Char → Option (List Char)
  | [] => some []
  | c :: r =>
    if isSpace c || isBreak c then some []
    else if inFlow && c = ':' && r.head?.any (fun d => flowMarks.contains d || d == '?') then none
    else if (c = ':' && atGap r) || (inFlow && flowMarks.contains c) then some []
    else (readPlainPart inFlow r).map (c :: ·)

/-- reads a plain scalar; tells whether it ends behind the end of a line -/
def readPlain (inFlow : Bool) (indent : Nat) (p : Place) : Option (List Char × Bool × Place) :=
  if p.atDocumentMark || p.peek = some '#' then some ([], false, p)
  else
    match readPlainPart inFlow p.rest with
    | none => none
    | some [] => some ([], false, p)
    | some part =>
      let behind := p.skipN part.length
      if !atGap behind.rest || behind.rest.isEmpty then some (part, false, behind)
      else
        match readFold indent {} behind with
        | none => none
        | some (f, next) =>
          let ends := f.first.isSome
          if !inFlow && ends && next.column < indent then some (part, true, next)
          else if next.rest.length < p.rest.length then
            match readPlain inFlow indent next with
            | none => none
            | some ([], _, _) => some (part, ends, next)
            | some (more, endsLater, last) => some (part ++ f.text ++ more, endsLater, last)
          else none
termination_by p.rest.length

/-- the character of an escape behind its `\`, and how many characters it takes there -/
def escape? : List Char → Option (Char × Nat)
  | [] => none
  | c :: r =>
    match c with
    | '0' => some ('\x00', 1)
    | 'a' => some ('\x07', 1)
    | 'b' => some ('\x08', 1)
    | 't' => some ('\t', 1)
    | '\t' => some ('\t', 1)
    | 'n' => some ('\n', 1)
    | 'v' => some ('\x0b', 1)
    | 'f' => some ('\x0c', 1)
    | 'r' => some ('\r', 1)
    | 'e' => some ('\x1b', 1)
    | ' ' => some (' ', 1)
    | '"' => some ('"', 1)
    | '/' => some ('/', 1)
    | '\\' => some ('\\', 1)
    | 'N' => some ('\u0085', 1)
    | '_' => some ('\u00a0', 1)
    | 'L' => some ('\u2028', 1)
    | 'P' => some ('\u2029', 1)
    | 'x' => (Hex.char? 2 r).map fun a => (a, 3)
    | 'u' => (Hex.char? 4 r).map fun a => (a, 5)
    | 'U' => (Hex.char? 8 r).map fun a => (a, 9)
    | _ => none

/-- a quote of quoted scalars -/
def singleQuote : Char := '\x27'

/-- reads a quoted scalar behind its first quote -/
def readQuoted (quote : Char) (p : Place) : Option (List Char × Place) :=
  let goOn (text : List Char) (behind : Place) : Option (List Char × Place) :=
    if behind.rest.length < p.rest.length then
      (readQuoted quote behind).map fun (more, last) => (text ++ more, last)
    else none
  if p.atDocumentMark then none
  else
    match p.rest with
    | [] => none
    | c :: r =>
      if quote = singleQuote && c = quote && r.head? = some quote then goOn [quote] (p.skipN 2)
      else if c = quote then some ([], p.skip)
      else if quote = '"' && c = '\\' then
        if r.head?.any isBreak then
          (readFold 0 { first := some [] } p.skip.readBreak.2).bind fun (f, behind) => goOn f.more behind
        else (escape? r).bind fun (a, n) => goOn [a] (p.skipN (n + 1))
      else if isSpace c || isBreak c then
        (readFold 0 {} p).bind fun (f, behind) => goOn f.text behind
      else goOn [c] p.skip
termination_by p.rest.length

/-- how the ends of lines at the end of a block scalar are kept -/
inductive Chomp where
  | strip
  | clip
  | keep
deriving DecidableEq

/-- how the end is kept, by its mark -/
def chompOf? : List Char → Option (Chomp × List Char)
  | '-' :: r => some (.strip, r)
  | '+' :: r => some (.keep, r)
  | _ => none

/-- the digit that comes next, if there is one; it must not be zero -/
def readIncrement : List Char → Option (Option Nat × List Char)
  | [] => some (none, [])
  | c :: r =>
    if !c.isDigit then some (none, c :: r)
    else if c = '0' then none
    else some (some (digitValue c), r)

/-- reads the marks behind `|` or `>`, in either order: how the end is kept, and the indentation to add -/
def readBlockMarks (cs : List Char) : Option (Chomp × Option Nat × List Char) :=
  match chompOf? cs with
  | some (chomp, r) => (readIncrement r).map fun (increment, r) => (chomp, increment, r)
  | none =>
    (readIncrement cs).map fun (increment, r) =>
      match increment, chompOf? r with
      | some n, some (chomp, r) => (chomp, some n, r)
      | increment, _ => (.clip, increment, r)

/-- reads the rest of the line behind `|` or `>` -/
def readBlockHeader (p : Place) : Option (Chomp × Option Nat × Place) := do
  let (chomp, increment, r) ← readBlockMarks p.rest
  let behind := (p.skipN (p.rest.length - r.length)).skipToLineEnd
  if behind.rest.isEmpty || behind.rest.head?.any isBreak then some (chomp, increment, behind.readBreak.2) else none

/-- reads empty lines in front of a line of a block scalar; finds the indentation where it is not known (0) -/
def readBlockBreaks (parent : Int) (indent : Nat) (widest : Nat) (p : Place) : Option (List Char × Nat × Place) :=
  let spaces := (p.rest.takeWhile (· == ' ')).length
  let taken := if indent = 0 then spaces else min spaces (indent - p.column)
  let behind := p.skipN taken
  let widest := max widest behind.column
  if (indent = 0 || behind.column < indent) && behind.peek = some '\t' then none
  else if behind.rest.head?.any isBreak then
    let (end', next) := behind.readBreak
    if next.rest.length < p.rest.length then
      (readBlockBreaks parent indent widest next).map fun (more, indent, last) => (end' ++ more, indent, last)
    else none
  else
    let found := if indent = 0 then max (max widest (parent + 1).toNat) 1 else indent
    some ([], found, behind)
termination_by p.rest.length

/-- the parts of a block scalar that were read so far -/
structure BlockText where
  text : List Char := []
  /-- the end of the last line -/
  last : List Char := []
  /-- the ends of the empty lines behind it -/
  empty : List Char := []
  /-- whether the last line starts with a blank -/
  blankStart : Bool := false

/-- a block scalar with what stands for the end of its last line in front of a further line -/
def BlockText.joined (b : BlockText) (isLiteral blankNext : Bool) : List Char :=
  if !isLiteral && b.last = ['\n'] && !b.blankStart && !blankNext then
    b.text ++ (if b.empty.isEmpty then [' '] else []) ++ b.empty
  else b.text ++ b.last ++ b.empty

/-- reads the lines of a block scalar -/
def readBlockLines (isLiteral : Bool) (parent : Int) (indent : Nat) (b : BlockText) (p : Place) :
    Option (BlockText × Place) :=
  if p.column = indent && !p.rest.isEmpty then
    let blankNext := p.rest.head?.any isSpace
    let line := p.rest.takeWhile (!isBreak ·)
    let text := b.joined isLiteral blankNext ++ line
    let (end', next) := (p.skipN line.length).readBreak
    match readBlockBreaks parent indent 0 next with
    | none => none
    | some (empty, _, behind) =>
      if behind.rest.length < p.rest.length then
        readBlockLines isLiteral parent indent ⟨text, end', empty, blankNext⟩ behind
      else none
  else some (b, p)
termination_by p.rest.length

/-- reads a block scalar behind its `|` or `>` -/
def readBlock (isLiteral : Bool) (parent : Int) (p : Place) : Option (List Char × Place) := do
  let (chomp, increment, behind) ← readBlockHeader p
  let known := match increment with
    | some n => (if 0 ≤ parent then parent.toNat else 0) + n
    | none => 0
  let (empty, indent, first) ← readBlockBreaks parent known 0 behind
  let (b, last) ← readBlockLines isLiteral parent indent { empty } first
  let text := match chomp with
    | .strip => b.text
    | .clip => b.text ++ b.last
    | .keep => b.text ++ b.last ++ b.empty
  return (text, last)

end FieldSearch.Yaml
