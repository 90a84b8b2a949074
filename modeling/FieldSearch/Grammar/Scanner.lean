/-
Scanners: a text and the byte offset up to which it was read.

- A scanner is moved in place. It keeps the furthest failure, and it lists every offset that it was set to and every offset
  at which its text was cut.
- A `Scan` is a program over a scanner. Two faults stop it: a cut where no character starts and the text does not end, and a
  round of a loop, or a call of a program by itself, that finds no less text unread than there was before it.
- Looking moves nothing, reading moves the scanner behind what was read, as it does with cursors. Where a closing quote is
  missing the scanner goes back to the opening one.
-/
import FieldSearch.Grammar.Reply

namespace FieldSearch

/-- a text and the offset up to which it was read -/
structure Scanner where
  text : String
  /-- how many bytes were read -/
  offset : Nat
  /-- the furthest failure so far -/
  failure : Option Failure
  /-- the offsets that the scanner was set to and those at which its text was cut, the latest one first -/
  touched : List Nat
deriving DecidableEq, Repr

namespace Scanner

/-- a scanner that has read nothing of a text -/
def start (text : String) : Scanner := ⟨text, 0, none, [0]⟩

/-- how many bytes were not read yet -/
def unread (s : Scanner) : Nat := s.text.utf8ByteSize - s.offset

/-- the scanner with an offset more in its list -/
def touch (s : Scanner) (n : Nat) : Scanner := { s with touched := n :: s.touched }

/-- an offset of a text: the size of a text that it starts with -/
def IsPlace (text : String) (n : Nat) : Prop := ∃ before behind : String, text = before ++ behind ∧ before.utf8ByteSize = n

end Scanner

/-- what stops a program over a scanner -/
inductive Fault where
  /-- the text was cut at an offset that is none of its places -/
  | cut (offset : Nat)
  /-- a round of a loop, or a call of a program by itself, found no less text unread than there was before it -/
  | endless
deriving DecidableEq, Repr

/-- a program over a scanner -/
abbrev Scan := StateT Scanner (Except Fault)

namespace Scan

variable {α β : Type}

/-! ## Loops -/

/-- goes on with rounds from what a round left, up to one that gives a result; less text is unread after each -/
def loopFrom (round : α → Scan (α ⊕ β)) (a : α) (s : Scanner) : Except Fault (β × Scanner) :=
  match (round a).run s with
  | .error fault => .error fault
  | .ok (.inr b, s') => .ok (b, s')
  | .ok (.inl a', s') => if s'.unread < s.unread then loopFrom round a' s' else .error .endless
termination_by s.unread

/-- repeats a round, up to one that gives a result -/
def loop (round : α → Scan (α ⊕ β)) (a : α) : Scan β := loopFrom round a

/-- a program that may call itself where less text is unread -/
def recurseFrom (body : Scan α → Scan α) (s : Scanner) : Except Fault (α × Scanner) :=
  (body fun s' => if s'.unread < s.unread then recurseFrom body s' else .error .endless).run s
termination_by s.unread

/-- the program that `body` makes of itself -/
def recurse (body : Scan α → Scan α) : Scan α := recurseFrom body

/-! ## Offsets -/

/-- the offset up to which the text was read -/
def offset : Scan Nat := return (← get).offset

/-- goes to an offset -/
def moveTo (n : Nat) : Scan Unit := modify fun s => { s with offset := n }.touch n

/-- goes some bytes further -/
def skip (n : Nat) : Scan Unit := do moveTo ((← offset) + n)

/-- the characters of the first `n` bytes and those behind them, if a character starts or the text ends there -/
def splitBytes : List Char → Nat → Option (List Char × List Char)
  | cs, 0 => some ([], cs)
  | [], _ + 1 => none
  | a :: cs, n + 1 =>
    if a.utf8Size ≤ n + 1 then (splitBytes cs (n + 1 - a.utf8Size)).map fun parts => (a :: parts.1, parts.2) else none

/-- cuts characters that start at the offset `base` behind their first `n` bytes -/
def cut (base : Nat) (cs : List Char) (n : Nat) : Scan (List Char × List Char) :=
  match splitBytes cs n with
  | none => throw (.cut (base + n))
  | some parts => do
    modify fun s => s.touch (base + n)
    return parts

/-- the text that was read and the text that was not -/
def parts : Scan (List Char × List Char) := do
  let s ← get
  cut 0 s.text.toList s.offset

/-- the text that was not read -/
def rest : Scan (List Char) := return (← parts).2

/-- the next `n` bytes as characters, and the characters behind them -/
def ahead (n : Nat) : Scan (List Char × List Char) := do
  let cs ← rest
  cut (← offset) cs n

/-! ## Looking -/

/-- whether the whole text was read -/
def atEnd : Scan Bool := do
  let s ← get
  return s.text.utf8ByteSize ≤ s.offset

/-- the next character -/
def peek : Scan (Option Char) := return (← rest).head?

/-- the character just before the offset -/
def prev : Scan (Option Char) := return (← parts).1.getLast?

def startsWith (symbol : String) : Scan Bool := return symbol.toList.isPrefixOf (← rest)

/-- whether a keyword comes next and no word character follows it -/
def atKeyword (keyword : String) : Scan Bool := do
  if ← startsWith keyword then
    let (_, behind) ← ahead keyword.utf8ByteSize
    return !behind.head?.any isWordChar
  else return false

/-- whether a negation comes next -/
def atNegation : Scan Bool := do
  if ← atKeyword "NOT" then return true
  if ← startsWith "!" then return true
  startsWith "-"

/-- whether any keyword or symbolic operator comes next -/
def atOperator : Scan Bool := do
  if ← keywords.anyM atKeyword then return true
  ["&&", "||", "!", "-"].anyM startsWith

/-- how many bytes the characters at the start of a text take that satisfy `p` -/
def sizeWhile (p : Char → Bool) (cs : List Char) : Nat := Cursor.byteLength (cs.takeWhile p)

/-- the identifier that comes next -/
def peekIdentifier : Scan (Option (List Char)) := do
  match ← rest with
  | [] => return none
  | a :: cs =>
    if isIdentifierStart a then
      let (name, _) ← ahead (a.utf8Size + sizeWhile isIdentifierChar cs)
      return some name
    else return none

/-- the identifier that comes next with a `:` right behind it -/
def peekTermName : Scan (Option String) := do
  match ← peekIdentifier with
  | none => return none
  | some name =>
    let (_, behind) ← ahead (Cursor.byteLength name)
    return if behind.head? = some ':' then some (String.ofList name) else none

/-! ## Reading -/

/-- reads one given character -/
def eatChar (a : Char) : Scan Bool := do
  if (← peek) = some a then
    skip a.utf8Size
    return true
  else return false

/-- reads a given text -/
def eatSymbol (symbol : String) : Scan Bool := do
  if ← startsWith symbol then
    skip symbol.utf8ByteSize
    return true
  else return false

def eatKeyword (keyword : String) : Scan Bool := do
  if ← atKeyword keyword then
    skip keyword.utf8ByteSize
    return true
  else return false

/-- goes behind the next character if it is a blank -/
def skipBlank (count : Nat) : Scan (Nat ⊕ Nat) := do
  match ← peek with
  | some a =>
    if isBlank a then
      skip a.utf8Size
      return .inl (count + 1)
    else return .inr count
  | none => return .inr count

/-- goes behind the blanks that come next, and counts them -/
def skipBlanks : Scan Nat := loop skipBlank 0

def identifier : Scan (Option String) := do
  match ← peekIdentifier with
  | none => return none
  | some name =>
    skip (Cursor.byteLength name)
    return some (String.ofList name)

/-- reads an identifier and the `:` right behind it -/
def termName : Scan (Option String) := do
  match ← peekTermName with
  | none => return none
  | some name =>
    skip (name.utf8ByteSize + 1)
    return some name

/-- keeps the furthest failure -/
def expected (expectation : Expectation) : Scan Unit :=
  modify fun s => { s with failure := furthest s.failure (some ⟨s.offset, expectation⟩) }

/-- how a quoted value goes on with a character; behind a `\` any character stands for itself -/
def quotedNext (value : List Char) (escaped : Bool) (a : Char) : List Char × Bool ⊕ Option (List Char) :=
  if escaped then .inl (value ++ [a], false)
  else if a = '\\' then .inl (value, true)
  else if a = '"' then .inr (some value)
  else .inl (value ++ [a], false)

/-- reads a character of a quoted value -/
def quotedChar : List Char × Bool → Scan (List Char × Bool ⊕ Option (List Char))
  | (value, escaped) => do
    match ← peek with
    | none => return .inr none
    | some a =>
      skip a.utf8Size
      return quotedNext value escaped a

/-- reads a quoted value -/
def quoted : Scan (Option String) := do
  let start ← offset
  if ← eatChar '"' then
    match ← loop quotedChar ([], false) with
    | some value => return some (String.ofList value)
    | none =>
      expected .closingQuote
      moveTo start
      return none
  else return none

/-- reads a bare word; keywords and names before a `:` are none -/
def bareWord : Scan (Option String) := do
  match ← rest with
  | [] => return none
  | a :: cs =>
    if isWordStart a then
      let size := a.utf8Size + sizeWhile isWordChar cs
      let (word, behind) ← ahead size
      if keywords.contains (String.ofList word) || behind.head? = some ':' then return none
      else
        skip size
        return some (String.ofList word)
    else return none

/-- reads characters up to the next blank, at least one -/
def nonBlank : Scan (Option String) := do
  let size := sizeWhile (fun a => !isBlank a) (← rest)
  if size = 0 then return none
  else
    let (run, _) ← ahead size
    skip size
    return some (String.ofList run)

/-- what is reported when reading stops: the furthest failure, unless reading got past it -/
def complaint : Scan Error := do
  let s ← get
  match s.failure.filter fun f => s.offset ≤ f.offset with
  | some f => return .parse f.offset (.expected f.expectation)
  | none =>
    match ← peek with
    | some a => return .parse s.offset (.unexpectedChar a)
    | none => return .parse s.offset .unexpectedEnd

end Scan

end FieldSearch
