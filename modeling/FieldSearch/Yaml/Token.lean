/-
Tokens of YAML text.

- `Token.scan` splits a text into tokens. Indentation becomes tokens of its own: a block collection starts where a line
  goes in and ends where one goes out.
- What stands in front of a `:` is a key without a mark of its own. Its place is remembered when it is read, and the
  tokens in front of it are put there once the `:` is found, on the same line and not too far behind.
- The number of an anchor is how many names of anchors were given by then. An alias has the number of the last anchor of
  its name.
-/
import FieldSearch.Yaml.Tag

namespace FieldSearch.Yaml

inductive Token where
  | directive (d : Directive)
  | documentStart
  | documentEnd
  | blockSequenceStart
  | blockMappingStart
  | blockEnd
  | flowSequenceStart
  | flowSequenceEnd
  | flowMappingStart
  | flowMappingEnd
  | blockEntry
  | flowEntry
  | key
  | value
  | alias (number : Nat)
  | anchor (number : Nat)
  | tag (t : WrittenTag)
  | scalar (style : Style) (text : String)
deriving DecidableEq, Repr

/-! ## Scanning -/

/-- the place of what may turn out to be a key -/
structure KeyPlace where
  /-- how many tokens stand in front of it -/
  index : Nat
  line : Nat
  column : Nat
  /-- how many characters are left behind its start -/
  left : Nat
  /-- whether it can be nothing else, because it starts a line of a block mapping -/
  isRequired : Bool

structure Scan where
  place : Place
  tokens : List Token := []
  indent : Int := -1
  indents : List Int := []
  /-- the possible keys of the flow collections around, the innermost first, and of the block around them -/
  keys : List (Option KeyPlace) := [none]
  /-- whether a key may start here -/
  keyAllowed : Bool := true
  /-- the names of anchors, each with its last number -/
  names : List (String × Nat) := []

namespace Scan

/-- whether the place is inside of a flow collection -/
def inFlow (s : Scan) : Bool := s.keys.length != 1

/-- adds a token -/
def emit (s : Scan) (t : Token) : Scan := { s with tokens := s.tokens ++ [t] }

/-- opens a block collection where a line goes in; its token is put in front of the token at `index` -/
def rollIndent (s : Scan) (column : Nat) (index : Nat) (t : Token) : Scan :=
  if s.inFlow || (column : Int) ≤ s.indent then s
  else { s with indents := s.indent :: s.indents, indent := column, tokens := s.tokens.insertIdx index t }

/-- closes the block collections that go in further than `column` -/
def unrollIndent (s : Scan) (column : Int) : Scan :=
  if s.inFlow then s
  else
    let closed := (s.indent :: s.indents).takeWhile (column < ·)
    match (s.indent :: s.indents).drop closed.length with
    | indent :: indents => { s with indent, indents, tokens := s.tokens ++ closed.map fun _ => Token.blockEnd }
    | [] => s

/-- the innermost possible key -/
def currentKey (s : Scan) : Option KeyPlace := s.keys.head?.join

/-- gives up the innermost possible key, unless it must be one -/
def dropKey (s : Scan) : Option Scan :=
  if s.currentKey.any (·.isRequired) then none
  else some { s with keys := none :: s.keys.drop 1 }

/-- remembers the place as that of a possible key -/
def saveKey (s : Scan) : Option Scan :=
  if !s.keyAllowed then some s
  else
    let isRequired := !s.inFlow && s.indent == (s.place.column : Int)
    let key : KeyPlace := ⟨s.tokens.length, s.place.line, s.place.column, s.place.rest.length, isRequired⟩
    s.dropKey.map fun s => { s with keys := some key :: s.keys.drop 1 }

/-- whether a possible key is out of reach of a `:` -/
def isStale (s : Scan) (k : KeyPlace) : Bool :=
  k.line < s.place.line || s.place.rest.length + 1024 < k.left

/-- gives up the possible keys out of reach -/
def dropStale (s : Scan) : Option Scan :=
  if s.keys.any fun k => k.any fun k => k.isRequired && s.isStale k then none
  else some { s with keys := s.keys.map fun k => k.filter fun k => !s.isStale k }

/-- goes on to the next token, over blanks, comments and ends of lines -/
def skipGap (s : Scan) : Scan :=
  let tabs := s.inFlow || !s.keyAllowed
  let p := s.place.skipWhile fun c => c == ' ' || (tabs && c == '\t')
  let p := if p.peek = some '#' then p.skipWhile (!isBreak ·) else p
  if p.rest.head?.any isBreak then
    let next := p.readBreak.2
    if next.rest.length < s.place.rest.length then
      skipGap { s with place := next, keyAllowed := s.keyAllowed || !s.inFlow }
    else s
  else { s with place := p }
termination_by s.place.rest.length

/-- adds a token of `n` characters -/
def take (s : Scan) (n : Nat) (t : Token) : Scan := { s.emit t with place := s.place.skipN n }

/-- reads `-` in front of an item -/
def takeEntry (s : Scan) : Option Scan := do
  if !s.inFlow && !s.keyAllowed then none
  let s := s.rollIndent s.place.column s.tokens.length .blockSequenceStart
  let s ← s.dropKey
  return { s.take 1 .blockEntry with keyAllowed := true }

/-- reads `?` in front of a key -/
def takeKey (s : Scan) : Option Scan := do
  if !s.inFlow && !s.keyAllowed then none
  let s := s.rollIndent s.place.column s.tokens.length .blockMappingStart
  let s ← s.dropKey
  return { s.take 1 .key with keyAllowed := !s.inFlow }

/-- reads `:` behind a key; a key without a mark gets its token now -/
def takeValue (s : Scan) : Option Scan :=
  match s.currentKey with
  | some k =>
    let s := { s with tokens := s.tokens.insertIdx k.index .key, keys := none :: s.keys.drop 1, keyAllowed := false }
    some ((s.rollIndent k.column k.index .blockMappingStart).take 1 .value)
  | none =>
    if !s.inFlow && !s.keyAllowed then none
    else
      let s := s.rollIndent s.place.column s.tokens.length .blockMappingStart
      some { s.take 1 .value with keyAllowed := !s.inFlow }

/-- reads the start of a flow collection -/
def takeOpen (s : Scan) (t : Token) : Option Scan :=
  s.saveKey.map fun s => { s.take 1 t with keys := none :: s.keys, keyAllowed := true }

/-- reads the end of a flow collection -/
def takeClose (s : Scan) (t : Token) : Option Scan :=
  s.dropKey.map fun s =>
    { s.take 1 t with keys := if s.inFlow then s.keys.drop 1 else s.keys, keyAllowed := false }

/-- reads a mark of the document -/
def takeMark (s : Scan) (n : Nat) (t : Token) : Option Scan :=
  (s.unrollIndent (-1)).dropKey.map fun s => { s.take n t with keyAllowed := false }

/-- reads a directive, to the end of its line -/
def takeDirective (s : Scan) : Option Scan := do
  let (d, r) ← Directive.read? (s.place.rest.drop 1)
  let place := (s.place.skipN (s.place.rest.length - r.length)).skipToLineEnd
  if !(place.rest.isEmpty || place.rest.head?.any isBreak) then none
  let s ← s.takeMark 0 (.directive d)
  return { s with place }

/-- reads the name behind `*` or `&` -/
def takeName (s : Scan) : Option (String × Scan) := do
  let s ← s.saveKey
  let name := (s.place.rest.drop 1).takeWhile isNameChar
  let behind := s.place.rest.drop (name.length + 1)
  let ends := atGap behind || behind.head?.any fun c => ['?', ':', ',', ']', '\x7d', '%', '@', '\x60'].contains c
  if name.isEmpty || !ends then none
  return (String.ofList name, { s with place := s.place.skipN (name.length + 1), keyAllowed := false })

/-- reads an anchor and gives it its number -/
def takeAnchor (s : Scan) : Option Scan :=
  s.takeName.map fun (name, s) =>
    let number := s.names.length
    { s.emit (.anchor number) with names := (name, number) :: s.names.filter (·.1 ≠ name) }

/-- reads an alias, whose name must be known -/
def takeAlias (s : Scan) : Option Scan :=
  s.takeName.bind fun (name, s) => (s.names.lookup name).map fun number => s.emit (.alias number)

def takeTag (s : Scan) : Option Scan := do
  let s ← s.saveKey
  let (t, r) ← WrittenTag.read? s.place.rest
  if !(atGap r || (s.inFlow && r.head? = some ',')) then none
  return { s.take (s.place.rest.length - r.length) (.tag t) with keyAllowed := false }

/-- reads a quoted scalar -/
def takeQuoted (s : Scan) (quote : Char) : Option Scan := do
  let s ← s.saveKey
  let (text, place) ← readQuoted quote s.place.skip
  return { s.emit (.scalar .other (String.ofList text)) with place, keyAllowed := false }

/-- reads a block scalar -/
def takeBlock (s : Scan) (isLiteral : Bool) : Option Scan := do
  let s ← s.dropKey
  let (text, place) ← readBlock isLiteral s.indent s.place.skip
  return { s.emit (.scalar (if isLiteral then .literal else .other) (String.ofList text)) with place, keyAllowed := true }

/-- reads a plain scalar -/
def takePlain (s : Scan) : Option Scan := do
  let s ← s.saveKey
  let (text, ends, place) ← readPlain s.inFlow (s.indent + 1).toNat s.place
  if text.isEmpty then none
  return { s.emit (.scalar .plain (String.ofList text)) with place, keyAllowed := ends }

/-- reads the next token, which starts with `c` and goes on with `r` -/
def takeToken (s : Scan) (c : Char) (r : List Char) : Option Scan :=
  if s.place.column = 0 && c = '%' then s.takeDirective
  else if s.place.atDocumentMark then s.takeMark 3 (if c = '-' then .documentStart else .documentEnd)
  else if c = '[' then s.takeOpen .flowSequenceStart
  else if c = '\x7b' then s.takeOpen .flowMappingStart
  else if c = ']' then s.takeClose .flowSequenceEnd
  else if c = '\x7d' then s.takeClose .flowMappingEnd
  else if c = ',' then s.dropKey.map fun s => { s.take 1 .flowEntry with keyAllowed := true }
  else if c = '-' && atGap r then s.takeEntry
  else if c = '?' && (s.inFlow || atGap r) then s.takeKey
  else if c = ':' && (s.inFlow || atGap r) then s.takeValue
  else if c = '*' then s.takeAlias
  else if c = '&' then s.takeAnchor
  else if c = '!' then s.takeTag
  else if c = '|' && !s.inFlow then s.takeBlock true
  else if c = '>' && !s.inFlow then s.takeBlock false
  else if c = singleQuote then s.takeQuoted singleQuote
  else if c = '"' then s.takeQuoted '"'
  else if !indicators.contains c || (c = '-' && !r.head?.any isSpace) ||
      (!s.inFlow && (c = '?' || c = ':') && !atGap r) then s.takePlain
  else none

/-- reads all tokens that are left -/
def run (s : Scan) : Option (List Token) :=
  match s.skipGap.dropStale with
  | none => none
  | some ready =>
    match ready.place.rest with
    | [] => ((ready.unrollIndent (-1)).dropKey).map (·.tokens)
    | c :: r =>
      match (ready.unrollIndent ready.place.column).takeToken c r with
      | none => none
      | some next => if next.place.rest.length < s.place.rest.length then run next else none
termination_by s.place.rest.length

end Scan

/-- where a text starts, behind a mark of its byte order; a second mark counts as a character of the line -/
def startPlace (text : String) : Place :=
  match text.toList with
  | '\ufeff' :: '\ufeff' :: r => { rest := r, column := 1 }
  | '\ufeff' :: r => { rest := r }
  | cs => { rest := cs }

def Token.scan (text : String) : Option (List Token) :=
  if text.toList.all isAllowed then Scan.run { place := startPlace text } else none

end FieldSearch.Yaml
