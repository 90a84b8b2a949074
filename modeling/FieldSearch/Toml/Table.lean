/-
Tables of TOML text.

- A table is opened by a header, or comes about as a parent of one, or by a key with dots. Only a parent may still get a
  header of its own.
- A key with dots may lead through parents and to the last table of an array, but the table that it adds to must have
  come about by such keys.
- Every header in double brackets adds a table to an array, and what follows belongs to the last one.
- A key is given once.
-/
import FieldSearch.Toml.Value

namespace FieldSearch.Toml

/-- how a table came about -/
inductive Origin where
  /-- as the parent of a table with a header -/
  | parent
  | header
  /-- by a key with dots -/
  | dotted
deriving DecidableEq

/-- what stands at a key while a text is read -/
inductive Item where
  | value (v : Value)
  | table (origin : Origin) (members : List (String × Item))
  /-- an array of tables, the last one first -/
  | tables (reversed : List (List (String × Item)))

mutual

def Item.finished : Item → Value
  | .value v => v
  | .table _ members => .table (finishedMembers members)
  | .tables reversed => .list (finishedTables reversed).reverse

def finishedMembers : List (String × Item) → List (String × Value)
  | [] => []
  | (key, item) :: members => (key, item.finished) :: finishedMembers members

def finishedTables : List (List (String × Item)) → List Value
  | [] => []
  | members :: tables => .table (finishedMembers members) :: finishedTables tables

end

/-- the members of a table -/
abbrev Members := List (String × Item)

/-- the members with the item of a key changed; `none` stands for a key that is not there -/
def alter (key : String) (f : Option Item → Option Item) : Members → Option Members
  | [] => (f none).map fun item => [(key, item)]
  | (k, item) :: members =>
    if k = key then (f (some item)).map fun item => (k, item) :: members
    else (alter key f members).map ((k, item) :: ·)

/-- adds to the last table of an array -/
def alterLast (f : Members → Option Members) : List Members → Option (List Members)
  | [] => none
  | last :: others => (f last).map (· :: others)

/-- puts a value at a key with dots into a table, in which the key may end only if `isOpen` -/
def putFrom (isOpen : Bool) (v : Value) : List String → Members → Option Members
  | [], _ => none
  | [key], members => if isOpen then alter key (fun | none => some (.value v) | some _ => none) members else none
  | key :: keys, members =>
    alter key (fun
      | none => (putFrom true v keys []).map (.table .dotted)
      | some (.table .header _) => none
      | some (.table .parent ms) => (putFrom false v keys ms).map (.table .parent)
      | some (.table .dotted ms) => (putFrom true v keys ms).map (.table .dotted)
      | some (.tables all) => (alterLast (putFrom false v keys) all).map .tables
      | some (.value _) => none) members

/-- puts a value at a key with dots -/
def putValue (v : Value) (keys : List String) (members : Members) : Option Members := putFrom true v keys members

/-- changes the table that a header names, by `f` at its last key -/
def atHeader (f : Option Item → Option Item) : List String → Members → Option Members
  | [], _ => none
  | [key], members => alter key f members
  | key :: keys, members =>
    alter key (fun
      | none => (atHeader f keys []).map (.table .parent)
      | some (.table origin ms) => (atHeader f keys ms).map (.table origin)
      | some (.tables all) => (alterLast (atHeader f keys) all).map .tables
      | some (.value _) => none) members

/-- opens a table by its header -/
def openTable : Option Item → Option Item
  | none => some (.table .header [])
  | some (.table .parent ms) => some (.table .header ms)
  | _ => none

/-- adds a table to an array of tables -/
def openElement : Option Item → Option Item
  | none => some (.tables [[]])
  | some (.tables all) => some (.tables ([] :: all))
  | _ => none

/-- changes the table that the last header named; without one it is the whole text -/
def inTable (f : Members → Option Members) : List String → Members → Option Members
  | [], members => f members
  | key :: keys, members =>
    alter key (fun
      | some (.table origin ms) => (inTable f keys ms).map (.table origin)
      | some (.tables all) => (alterLast (inTable f keys) all).map .tables
      | _ => none) members

/-! ## Arrays and inline tables -/

/-- items with commas between them up to `]`; comments and ends of lines may stand everywhere -/
def readArray (item : List Char → Option (Value × List Char)) (cs : List Char) :
    Option (List Value × List Char) :=
  match skipFiller cs with
  | none => none
  | some (']' :: r) => some ([], r)
  | some start =>
    match item start with
    | none => none
    | some (v, behind) =>
      match skipFiller behind with
      | some (']' :: r) => some ([v], r)
      | some (',' :: r) =>
        if r.length < cs.length then (readArray item r).map fun (vs, rest) => (v :: vs, rest) else none
      | _ => none
termination_by cs.length

/-- the keys and values of an inline table up to `}`, put into `members` -/
def readInline (item : List Char → Option (Value × List Char)) (members : Members) (cs : List Char) :
    Option (Members × List Char) :=
  match readKey cs with
  | some (keys, '=' :: r) =>
    match item (skipSpaces r) with
    | none => none
    | some (v, behind) =>
      match putValue v keys members, skipSpaces behind with
      | some members, '\x7d' :: rest => some (members, rest)
      | some members, ',' :: rest => if rest.length < cs.length then readInline item members rest else none
      | _, _ => none
  | _ => none
termination_by cs.length

/-- reads a value nested at most `depth` deep -/
def readValue (depth : Nat) (cs : List Char) : Option (Value × List Char) :=
  match depth, cs with
  | depth + 1, '[' :: r => (readArray (readValue depth) r).map fun (items, rest) => (.list items, rest)
  | depth + 1, '\x7b' :: r =>
    match skipSpaces r with
    | '\x7d' :: rest => some (.table [], rest)
    | start =>
      (readInline (readValue depth) [] start).map fun (members, rest) => (.table (finishedMembers members), rest)
  | _, cs => readScalar cs

/-- how deep values may be nested -/
def nestingLimit : Nat := 79

/-! ## Lines -/

/-- the members read so far, and the keys of the last header -/
structure State where
  members : Members := []
  header : List String := []

/-- what is left behind the rest of a line -/
def endLine (cs : List Char) : Option (List Char) :=
  match skipComment (skipSpaces cs) with
  | some [] => some []
  | some cs => readNewline cs
  | none => none

/-- reads a line: a header, or a key and its value -/
def readLineOf (s : State) (cs : List Char) : Option (State × List Char) :=
  match cs with
  | '[' :: '[' :: r =>
    match readKey r with
    | some (keys, ']' :: ']' :: rest) => (atHeader openElement keys s.members).map fun ms => (⟨ms, keys⟩, rest)
    | _ => none
  | '[' :: r =>
    match readKey r with
    | some (keys, ']' :: rest) => (atHeader openTable keys s.members).map fun ms => (⟨ms, keys⟩, rest)
    | _ => none
  | cs =>
    match readKey cs with
    | some (keys, '=' :: r) => do
      let (v, rest) ← readValue nestingLimit (skipSpaces r)
      let members ← inTable (putValue v keys) s.header s.members
      return ({ s with members }, rest)
    | _ => none

/-- reads all lines that are left -/
def readAllLines (s : State) (cs : List Char) : Option State :=
  match skipFiller cs with
  | none => none
  | some [] => some s
  | some start =>
    match readLineOf s start with
    | none => none
    | some (s, behind) =>
      match endLine behind with
      | none => none
      | some next => if next.length < cs.length then readAllLines s next else none
termination_by cs.length

/-- the table that a text is -/
def parse? (text : String) : Option Value :=
  let cs := match text.toList with
    | '\ufeff' :: r => r
    | cs => cs
  (readAllLines {} cs).map fun s => .table (finishedMembers s.members)

end FieldSearch.Toml
