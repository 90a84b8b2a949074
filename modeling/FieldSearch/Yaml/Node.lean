/-
Nodes of YAML text.

- A text holds one document at most. Its directives say what the handles of tags stand for, and a document with
  directives starts with `---`.
- An alias is kept by its number. Nothing at a place is an empty plain scalar, and so are anchor and tag without a node.
- Every node takes tokens, so the number of tokens bounds the steps of reading.
-/
import FieldSearch.Yaml.Token

namespace FieldSearch.Yaml

/-- what stands in front of a node -/
structure Properties where
  anchor : Option Nat := none
  tag : Option Tag := none
deriving Repr

inductive Node where
  | alias (number : Nat)
  | scalar (properties : Properties) (style : Style) (text : String)
  | list (properties : Properties) (items : List Node)
  | table (properties : Properties) (members : List (Node × Node))
deriving Inhabited

/-! ## Numbers of anchors -/

/-- a node with the number of its anchor, if it has one -/
def Properties.mark (p : Properties) (n : Node) : List (Nat × Node) := (p.anchor.map fun number => (number, n)).toList

mutual

/-- the numbered nodes of a node, in the order of their anchors -/
def Node.marks : Node → List (Nat × Node)
  | .alias _ => []
  | .scalar p style text => p.mark (.scalar p style text)
  | .list p items => p.mark (.list p items) ++ itemMarks items
  | .table p members => p.mark (.table p members) ++ memberMarks members

/-- the numbered nodes of items -/
def itemMarks : List Node → List (Nat × Node)
  | [] => []
  | item :: items => item.marks ++ itemMarks items

/-- the numbered nodes of keys and values -/
def memberMarks : List (Node × Node) → List (Nat × Node)
  | [] => []
  | (key, value) :: members => key.marks ++ value.marks ++ memberMarks members

end

mutual

/-- how many parts a node has: itself, and for a collection its end and what it holds -/
def Node.size : Node → Nat
  | .alias _ => 1
  | .scalar _ _ _ => 1
  | .list _ items => itemsSize items + 2
  | .table _ members => membersSize members + 2

/-- how many parts items have -/
def itemsSize : List Node → Nat
  | [] => 0
  | item :: items => item.size + itemsSize items

/-- how many parts keys and values have -/
def membersSize : List (Node × Node) → Nat
  | [] => 0
  | (key, value) :: members => key.size + value.size + membersSize members

end

/-! ## Reading -/

/-- nothing, with what stands in front of it -/
def Node.nothing (p : Properties) : Node := .scalar p .plain ""

/-- where a node stands -/
inductive Context where
  | block
  /-- the key or value of a block mapping, where a sequence need not go in -/
  | blockMember
  | flow
deriving DecidableEq

/-- whether nothing stands in front of a token -/
def endsNode (ends : List Token) (ts : List Token) : Bool := ts.head?.any ends.contains

/-- what is being read -/
inductive Goal where
  | node (context : Context)
  /-- a node, or nothing in front of some tokens -/
  | optional (context : Context) (ends : List Token)
  | blockItems
  | indentlessItems
  | blockMembers
  | flowItems (isFirst : Bool)
  | flowMembers (isFirst : Bool)

/-- what reading gives: a node, items, or keys and values -/
inductive Parts where
  | node (n : Node)
  | items (ns : List Node)
  | members (ms : List (Node × Node))

def Parts.toNode (p : Properties) : Parts → Node
  | .node n => n
  | .items ns => .list p ns
  | .members ms => .table p ms

/-- the single node of what was read -/
def Parts.node? : Parts → Option Node
  | .node n => some n
  | _ => none

/-- the parts with an item in front of them -/
def Parts.consItem? (n : Node) : Parts → Option Parts
  | .items ns => some (.items (n :: ns))
  | _ => none

/-- the parts with a key and a value in front of them -/
def Parts.consMember? (key value : Node) : Parts → Option Parts
  | .members ms => some (.members ((key, value) :: ms))
  | _ => none

/-- splits off anchor and tag, each at most once and in any order -/
def readProperties (handles : List (String × Tag)) : List Token → Option (Properties × List Token)
  | .anchor n :: .tag t :: ts => (t.resolve? handles).map fun tag => (⟨some n, some tag⟩, ts)
  | .tag t :: .anchor n :: ts => (t.resolve? handles).map fun tag => (⟨some n, some tag⟩, ts)
  | .anchor n :: ts => some (⟨some n, none⟩, ts)
  | .tag t :: ts => (t.resolve? handles).map fun tag => (⟨none, some tag⟩, ts)
  | ts => some ({}, ts)

/-- what is left behind the comma that stands in front of all items and members but the first -/
def behindEntry (isFirst : Bool) (ts : List Token) : Option (List Token) :=
  match isFirst, ts with
  | true, ts => some ts
  | false, .flowEntry :: ts => some ts
  | false, _ => none

/-- whether anything stands in front of a node -/
def Properties.isSome (p : Properties) : Bool := p.anchor.isSome || p.tag.isSome

/-- reads a goal in at most `steps` steps, and gives the tokens behind it -/
def readGoal (handles : List (String × Tag)) (steps : Nat) (goal : Goal) (ts : List Token) :
    Option (Parts × List Token) :=
  match steps with
  | 0 => none
  | steps + 1 =>
    let read (goal : Goal) (ts : List Token) : Option (Parts × List Token) := readGoal handles steps goal ts
    let nodeOf (goal : Goal) (ts : List Token) : Option (Node × List Token) :=
      (read goal ts).bind fun (parts, ts) => parts.node?.map fun n => (n, ts)
    let moreItems (n : Node) (goal : Goal) (ts : List Token) : Option (Parts × List Token) :=
      (read goal ts).bind fun (parts, ts) => (parts.consItem? n).map fun parts => (parts, ts)
    let moreMembers (key value : Node) (goal : Goal) (ts : List Token) : Option (Parts × List Token) :=
      (read goal ts).bind fun (parts, ts) => (parts.consMember? key value).map fun parts => (parts, ts)
    let valueOf (context : Context) (ends : List Token) : List Token → Option (Node × List Token)
      | .value :: ts => nodeOf (.optional context ends) ts
      | ts => some (.nothing {}, ts)
    match goal with
    | .optional context ends =>
      if endsNode ends ts then some (.node (.nothing {}), ts) else read (.node context) ts
    | .node context =>
      match ts with
      | .alias number :: ts => some (.node (.alias number), ts)
      | ts => do
        let (p, ts) ← readProperties handles ts
        let collection (goal : Goal) (ts : List Token) : Option (Parts × List Token) :=
          (read goal ts).map fun (parts, ts) => (.node (parts.toNode p), ts)
        match ts with
        | .scalar style text :: ts => some (.node (.scalar p style text), ts)
        | .flowSequenceStart :: ts => collection (.flowItems true) ts
        | .flowMappingStart :: ts => collection (.flowMembers true) ts
        | ts =>
          if context = .blockMember && ts.head? = some .blockEntry then collection .indentlessItems ts
          else if context ≠ .flow && ts.head? = some .blockSequenceStart then collection .blockItems (ts.drop 1)
          else if context ≠ .flow && ts.head? = some .blockMappingStart then collection .blockMembers (ts.drop 1)
          else if p.isSome then some (.node (.nothing p), ts)
          else none
    | .blockItems =>
      match ts with
      | .blockEnd :: ts => some (.items [], ts)
      | .blockEntry :: ts => do
        let (n, ts) ← nodeOf (.optional .block [.blockEntry, .blockEnd]) ts
        moreItems n .blockItems ts
      | _ => none
    | .indentlessItems =>
      match ts with
      | .blockEntry :: ts => do
        let (n, ts) ← nodeOf (.optional .block [.blockEntry, .key, .value, .blockEnd]) ts
        moreItems n .indentlessItems ts
      | ts => some (.items [], ts)
    | .blockMembers =>
      match ts with
      | .blockEnd :: ts => some (.members [], ts)
      | .key :: ts => do
        let ends := [Token.key, .value, .blockEnd]
        let (k, ts) ← nodeOf (.optional .blockMember ends) ts
        let (v, ts) ← valueOf .blockMember ends ts
        moreMembers k v .blockMembers ts
      | _ => none
    | .flowItems isFirst =>
      match ts, isFirst with
      | .flowSequenceEnd :: ts, _ => some (.items [], ts)
      | .flowEntry :: .flowSequenceEnd :: ts, false => some (.items [], ts)
      | ts, isFirst => do
        let ts ← behindEntry isFirst ts
        let (n, ts) ← match ts with
          | .key :: ts => do
            let ends := [Token.flowEntry, .flowSequenceEnd]
            -- where nothing is the key of a lone member, the token behind it is passed over
            let (k, ts) ← if endsNode (.value :: ends) ts then some (.nothing {}, ts.drop 1) else nodeOf (.node .flow) ts
            let (v, ts) ← valueOf .flow ends ts
            pure (Node.table {} [(k, v)], ts)
          | ts => nodeOf (.node .flow) ts
        moreItems n (.flowItems false) ts
    | .flowMembers isFirst =>
      match ts, isFirst with
      | .flowMappingEnd :: ts, _ => some (.members [], ts)
      | .flowEntry :: .flowMappingEnd :: ts, false => some (.members [], ts)
      | ts, isFirst => do
        let ts ← behindEntry isFirst ts
        let ends := [Token.flowEntry, .flowMappingEnd]
        match ts with
        | .key :: ts => do
          let (k, ts) ← nodeOf (.optional .flow (.value :: ends)) ts
          let (v, ts) ← valueOf .flow ends ts
          moreMembers k v (.flowMembers false) ts
        | ts => do
          let (k, ts) ← nodeOf (.node .flow) ts
          moreMembers k (.nothing {}) (.flowMembers false) ts

def Token.directive? : Token → Option Directive
  | .directive d => some d
  | _ => none

/-- reads a node that takes whole tokens of a document -/
def readRoot (handles : List (String × Tag)) (ts : List Token) : Option (Node × List Token) :=
  (readGoal handles (4 * ts.length + 4) (.node .block) ts).bind fun (parts, ts) => parts.node?.map fun n => (n, ts)

/-- the node of a document, and the tokens behind it; only behind `---` may there be nothing -/
def readDocument (ts : List Token) : Option (Node × List Token) := do
  let directives := (ts.takeWhile fun t => t.directive?.isSome).filterMap Token.directive?
  let handles ← handlesOf? directives
  match ts.drop directives.length with
  | .documentStart :: body =>
    if body.head?.all fun t => t = .documentStart || t = .documentEnd || t.directive?.isSome then
      return (.nothing {}, body)
    else readRoot handles body
  | body => if directives.isEmpty then readRoot handles body else none

/-- the only document of a text; an empty text is nothing -/
def Node.parse? (text : String) : Option Node := do
  let ts ← Token.scan text
  if ts.isEmpty then return .nothing {}
  let (n, ts) ← readDocument ts
  if ts.all (· = .documentEnd) then some n else none

end FieldSearch.Yaml
