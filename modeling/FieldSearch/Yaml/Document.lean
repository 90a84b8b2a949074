/-
YAML as documents.

- A plain scalar is what it is asked for: text always, a truth value or nothing by its words. A tag hardly matters for
  text and lists; an optional value with a tag is there, whatever it says, unless the tag is the one of nothing.
- A word may also be a local tag, in front of nothing.
- A list or record where nothing stands is empty. A list is no record.
- An alias is followed when something is asked for behind it, and only so often: a hundred times for each part of the
  document.
-/
import FieldSearch.Schema.Document
import FieldSearch.Yaml.Node

namespace FieldSearch.Yaml

/-- a node, and what the anchors of its document stand for, the last one first -/
structure Subject where
  anchors : List (Nat × Node)
  node : Node

namespace Subject

/-- the document of a text -/
def parse? (text : String) : Option Subject := (Node.parse? text).map fun n => ⟨n.marks.reverse, n⟩

/-- another node of the same document -/
def part (s : Subject) (n : Node) : Subject := { s with node := n }

/-- the node itself, behind an alias if there is one -/
def content (s : Subject) : Node :=
  match s.node with
  | .alias number => (s.anchors.lookup number).getD s.node
  | n => n

/-! ## Words -/

/-- whether a plain scalar spells nothing -/
def isNullWord (text : String) : Bool := ["~", "null", "Null", "NULL"].contains text

/-- whether a plain scalar without a tag is nothing -/
def isNothing (text : String) : Bool := text.isEmpty || isNullWord text

/-- the truth value that a scalar spells -/
def truth? (text : String) : Option Bool :=
  if ["true", "True", "TRUE"].contains text then some true
  else if ["false", "False", "FALSE"].contains text then some false
  else none

/-! ## Answers -/

/-- any scalar is a text -/
def asText? (s : Subject) : Option String :=
  match s.content with
  | .scalar _ _ text => some text
  | _ => none

/-- a plain scalar, or a literal block with the tag of truth values -/
def asBool? (s : Subject) : Option Bool :=
  match s.content with
  | .scalar p style text =>
    if style = .plain || (style = .literal && p.tag = some Tag.truth) then truth? text else none
  | _ => none

/-- a scalar, or the name of its local tag if it is nothing -/
def asWord? (s : Subject) : Option String :=
  match s.content with
  | .scalar p style text =>
    match p.tag.bind Tag.localName? with
    | some word => if style = .plain && isNothing text then some word else none
    | none => some text
  | _ => none

/-- anything but a plain scalar that is nothing -/
def asOptional? (s : Subject) : Option (Option Subject) :=
  match s.content with
  | .scalar p .plain text =>
    match p.tag with
    | none => some (if isNothing text then none else some s)
    | some tag =>
      if tag ≠ Tag.nothing then some (some s)
      else if isNullWord text then some none
      else none
  | _ => some (some s)

/-- the items of a list -/
def asList? (s : Subject) : Option (List Subject) :=
  match s.content with
  | .list _ items => some (items.map s.part)
  | .scalar _ .plain "" => some []
  | _ => none

/-- the members of a table, by the texts of their keys -/
def members? (s : Subject) : Option (List (String × Subject)) :=
  match s.content with
  | .table _ members => members.mapM fun (key, value) => (s.part key).asText?.map fun k => (k, s.part value)
  | .scalar _ .plain "" => some []
  | _ => none

/-- the fields of a table -/
def asRecord? (names : List String) (s : Subject) : Option (List (Option Subject)) :=
  s.members?.bind (Document.ofMembers? names)

instance : Document Subject := ⟨asText?, asBool?, asWord?, asOptional?, asList?, asRecord?⟩

/-! ## Aliases that are followed -/

/-- how many of some nodes are aliases -/
def aliasCount (ns : List Node) : Nat :=
  ns.countP fun
    | .alias _ => true
    | _ => false

/-- the keys of a table -/
def keys (s : Subject) : List Node :=
  match s.content with
  | .table _ members => members.map (·.1)
  | _ => []

mutual

/-- how many aliases are followed to answer all that a shape asks for -/
def follows (s : Subject) : Shape → Nat
  | .leaf => aliasCount [s.node]
  | .list item => aliasCount [s.node] + ((s.asList?.getD []).map fun i => i.follows item).foldl (· + ·) 0
  | .record fields => aliasCount (s.node :: s.keys) + followsMembers (s.members?.getD []) fields

/-- how many aliases are followed for the fields of a record -/
def followsMembers (members : List (String × Subject)) : List (String × Shape) → Nat
  | [] => 0
  | (name, shape) :: fields =>
    ((members.lookup name).map fun value => value.follows shape).getD 0 + followsMembers members fields

end

/-- whether no more aliases are followed than the document has room for -/
def isModest (shape : Shape) (s : Subject) : Bool := s.follows shape ≤ 100 * s.node.size

end Subject

end FieldSearch.Yaml
