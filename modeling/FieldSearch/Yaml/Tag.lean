/-
Tags of YAML text, and the directives in front of a document.

- A tag is a handle and what follows it; a directive may say what a handle stands for. A tag in angle brackets has no
  handle.
- Tags are made of bytes, since bytes can be given by their hexadecimal digits. The bytes of a character must come
  together, but they are not checked further. A zero byte ends a tag.
-/
import FieldSearch.Text.Utf8
import FieldSearch.Yaml.Scalar

namespace FieldSearch.Yaml

/-- the bytes of a tag -/
abbrev Tag := List Nat

/-- the tag that a text spells -/
def Tag.ofText (s : String) : Tag := s.toList.flatMap utf8Bytes

/-- the bytes in front of the first zero -/
def Tag.cut (bytes : List Nat) : Tag := bytes.takeWhile (· ≠ 0)

/-- the text behind the `!` of a tag that starts with one -/
def Tag.localName? : Tag → Option String
  | 0x21 :: bytes =>
    match decodeUtf8 0 bytes with
    | .ok cs => some (String.ofList cs)
    | .error _ => none
  | _ => none

def Tag.nothing : Tag := .ofText "tag:yaml.org,2002:null"

/-- the tag of truth values -/
def Tag.truth : Tag := .ofText "tag:yaml.org,2002:bool"

/-! ## Reading tags -/

/-- whether a character may stand in a tag; commas and brackets only where the tag has an end of its own -/
def isTagChar (isDelimited : Bool) (c : Char) : Bool :=
  isNameChar c || [';', '/', '?', ':', '@', '&', '=', '+', '$', '.', '!', '~', '*', '\x27', '(', ')'].contains c ||
    (isDelimited && [',', '[', ']'].contains c)

/-- how many bytes follow the first byte of a character -/
def followCount? (b : Nat) : Option Nat :=
  if b < 0x80 then some 0
  else if b < 0xC0 then none
  else if b < 0xE0 then some 1
  else if b < 0xF0 then some 2
  else if b < 0xF8 then some 3
  else none

/-- the bytes of a tag, and what is left; `expected` bytes of a character must follow first -/
def readTagBytes (isDelimited : Bool) : (expected : Nat) → List Char → Option (List Nat × List Char)
  | 0, [] => some ([], [])
  | _ + 1, [] => none
  | expected, '%' :: a :: b :: r =>
    match Hex.value? a, Hex.value? b with
    | some high, some low =>
      let byte := 16 * high + low
      let following? := match expected with
        | 0 => followCount? byte
        | n + 1 => if isFollowing byte then some n else none
      following?.bind fun n => (readTagBytes isDelimited n r).map fun (bytes, r) => (byte :: bytes, r)
    | _, _ => none
  | 0, c :: r =>
    if c = '%' then none
    else if isTagChar isDelimited c then
      (readTagBytes isDelimited 0 r).map fun (bytes, r) => (c.toNat :: bytes, r)
    else some ([], c :: r)
  | _ + 1, _ :: _ => none

/-- the bytes of a tag, at least one, and what is left -/
def readTagText (isDelimited : Bool) (cs : List Char) : Option (Tag × List Char) :=
  (readTagBytes isDelimited 0 cs).bind fun (bytes, r) => if bytes.isEmpty then none else some (.cut bytes, r)

/-- a tag as it is written: its handle and what follows -/
structure WrittenTag where
  handle : String
  text : Tag
deriving DecidableEq, Repr

/-- reads a tag, and gives what is left; `!` alone is a tag by itself -/
def WrittenTag.read? : List Char → Option (WrittenTag × List Char)
  | '!' :: '<' :: r =>
    match readTagText true r with
    | some (text, '>' :: r) => some (⟨"", text⟩, r)
    | _ => none
  | '!' :: r =>
    let name := r.takeWhile isNameChar
    match r.drop name.length with
    | '!' :: r => (readTagText false r).map fun (text, r) => (⟨String.ofList ('!' :: name ++ ['!']), text⟩, r)
    | r =>
      (readTagBytes false 0 r).map fun (bytes, r) =>
        match Tag.cut (name.map Char.toNat ++ bytes) with
        | [] => (⟨"", .ofText "!"⟩, r)
        | text => (⟨"!", text⟩, r)
  | _ => none

/-! ## Directives -/

inductive Directive where
  | version (major minor : Nat)
  /-- what a handle stands for -/
  | handle (name : String) (text : Tag)
deriving DecidableEq, Repr

/-- reads one of the two numbers of a version, of nine digits at most -/
def readVersionNumber (cs : List Char) : Option (Nat × List Char) :=
  let digits := cs.takeWhile Char.isDigit
  if digits.isEmpty || 9 < digits.length then none else some (natOfDigits 0 digits, cs.drop digits.length)

/-- reads a handle of a directive, which ends in `!` -/
def readHandle : List Char → Option (String × List Char)
  | '!' :: r =>
    let name := r.takeWhile isNameChar
    match name, r.drop name.length with
    | name, '!' :: r => some (String.ofList ('!' :: name ++ ['!']), r)
    | [], r => some ("!", r)
    | _, _ => none
  | _ => none

/-- reads a directive behind its `%`, and gives what is left -/
def Directive.read? (cs : List Char) : Option (Directive × List Char) :=
  let name := cs.takeWhile isNameChar
  let behind := cs.drop name.length
  if !atGap behind then none
  else
    let r := behind.dropWhile isSpace
    match String.ofList name with
    | "YAML" =>
      match readVersionNumber r with
      | some (major, '.' :: r) => (readVersionNumber r).map fun (minor, r) => (.version major minor, r)
      | _ => none
    | "TAG" => do
      let (meant, r) ← readHandle r
      if !r.head?.any isSpace then none
      let (text, r) ← readTagText true (r.dropWhile isSpace)
      if atGap r then some (.handle meant text, r) else none
    | _ => none

/-- what handles stand for without a directive -/
def defaultHandles : List (String × Tag) := [("!", .ofText "!"), ("!!", .ofText "tag:yaml.org,2002:")]

/-- what handles stand for behind directives. A version is given once at most and must be 1.1 or 1.2, a handle is given
once at most. -/
def handlesOf? (directives : List Directive) : Option (List (String × Tag)) :=
  let versions := directives.filterMap fun
    | .version major minor => some (major, minor)
    | .handle _ _ => none
  let handles := directives.filterMap fun
    | .version _ _ => none
    | .handle name text => some (name, text)
  let isKnown (version : Nat × Nat) : Bool := version = (1, 1) || version = (1, 2)
  if 1 < versions.length || !versions.all isKnown || !(handles.map (·.1)).Nodup then none
  else some (handles ++ defaultHandles)

/-- the whole tag -/
def WrittenTag.resolve? (handles : List (String × Tag)) (t : WrittenTag) : Option Tag :=
  if t.handle.isEmpty then some t.text else (handles.lookup t.handle).map (· ++ t.text)

end FieldSearch.Yaml
