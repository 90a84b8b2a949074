/-
Reading JSON text.

- A text is read as it is written first; values are what stands for something, nested 127 deep at most.
- A whole number that fits 64 bits stays whole; `-0` and anything larger is a double, as is a number with a point or a
  power of ten. A double is a significand of at most 64 bits scaled by a power of ten; one that is too large for a
  double stands for nothing.
- A character beyond the basic plane may be written as two escapes; half of such a pair stands for nothing.
-/
import FieldSearch.Json.Written
import FieldSearch.Text.Hex

namespace FieldSearch.Json

/-- the characters that may stand between tokens -/
def isGap (c : Char) : Bool := c == ' ' || c == '\n' || c == '\t' || c == '\r'

/-- what is left behind the gap that comes next -/
def skipGap (cs : List Char) : List Char := cs.dropWhile isGap

/-! ## Strings -/

/-- the character that two escaped halves of a pair stand for -/
def joinHalves (high low : Nat) : Char :=
  Char.ofNat (0x10000 + (high - 0xD800) * 0x400 + (low - 0xDC00))

/-- the character of an escape that starts behind its `\`, which half of a pair has not, and how many characters the
escape takes there -/
def escape? : List Char → Option (Option Char × Nat)
  | '"' :: _ => some ('"', 1)
  | '\\' :: _ => some ('\\', 1)
  | '/' :: _ => some ('/', 1)
  | 'b' :: _ => some ('\x08', 1)
  | 'f' :: _ => some ('\x0c', 1)
  | 'n' :: _ => some ('\n', 1)
  | 'r' :: _ => some ('\r', 1)
  | 't' :: _ => some ('\t', 1)
  | 'u' :: cs => (Hex.number? 4 cs).map fun unit =>
    if 0xD800 ≤ unit && unit ≤ 0xDBFF then
      match cs.drop 4 with
      | '\\' :: 'u' :: more =>
        match Hex.number? 4 more with
        | some low => if 0xDC00 ≤ low && low ≤ 0xDFFF then (joinHalves unit low, 11) else (none, 5)
        | none => (none, 5)
      | _ => (none, 5)
    else if 0xDC00 ≤ unit && unit ≤ 0xDFFF then (none, 5)
    else (Char.ofNat unit, 5)
  | _ => none

/-- the characters of a string behind its first quote, and what is left behind its last one; the first `skip`
characters belong to an escape that was read already -/
def readString : (skip : Nat) → List Char → Option (List (Option Char) × List Char)
  | _, [] => none
  | n + 1, _ :: cs => readString n cs
  | 0, '"' :: cs => some ([], cs)
  | 0, '\\' :: cs =>
    match escape? cs with
    | none => none
    | some (c, n) => (readString n cs).map fun (s, r) => (c :: s, r)
  | 0, c :: cs => if c.toNat < 0x20 then none else (readString 0 cs).map fun (s, r) => (some c :: s, r)

/-- the text of a string behind its first quote, which one with half of a pair has not -/
def readText (cs : List Char) : Option (Option String × List Char) :=
  (readString 0 cs).map fun (s, r) => ((s.mapM id).map String.ofList, r)

/-! ## Numbers -/

/-- a significand, which fits 64 bits, and a power of ten -/
structure Scaled where
  significand : Nat
  power : Int

/-- takes digits into the significand for as long as it fits; gives how many were taken -/
def takeDigits (significand : Nat) : List Char → Nat × Nat
  | [] => (significand, 0)
  | c :: cs =>
    let next := 10 * significand + digitValue c
    if next ≤ nat64Max then
      let (s, n) := takeDigits next cs
      (s, n + 1)
    else (significand, 0)

/-- the double of a significand scaled by a power of ten; `none` if it is too large -/
def scaleFloat (x : Float) (power : Int) : Nat → Option Float
  | 0 => none
  | fuel + 1 =>
    if power.natAbs ≤ 308 then
      let ten := Float.ofScientific 1 false power.natAbs
      if 0 ≤ power then
        let y := x * ten
        if y.isInf then none else some y
      else some (x / ten)
    else if x == 0.0 then some x
    else if 0 ≤ power then none
    else scaleFloat (x / Float.ofScientific 1 false 308) (power + 308) fuel

/-- the double of a scaled significand; powers below any double give zero -/
def Scaled.toFloat? (s : Scaled) : Option Float :=
  if s.power < -4000 then some 0.0 else scaleFloat (floatOfNat s.significand) s.power 20

/-- the digits of a power of ten with an optional sign, and what is left -/
def readPower (cs : List Char) : Option (Int × List Char) :=
  let (negative, cs) := match cs with
    | '-' :: r => (true, r)
    | '+' :: r => (false, r)
    | r => (false, r)
  let digits := cs.takeWhile Char.isDigit
  if digits.isEmpty then none
  else
    let n := natOfDigits 0 digits
    some (if negative then -(n : Int) else n, cs.dropWhile Char.isDigit)

/-- a number without its sign: the whole number it is, if it is one of 64 bits, else its double, if there is one -/
def readMagnitude (cs : List Char) : Option (Option (Sum Nat Float) × List Char) :=
  let whole := cs.takeWhile Char.isDigit
  let behind := cs.dropWhile Char.isDigit
  if whole.isEmpty || (whole.head? = some '0' && whole.length ≠ 1) then none
  else
    let (significand, taken) := takeDigits 0 whole
    let surplus : Int := (whole.length - taken : Nat)
    let scaled? : Option (Option Scaled × List Char) := match behind with
      | '.' :: r =>
        let fraction := r.takeWhile Char.isDigit
        if fraction.isEmpty then none
        else
          let (significand, taken) := takeDigits significand fraction
          some (some ⟨significand, surplus - taken⟩, r.dropWhile Char.isDigit)
      | r => some (if surplus = 0 then none else some ⟨significand, surplus⟩, r)
    scaled?.bind fun (scaled, behind) =>
      let withPower (r : List Char) : Option (Option (Sum Nat Float) × List Char) :=
        (readPower r).map fun (power, r) =>
          let base := scaled.getD ⟨significand, 0⟩
          ((Scaled.toFloat? ⟨base.significand, base.power + power⟩).map .inr, r)
      match behind with
      | 'e' :: r => withPower r
      | 'E' :: r => withPower r
      | r =>
        match scaled with
        | none => some (some (.inl significand), r)
        | some s => some (s.toFloat?.map .inr, r)

/-- the number with a minus in front of a magnitude -/
def negated : Sum Nat Float → JsonNumber
  | .inl n => if n = 0 || Nat.pow 2 63 < n then .float (-(floatOfNat n)) else .int (-(n : Int))
  | .inr x => .float (-x)

/-- the number without a sign in front of a magnitude -/
def unsigned : Sum Nat Float → JsonNumber
  | .inl n => .int n
  | .inr x => .float x

/-- a number, which one too large has not, and what is left -/
def readNumber : List Char → Option (Option JsonNumber × List Char)
  | '-' :: r => (readMagnitude r).map fun (m, r) => (m.map negated, r)
  | cs => (readMagnitude cs).map fun (m, r) => (m.map unsigned, r)

/-! ## Values -/

/-- items with commas in front of them, up to a closing character -/
def readMore {α : Type} (item : List Char → Option (α × List Char)) (close : Char) (cs : List Char) :
    Option (List α × List Char) :=
  match skipGap cs with
  | [] => none
  | c :: r =>
    if c = close then some ([], r)
    else if c = ',' then
      match item (skipGap r) with
      | none => none
      | some (a, behind) =>
        if behind.length < cs.length then
          (readMore item close behind).map fun (items, r) => (a :: items, r)
        else none
    else none
termination_by cs.length

/-- items with commas between them, up to a closing character -/
def readItems {α : Type} (item : List Char → Option (α × List Char)) (close : Char) (cs : List Char) :
    Option (List α × List Char) :=
  match skipGap cs with
  | [] => none
  | c :: r =>
    if c = close then some ([], r)
    else (item (c :: r)).bind fun (a, behind) =>
      (readMore item close behind).map fun (items, r) => (a :: items, r)

/-- a member of an object: its key, a colon and its value -/
def readMember (value : List Char → Option (Written × List Char)) (cs : List Char) :
    Option ((Option String × Written) × List Char) :=
  match cs with
  | '"' :: r => do
    let (key, r) ← readText r
    match skipGap r with
    | ':' :: r =>
      let (v, r) ← value (skipGap r)
      return ((key, v), r)
    | _ => none
  | _ => none

/-- what is left behind a word that must come next -/
def expectWord (word : String) (cs : List Char) : Option (List Char) :=
  if word.toList.isPrefixOf cs then some (cs.drop word.length) else none

/-- a value without nested ones, and what is left -/
def readScalar (cs : List Char) : Option (Written × List Char) :=
  match cs with
  | '"' :: r => (readText r).map fun (s, r) => (.string s, r)
  | 'n' :: _ => (expectWord "null" cs).map fun r => (.null, r)
  | 't' :: _ => (expectWord "true" cs).map fun r => (.bool true, r)
  | 'f' :: _ => (expectWord "false" cs).map fun r => (.bool false, r)
  | cs => (readNumber cs).map fun (n, r) => (.number n, r)

/-- a value nested at most `depth` deep, and what is left -/
def readValue : (depth : Nat) → List Char → Option (Written × List Char)
  | 0, cs => readScalar cs
  | depth + 1, '[' :: r =>
    (readItems (readValue depth) ']' r).map fun (items, r) => (.array items, r)
  | depth + 1, '\x7b' :: r =>
    (readItems (readMember (readValue depth)) '\x7d' r).map fun (members, r) => (.object members, r)
  | _ + 1, cs => readScalar cs

/-- what a text has written; it is nested no deeper than the text is long -/
def Written.parse? (text : String) : Option Written :=
  let start := skipGap text.toList
  (readValue start.length start).bind fun (value, r) => if (skipGap r).isEmpty then some value else none

/-- how deep values may be nested -/
def nestingLimit : Nat := 127

/-- the value that a text stands for, with members as they were read -/
def parse? (text : String) : Option Json :=
  ((Written.parse? text).bind Written.value?).bind fun value => if value.depth ≤ nestingLimit then some value else none

end FieldSearch.Json
