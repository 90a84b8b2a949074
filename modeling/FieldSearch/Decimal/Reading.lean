/-
Numbers read from text: whole numbers of 64 bits and doubles.

- `readInt64?` takes an optional sign and digits, within the range of 64 bits with sign.
- `readFloat?` takes an optional sign and digits with an optional point and power of ten, rounded to the nearest double,
  or one of the words for infinity and for what is no number, in any case.
- `floatOfNat` is the double nearest to a whole number.
-/
import FieldSearch.Decimal.Digits

namespace FieldSearch

/-- the least whole number of 64 bits with sign -/
def int64Min : Int := -9223372036854775808

/-- the greatest whole number of 64 bits with sign -/
def int64Max : Int := 9223372036854775807

/-- the greatest whole number of 64 bits without sign -/
def nat64Max : Nat := 18446744073709551615

/-- a whole number of 64 bits with sign -/
def readInt64? (s : String) : Option Int :=
  (readInt? s.toList).bind fun n => if int64Min ≤ n && n ≤ int64Max then some n else none

/-- the double nearest to a whole number -/
def floatOfNat (n : Nat) : Float := Float.ofScientific n false 0

/-- the double nearest to a whole number with sign -/
def floatOfInt (n : Int) : Float :=
  if n < 0 then -(floatOfNat n.natAbs) else floatOfNat n.natAbs

/-- the double nearest to `n` · 10^`e`; a power far out of range gives zero or infinity at once -/
def floatOfDecimal (n : Nat) (e : Int) : Float :=
  let lead := e + ((digitsOnto n []).length : Int)
  if n = 0 then 0.0
  else if lead < -400 then 0.0
  else if 400 < lead then 1.0 / 0.0
  else Float.ofScientific n (e < 0) e.natAbs

/-- an unsigned decimal: digits with an optional point, at least one digit, and an optional power of ten -/
def readDecimal? (cs : List Char) : Option Float :=
  let whole := cs.takeWhile Char.isDigit
  let afterWhole := cs.dropWhile Char.isDigit
  let (fraction, tail) := match afterWhole with
    | '.' :: r => (r.takeWhile Char.isDigit, r.dropWhile Char.isDigit)
    | r => ([], r)
  if whole.isEmpty && fraction.isEmpty then none
  else
    let n := natOfDigits 0 (whole ++ fraction)
    let e := -(fraction.length : Int)
    match tail with
    | [] => some (floatOfDecimal n e)
    | mark :: power =>
      if mark = 'e' || mark = 'E' then (readInt? power).map fun p => floatOfDecimal n (e + p) else none

/-- a double without its sign: a decimal, or a word in any case -/
def readMagnitude? (cs : List Char) : Option Float :=
  match String.ofList (cs.map Char.toLower) with
  | "inf" | "infinity" => some (1.0 / 0.0)
  | "nan" => some (0.0 / 0.0)
  | _ => readDecimal? cs

/-- a double with an optional sign -/
def readFloat? (s : String) : Option Float :=
  match s.toList with
  | [] => none
  | c :: cs =>
    if c = '-' then (readMagnitude? cs).map fun x => -x
    else if c = '+' then readMagnitude? cs
    else readMagnitude? (c :: cs)

end FieldSearch
