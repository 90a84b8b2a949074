/-
The shortest decimal that reads back as a given floating-point number.

A finite number is m · 2^q. The reals that round to it form an interval around it, ends included exactly if m is even.
For 1, 2, … 17 digits the two neighbours of the number on that decimal grid are tested; the first grid with a hit wins,
of two hits the nearer, of two equally near ones the one with the even last digit. All of it is exact arithmetic on
natural numbers. `Layout` says how the digits found are set out.
-/
import FieldSearch.Decimal.Digits

namespace FieldSearch

/-- digits and the power of ten of the first of them: `digits` = 125, `exponent` = 1 stand for 12.5 -/
structure Scientific where
  digits : Nat
  exponent : Int
deriving DecidableEq, Repr

/-- a positive binary number `mantissa` · 2^`exponent`, and whether its lower neighbour is only half as far away as
its upper one -/
structure Binary where
  mantissa : Nat
  exponent : Int
  narrowBelow : Bool
deriving DecidableEq, Repr

namespace Binary

/-- the number, and half the distance to the neighbour above and below, as numerators over one denominator -/
def fractions (b : Binary) : Nat × Nat × Nat × Nat :=
  let up := Nat.pow 2 b.exponent.toNat
  let down := Nat.pow 2 (-b.exponent).toNat
  (4 * b.mantissa * up, 2 * up, if b.narrowBelow then up else 2 * up, 4 * down)

/-- `n` · 10^`e` over a denominator `den` compared to a numerator: both sides as whole numbers -/
def scaled (n : Nat) (e : Int) (num den : Nat) : Nat × Nat :=
  (n * Nat.pow 10 e.toNat * den, num * Nat.pow 10 (-e).toNat)

/-- whether `n` · 10^`e` rounds to the number -/
def holds (b : Binary) (n : Nat) (e : Int) : Bool :=
  let (value, above, below, den) := b.fractions
  let (x, high) := scaled n e (value + above) den
  let (_, low) := scaled n e (value - below) den
  if b.mantissa % 2 = 0 then low ≤ x && x ≤ high else low < x && x < high

/-- the greatest `e` with 10^`e` at most the number, looked for downwards from `start` -/
def leading (b : Binary) (start : Int) : (atMost : Nat) → Int
  | 0 => start
  | n + 1 =>
    let (value, _, _, den) := b.fractions
    let (x, v) := scaled 1 start value den
    if x ≤ v then start else b.leading (start - 1) n

/-- the whole number of steps 10^`e` in the number, rounded down -/
def steps (b : Binary) (e : Int) : Nat :=
  let (value, _, _, den) := b.fractions
  value * Nat.pow 10 (-e).toNat / (den * Nat.pow 10 e.toNat)

/-- whether the grid point above is nearer to the number than the one below; a tie goes to the even one -/
def prefersUpper (b : Binary) (n : Nat) (e : Int) : Bool :=
  let (value, _, _, den) := b.fractions
  let (x, twice) := scaled (2 * n + 1) e (2 * value) den
  x < twice || (x == twice && n % 2 == 1)

/-- the best decimal on the grid of `10^e`, if one reads back -/
def onGrid (b : Binary) (e : Int) : Option Nat :=
  let n := b.steps e
  match b.holds n e, b.holds (n + 1) e with
  | true, true => some (if b.prefersUpper n e then n + 1 else n)
  | true, false => some n
  | false, true => some (n + 1)
  | false, false => none

/-- the first grid from `count` digits on that has a decimal reading back, with `more` digits still to try -/
def search (b : Binary) (lead : Int) (count : Nat) : Nat → Nat × Int
  | 0 => (b.steps (lead - count + 1), lead - count + 1)
  | more + 1 =>
    let e := lead - count + 1
    match b.onGrid e with
    | some n => (n, e)
    | none => b.search lead (count + 1) more

/-- the number without its last zeros, each of which moves the exponent up -/
def stripZeros (n : Nat) (e : Int) : (atMost : Nat) → Nat × Int
  | 0 => (n, e)
  | atMost + 1 => if n ≠ 0 && n % 10 = 0 then stripZeros (n / 10) (e + 1) atMost else (n, e)

/-- the shortest decimal that reads back as the number -/
def shortest (b : Binary) : Scientific :=
  let lead := b.leading 309 640
  let (n, e) := b.search lead 1 17
  let (n, e) := stripZeros n e 20
  ⟨n, e + ((digitsOnto n []).length : Int) - 1⟩

end Binary

/-- a floating-point number taken apart -/
inductive FloatParts where
  | nan
  | infinite (negative : Bool)
  | zero (negative : Bool)
  | finite (negative : Bool) (value : Binary)
deriving DecidableEq, Repr

/-- the parts behind the bits of a double -/
def FloatParts.ofBits (bits : Nat) : FloatParts :=
  let negative := bits / Nat.pow 2 63 % 2 == 1
  let field : Nat := bits / Nat.pow 2 52 % Nat.pow 2 11
  let fraction : Nat := bits % Nat.pow 2 52
  if field = 2047 then if fraction = 0 then .infinite negative else .nan
  else if field = 0 then
    if fraction = 0 then .zero negative else .finite negative ⟨fraction, -1074, false⟩
  else .finite negative ⟨Nat.pow 2 52 + fraction, (field : Int) - 1075, fraction == 0 && field != 1⟩

/-- the parts of a double -/
def FloatParts.of (x : Float) : FloatParts := .ofBits x.toBits.toNat

/-- how digits are set out -/
structure Layout where
  /-- the least exponent written without a power of ten -/
  plainFrom : Int
  /-- the first exponent above those -/
  plainUpTo : Int
  /-- what marks the power of ten -/
  mark : String
  /-- whether a positive power has a sign -/
  signedPower : Bool
  /-- what stands behind the digits of a whole number written without a power -/
  wholeEnd : String
  /-- what stands behind a lone digit in front of a power -/
  loneEnd : String
  nan : String
  infinity : String
deriving DecidableEq, Repr

/-- a text of digits with a point after the first `n` of them -/
def pointAfter (n : Nat) (digits : List Char) : String :=
  String.ofList (digits.take n) ++ "." ++ String.ofList (digits.drop n)

/-- digits set out in a layout -/
def Layout.write (layout : Layout) (s : Scientific) : String :=
  let digits := digitsOnto s.digits []
  let count := digits.length
  if layout.plainFrom ≤ s.exponent && s.exponent < layout.plainUpTo then
    if s.exponent < 0 then
      "0." ++ String.ofList (List.replicate ((-s.exponent).toNat - 1) '0' ++ digits)
    else if count ≤ s.exponent.toNat + 1 then
      String.ofList (digits ++ List.replicate (s.exponent.toNat + 1 - count) '0') ++ layout.wholeEnd
    else pointAfter (s.exponent.toNat + 1) digits
  else
    let power := if s.exponent < 0 then writeInt s.exponent
      else (if layout.signedPower then "+" else "") ++ writeInt s.exponent
    (if count = 1 then String.ofList digits ++ layout.loneEnd else pointAfter 1 digits) ++ layout.mark ++ power

/-- a double in a layout -/
def Layout.writeFloat (layout : Layout) (x : Float) : String :=
  let signed (negative : Bool) (text : String) := if negative then "-" ++ text else text
  match FloatParts.of x with
  | .nan => layout.nan
  | .infinite negative => signed negative layout.infinity
  | .zero negative => signed negative ("0" ++ layout.wholeEnd)
  | .finite negative value => signed negative (layout.write value.shortest)

end FieldSearch
