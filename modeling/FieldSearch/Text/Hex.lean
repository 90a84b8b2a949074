/-
Hexadecimal digits: read in either case, written in small or in capital letters.
-/
import FieldSearch.Decimal.Digits

namespace FieldSearch.Hex

/-- the value of a digit -/
def value? (c : Char) : Option Nat :=
  if c.isDigit then some (digitValue c)
  else if 'a' ≤ c && c ≤ 'f' then some (c.toNat - 'a'.toNat + 10)
  else if 'A' ≤ c && c ≤ 'F' then some (c.toNat - 'A'.toNat + 10)
  else none

def isDigit (c : Char) : Bool := (value? c).isSome

/-- the number that the first `n` characters stand for, if they are digits -/
def number? (n : Nat) (cs : List Char) : Option Nat := do
  let digits ← (cs.take n).mapM value?
  if digits.length = n then some (digits.foldl (fun v d => 16 * v + d) 0) else none

/-- the character whose number the first `n` characters are -/
def char? (n : Nat) (cs : List Char) : Option Char :=
  (number? n cs).bind fun v => if v.isValidChar then some (Char.ofNat v) else none

/-- the digit of a value below sixteen, in small letters -/
def lowerDigit (n : Nat) : Char := if n < 10 then digitChar n else Char.ofNat ('a'.toNat + (n - 10))

/-- the digit of a value below sixteen, in capital letters -/
def upperDigit (n : Nat) : Char := if n < 10 then digitChar n else Char.ofNat ('A'.toNat + (n - 10))

/-- the last digits of a number, `width` of them, with the digits that `digit` gives -/
def write (digit : Nat → Char) (width n : Nat) : List Char :=
  (List.range width).map fun i => digit (n / Nat.pow 16 (width - 1 - i) % 16)

end FieldSearch.Hex
