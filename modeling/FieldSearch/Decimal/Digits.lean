/-
Decimal digits: whole numbers written in and read from ASCII digits.

- `writeNat` and `writeInt` are the usual notation: no leading zero, a `-` in front of a negative number.
- `readNat?` reads any non-empty run of digits, `readInt?` an optional sign in front of one.
-/

namespace FieldSearch

/-- the value of an ASCII digit -/
def digitValue (c : Char) : Nat := c.toNat - '0'.toNat

/-- the ASCII digit of a value below ten -/
def digitChar (n : Nat) : Char := Char.ofNat ('0'.toNat + n)

/-- the number that digits stand for, going on from `start` -/
def natOfDigits (start : Nat) (cs : List Char) : Nat :=
  cs.foldl (fun n c => 10 * n + digitValue c) start

/-- the digits of a number in front of `behind` -/
def digitsOnto (n : Nat) (behind : List Char) : List Char :=
  if n < 10 then digitChar n :: behind else digitsOnto (n / 10) (digitChar (n % 10) :: behind)

/-- a number in digits -/
def writeNat (n : Nat) : String := String.ofList (digitsOnto n [])

/-- a number in digits, with a `-` if it is negative -/
def writeInt (n : Int) : String :=
  if n < 0 then "-" ++ writeNat n.natAbs else writeNat n.natAbs

/-- the number that a text stands for, if it is a non-empty run of digits -/
def readNat? (cs : List Char) : Option Nat :=
  if cs.isEmpty || !cs.all Char.isDigit then none else some (natOfDigits 0 cs)

/-- the number that a text stands for, if it is digits with at most one sign in front -/
def readInt? : List Char → Option Int
  | [] => none
  | c :: cs =>
    if c = '-' then (readNat? cs).map fun n => -(n : Int)
    else if c = '+' then (readNat? cs).map fun n => (n : Int)
    else (readNat? (c :: cs)).map fun n => (n : Int)

/-- a number in at least `width` digits, filled up with zeros -/
def writePadded (width n : Nat) : String :=
  String.ofList (List.replicate (width - (digitsOnto n []).length) '0' ++ digitsOnto n [])

end FieldSearch
