/-
Calendar dates: reading and writing them as year, month and day.

- A date is valid by construction: the month has the day, and the year is one of the supported ones.
- A year is written with at least four digits, and outside 0 to 9999 with a sign.
- Reading takes blanks in front of each number; a year without a sign has at most four digits, month and day have one
  or two.
-/
import FieldSearch.Decimal.Reading
import FieldSearch.Text.Blank

namespace FieldSearch

/-- whether a year has a 29th of February -/
def isLeapYear (year : Int) : Bool := year % 4 == 0 && (year % 100 != 0 || year % 400 == 0)

/-- how many days a month has; none if there is no such month -/
def daysInMonth (year : Int) (month : Nat) : Nat :=
  match month with
  | 1 | 3 | 5 | 7 | 8 | 10 | 12 => 31
  | 4 | 6 | 9 | 11 => 30
  | 2 => if isLeapYear year then 29 else 28
  | _ => 0

/-- whether a day is one of the calendar, within the supported years -/
def isDate (year : Int) (month day : Nat) : Bool :=
  -262143 ≤ year && year ≤ 262142 && 1 ≤ day && day ≤ daysInMonth year month

/-- a day of the calendar -/
structure Date where
  year : Int
  month : Nat
  day : Nat
  isDate_eq : isDate year month day = true
deriving DecidableEq

namespace Date

/-- the date of a year, a month and a day, if there is one -/
def of? (year : Int) (month day : Nat) : Option Date :=
  if h : isDate year month day = true then some ⟨year, month, day, h⟩ else none

/-- the first day of 1970, which stands in for text that is no date -/
def epoch : Date := ⟨1970, 1, 1, by decide⟩

/-- a year in at least four digits, with a sign outside 0 to 9999 -/
def writeYear (year : Int) : String :=
  if 0 ≤ year && year ≤ 9999 then writePadded 4 year.natAbs
  else (if year < 0 then "-" else "+") ++ writePadded 4 year.natAbs

/-- a date as year, month and day -/
def text (d : Date) : String :=
  writeYear d.year ++ "-" ++ writePadded 2 d.month ++ "-" ++ writePadded 2 d.day

/-! ## Reading -/

/-- reads one to `most` digits, as a number of 64 bits -/
def readDigits (most : Nat) (cs : List Char) : Option (Nat × List Char) :=
  let digits := (cs.takeWhile Char.isDigit).take most
  let n := natOfDigits 0 digits
  if digits.isEmpty || int64Max < (n : Int) then none else some (n, cs.drop digits.length)

/-- reads a year: after a sign any number of digits, else at most four -/
def readYear (cs : List Char) : Option (Int × List Char) :=
  match dropBlanks cs with
  | [] => none
  | c :: r =>
    if c = '-' then (readDigits r.length r).map fun (n, behind) => (-(n : Int), behind)
    else if c = '+' then (readDigits r.length r).map fun (n, behind) => ((n : Int), behind)
    else (readDigits 4 (c :: r)).map fun (n, behind) => ((n : Int), behind)

/-- reads a `-` -/
def readDash : List Char → Option (List Char)
  | '-' :: r => some r
  | _ => none

/-- reads a date, with what may stand in front of a `-` and behind the day removed by `skip` -/
def readWith (skip : List Char → List Char) (cs : List Char) : Option Date := do
  let (year, r) ← readYear cs
  let r ← readDash (skip r)
  let (month, r) ← readDigits 2 (dropBlanks r)
  let r ← readDash (skip r)
  let (day, r) ← readDigits 2 (dropBlanks r)
  if (skip r).isEmpty then of? year month day else none

/-- the date that a text stands for -/
def parse? (s : String) : Option Date := readWith id s.toList

/-- the date that a text stands for, where blanks may also stand in front of a `-` and at the end -/
def parseLoose? (s : String) : Option Date := readWith dropBlanks s.toList

end Date

end FieldSearch
