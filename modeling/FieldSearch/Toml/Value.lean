/-
TOML values: strings, truth values, numbers, points in time, and the places of keys.

Numbers and points in time are checked but not kept, since no schema asks for one.
-/
import FieldSearch.Date
import FieldSearch.Decimal.Reading
import FieldSearch.Text.Hex

namespace FieldSearch.Toml

inductive Value where
  | bool (b : Bool)
  | text (s : String)
  /-- a number or a point in time -/
  | other
  | list (items : List Value)
  | table (members : List (String × Value))
deriving Inhabited

/-! ## Characters -/

/-- whether a character is a space or a tab -/
def isSpace (c : Char) : Bool := c == ' ' || c == '\t'

/-- whether a character is a control character that must not stand in text; a tab may -/
def isControl (c : Char) : Bool := (c.toNat < 0x20 && c != '\t') || c.toNat == 0x7F

/-- whether a character may stand in a key without quotes -/
def isBareKeyChar (c : Char) : Bool := c.isAlphanum || c == '_' || c == '-'

/-- what is left behind spaces and tabs -/
def skipSpaces (cs : List Char) : List Char := cs.dropWhile isSpace

/-- what is left behind the end of a line that comes next -/
def readNewline : List Char → Option (List Char)
  | '\n' :: r => some r
  | '\r' :: '\n' :: r => some r
  | _ => none

/-- what is left behind a comment, if one comes next and holds no control character -/
def skipComment : List Char → Option (List Char)
  | '#' :: r =>
    let behind := r.dropWhile (!isControl ·)
    match behind with
    | [] => some []
    | cs => if (readNewline cs).isSome then some cs else none
  | cs => some cs

/-- what is left behind spaces, comments and ends of lines, as they may stand in an array -/
def skipFiller (cs : List Char) : Option (List Char) :=
  match skipComment (skipSpaces cs) with
  | none => none
  | some behind =>
    match readNewline behind with
    | none => some behind
    | some next => if next.length < cs.length then skipFiller next else none
termination_by cs.length

/-! ## Strings -/

/-- the character of an escape behind its `\`, and how many characters it takes there -/
def escape? : List Char → Option (Char × Nat)
  | 'b' :: _ => some ('\x08', 1)
  | 't' :: _ => some ('\t', 1)
  | 'n' :: _ => some ('\n', 1)
  | 'f' :: _ => some ('\x0c', 1)
  | 'r' :: _ => some ('\r', 1)
  | '"' :: _ => some ('"', 1)
  | '\\' :: _ => some ('\\', 1)
  | 'u' :: r => (Hex.char? 4 r).map fun c => (c, 5)
  | 'U' :: r => (Hex.char? 8 r).map fun c => (c, 9)
  | _ => none

/-- a quote of strings without escapes -/
def singleQuote : Char := '\x27'

/-- reads a string of one line behind its first quote; the first `skip` characters belong to an escape -/
def readLine (quote : Char) : (skip : Nat) → List Char → Option (List Char × List Char)
  | _, [] => none
  | n + 1, _ :: r => readLine quote n r
  | 0, c :: r =>
    if c = quote then some ([], r)
    else if quote = '"' && c = '\\' then
      match escape? r with
      | none => none
      | some (a, n) => (readLine quote n r).map fun (s, rest) => (a :: s, rest)
    else if isControl c then none
    else (readLine quote 0 r).map fun (s, rest) => (c :: s, rest)

/-- what is left behind blanks and ends of lines -/
def skipBlankLines (cs : List Char) : List Char :=
  let behind := skipSpaces cs
  match readNewline behind with
  | none => behind
  | some next => if next.length < cs.length then skipBlankLines next else behind
termination_by cs.length

/-- what is left behind a `\` that ends a line with all blanks behind it, if at least one line ends there -/
def skipLineEnd (cs : List Char) : Option (List Char) := (readNewline (skipSpaces cs)).map skipBlankLines

/-- reads a string of several lines behind its first quotes -/
def readLines (quote : Char) (cs : List Char) : Option (List Char × List Char) :=
  let goOn (text rest : List Char) : Option (List Char × List Char) :=
    if rest.length < cs.length then (readLines quote rest).map fun (s, r) => (text ++ s, r) else none
  match cs with
  | [] => none
  | c :: r =>
    if c = quote then
      let run := (c :: r).takeWhile (· == quote)
      if 3 ≤ run.length then
        if run.length ≤ 5 then some (run.drop 3, (c :: r).drop run.length) else none
      else goOn run ((c :: r).drop run.length)
    else if quote = '"' && c = '\\' then
      match escape? r with
      | some (a, n) => goOn [a] (r.drop n)
      | none => (skipLineEnd r).bind fun rest => goOn [] rest
    else
      match readNewline (c :: r) with
      | some rest => goOn ['\n'] rest
      | none => if isControl c then none else goOn [c] r
termination_by cs.length

/-- reads a string that starts with a quote -/
def readString (cs : List Char) : Option (List Char × List Char) :=
  let open3 (quote : Char) (r : List Char) := readLines quote ((readNewline r).getD r)
  match cs with
  | '"' :: '"' :: '"' :: r => open3 '"' r
  | '"' :: r => readLine '"' 0 r
  | '\x27' :: '\x27' :: '\x27' :: r => open3 singleQuote r
  | '\x27' :: r => readLine singleQuote 0 r
  | _ => none

/-! ## Keys -/

/-- reads one part of a key: quoted on one line, or bare -/
def readKeyPart (cs : List Char) : Option (String × List Char) :=
  match cs with
  | '"' :: r => (readLine '"' 0 r).map fun (s, rest) => (String.ofList s, rest)
  | '\x27' :: r => (readLine singleQuote 0 r).map fun (s, rest) => (String.ofList s, rest)
  | cs =>
    match cs.takeWhile isBareKeyChar with
    | [] => none
    | part => some (String.ofList part, cs.drop part.length)

/-- reads a key of one or more parts with dots between them; blanks may stand around the parts -/
def readKeyParts (cs : List Char) : Option (List String × List Char) :=
  match readKeyPart (skipSpaces cs) with
  | none => none
  | some (part, behind) =>
    match skipSpaces behind with
    | '.' :: r =>
      if r.length < cs.length then (readKeyParts r).map fun (parts, rest) => (part :: parts, rest) else none
    | rest => some ([part], rest)
termination_by cs.length

/-- how many parts a key may have -/
def partLimit : Nat := 79

/-- reads a key of not too many parts -/
def readKey (cs : List Char) : Option (List String × List Char) :=
  (readKeyParts cs).bind fun (parts, rest) => if parts.length ≤ partLimit then some (parts, rest) else none

/-! ## Numbers and points in time -/

/-- whether digits stand with at most single underscores between them -/
def isDigits (test : Char → Bool) : List Char → Bool
  | [] => false
  | [c] => test c
  | c :: '_' :: r => test c && isDigits test r
  | c :: r => test c && isDigits test r

/-- the characters without a sign in front -/
def dropSign : List Char → List Char
  | '+' :: r => r
  | '-' :: r => r
  | cs => cs

/-- whether a whole number without its sign is written in decimal digits, with no zero in front of others -/
def isWhole (cs : List Char) : Bool :=
  isDigits Char.isDigit cs && (cs.head? != some '0' || cs.length == 1)

/-- whether a number in digits of a base is at most as large as a bound -/
def isAtMost (bound base : Nat) (cs : List Char) : Bool :=
  (cs.filter (· != '_')).foldl (fun n c => base * n + (Hex.value? c).getD 0) 0 ≤ bound

/-- whether a token is a whole number of 64 bits -/
def isInteger (cs : List Char) : Bool :=
  match cs with
  | '0' :: 'x' :: r => isDigits Hex.isDigit r && isAtMost int64Max.toNat 16 r
  | '0' :: 'o' :: r => isDigits (fun c => '0' ≤ c && c ≤ '7') r && isAtMost int64Max.toNat 8 r
  | '0' :: 'b' :: r => isDigits (fun c => c == '0' || c == '1') r && isAtMost int64Max.toNat 2 r
  | '-' :: r => isWhole r && isAtMost (Nat.pow 2 63) 10 r
  | cs => isWhole (dropSign cs) && isAtMost int64Max.toNat 10 (dropSign cs)

/-- whether the characters are the power of ten of a number -/
def isPower : List Char → Bool
  | 'e' :: r => isDigits Char.isDigit (dropSign r)
  | 'E' :: r => isDigits Char.isDigit (dropSign r)
  | _ => false

/-- whether a token is a number with a point or a power of ten, or one of the words for such -/
def isFloat (cs : List Char) : Bool :=
  let cs := dropSign cs
  let isDigitLike (c : Char) := c.isDigit || c == '_'
  let whole := cs.takeWhile isDigitLike
  cs == "inf".toList || cs == "nan".toList ||
    (isWhole whole &&
      match cs.drop whole.length with
      | '.' :: r =>
        let fraction := r.takeWhile isDigitLike
        let behind := r.drop fraction.length
        isDigits Char.isDigit fraction && (behind.isEmpty || isPower behind)
      | r => isPower r)

/-- whether a number is above all doubles; one below them is as good as the least infinity -/
def isTooLarge (cs : List Char) : Bool :=
  let digits := cs.filter (· != '_')
  digits.any Char.isDigit && (readFloat? (String.ofList digits)).any fun x => x == 1.0 / 0.0

/-- the number of exactly `n` digits in front -/
def digits? (n : Nat) (cs : List Char) : Option (Nat × List Char) :=
  let part := cs.take n
  if part.length = n && part.all Char.isDigit then some (natOfDigits 0 part, cs.drop n) else none

/-- what is left behind a date -/
def readDate (cs : List Char) : Option (List Char) := do
  let (year, r) ← digits? 4 cs
  let r ← Date.readDash r
  let (month, r) ← digits? 2 r
  let r ← Date.readDash r
  let (day, r) ← digits? 2 r
  if isDate year month day then some r else none

/-- what is left behind hours and minutes -/
def readHourMinute (cs : List Char) : Option (List Char) := do
  let (hour, r) ← digits? 2 cs
  match r with
  | ':' :: r =>
    let (minute, r) ← digits? 2 r
    if hour ≤ 23 && minute ≤ 59 then some r else none
  | _ => none

/-- what is left behind a time of day -/
def readTime (cs : List Char) : Option (List Char) := do
  match ← readHourMinute cs with
  | ':' :: r =>
    let (second, r) ← digits? 2 r
    if 60 < second then none
    match r with
    | '.' :: r =>
      let fraction := r.takeWhile Char.isDigit
      if fraction.isEmpty then none else some (r.drop fraction.length)
    | r => some r
  | _ => none

/-- whether the characters are the distance of a time from the common one -/
def isOffset : List Char → Bool
  | ['Z'] => true
  | ['z'] => true
  | '+' :: r => readHourMinute r == some []
  | '-' :: r => readHourMinute r == some []
  | _ => false

/-- whether a token is a date, a time, or both -/
def isDatetime (cs : List Char) : Bool :=
  match readDate cs with
  | none => readTime cs == some []
  | some [] => true
  | some (c :: r) =>
    (c == 'T' || c == 't' || c == ' ') && (readTime r).any fun behind => behind.isEmpty || isOffset behind

/-- whether a character may stand in a value without quotes and brackets -/
def isTokenChar (c : Char) : Bool := c.isAlphanum || c == '_' || c == '-' || c == '+' || c == '.' || c == ':'

/-- the token that comes next; a time may follow a date behind one space -/
def readToken (cs : List Char) : List Char × List Char :=
  let token := cs.takeWhile isTokenChar
  let behind := cs.drop token.length
  match readDate token, behind with
  | some [], ' ' :: r =>
    let time := r.takeWhile isTokenChar
    if (readHourMinute time).isSome then (token ++ ' ' :: time, r.drop time.length) else (token, behind)
  | _, _ => (token, behind)

/-- reads a value without quotes and brackets -/
def readBare (cs : List Char) : Option (Value × List Char) :=
  let (token, behind) := readToken cs
  if token = "true".toList then some (.bool true, behind)
  else if token = "false".toList then some (.bool false, behind)
  else if isInteger token || (isFloat token && !isTooLarge token) || isDatetime token then some (.other, behind)
  else none

/-- reads a value without nested ones -/
def readScalar (cs : List Char) : Option (Value × List Char) :=
  match cs with
  | '"' :: _ => (readString cs).map fun (s, r) => (.text (String.ofList s), r)
  | '\x27' :: _ => (readString cs).map fun (s, r) => (.text (String.ofList s), r)
  | cs => readBare cs

end FieldSearch.Toml
