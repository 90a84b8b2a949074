/-
Percent-encoding, as in the query part of an address.

- Letters, digits and `-`, `_`, `.`, `~` stay as they are; every byte of any other character becomes `%` and two
  capital hexadecimal digits.
- Decoding takes a `+` for a blank and leaves a `%` that no two digits follow as it is.
-/
import FieldSearch.Text.Hex
import FieldSearch.Text.Utf8

namespace FieldSearch.Percent

/-- whether a character needs no encoding -/
def isPlain (c : Char) : Bool := c.isAlphanum || c == '-' || c == '_' || c == '.' || c == '~'

/-- a byte in encoded form -/
def encodeByte (b : Nat) : List Char := ['%', Hex.upperDigit (b / 16), Hex.upperDigit (b % 16)]

/-- a character in encoded form -/
def encodeChar (c : Char) : List Char :=
  if isPlain c then [c] else (utf8Bytes c).flatMap encodeByte

/-- a text in encoded form -/
def encode (s : String) : String := String.ofList (s.toList.flatMap encodeChar)

/-- the bytes behind an encoded text -/
def bytes : List Char → List Nat
  | [] => []
  | [a] => utf8Bytes a
  | [a, b] => utf8Bytes a ++ utf8Bytes b
  | a :: b :: c :: r =>
    if a = '%' then
      match Hex.value? b, Hex.value? c with
      | some high, some low => (16 * high + low) :: bytes r
      | _, _ => utf8Bytes a ++ bytes (b :: c :: r)
    else utf8Bytes a ++ bytes (b :: c :: r)

/-- the text behind an encoded one, in which a `+` stands for a blank -/
def decode (s : String) : Except Error String :=
  match decodeUtf8 0 (bytes (s.toList.map fun c => if c = '+' then ' ' else c)) with
  | .ok cs => .ok (String.ofList cs)
  | .error fault => .error (.decode fault)

end FieldSearch.Percent
