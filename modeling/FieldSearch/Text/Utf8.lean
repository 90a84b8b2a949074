/-
Characters as bytes and bytes as characters, by the rules of UTF-8.

- `utf8Bytes` gives the one to four bytes of a character.
- `decodeUtf8` reads bytes back. The first sequence that is none is reported with its place: it is cut short by the end
  of the bytes, or it has a length up to which it could still have become one.
-/
import FieldSearch.Error

namespace FieldSearch

def utf8Bytes (c : Char) : List Nat :=
  let n := c.toNat
  if n < 0x80 then [n]
  else if n < 0x800 then [0xC0 + n / 0x40, 0x80 + n % 0x40]
  else if n < 0x10000 then [0xE0 + n / 0x1000, 0x80 + n / 0x40 % 0x40, 0x80 + n % 0x40]
  else [0xF0 + n / 0x40000, 0x80 + n / 0x1000 % 0x40, 0x80 + n / 0x40 % 0x40, 0x80 + n % 0x40]

/-- how a first byte goes on: the number of bytes that follow, and the range of the first of them -/
structure Lead where
  follow : Nat
  low : Nat
  high : Nat

/-- how a first byte above the ASCII range goes on -/
def lead? (b : Nat) : Option Lead :=
  if b < 0xC2 then none
  else if b < 0xE0 then some ⟨1, 0x80, 0xBF⟩
  else if b = 0xE0 then some ⟨2, 0xA0, 0xBF⟩
  else if b = 0xED then some ⟨2, 0x80, 0x9F⟩
  else if b < 0xF0 then some ⟨2, 0x80, 0xBF⟩
  else if b = 0xF0 then some ⟨3, 0x90, 0xBF⟩
  else if b < 0xF4 then some ⟨3, 0x80, 0xBF⟩
  else if b = 0xF4 then some ⟨3, 0x80, 0x8F⟩
  else none

/-- whether a byte may stand behind a first one -/
def isFollowing (b : Nat) : Bool := 0x80 ≤ b && b ≤ 0xBF

/-- the characters of bytes, of which the first stands at `start` -/
def decodeUtf8 (start : Nat) : List Nat → Except ByteFault (List Char)
  | [] => .ok []
  | a :: r =>
    if a < 0x80 then (decodeUtf8 (start + 1) r).map (Char.ofNat a :: ·)
    else
      match lead? a, r with
      | none, _ => .error (.invalid 1 start)
      | some _, [] => .error (.incomplete start)
      | some lead, b :: r =>
        if b < lead.low || lead.high < b then .error (.invalid 1 start)
        else if lead.follow = 1 then
          (decodeUtf8 (start + 2) r).map (Char.ofNat ((a - 0xC0) * 0x40 + (b - 0x80)) :: ·)
        else
          match r with
          | [] => .error (.incomplete start)
          | c :: r =>
            if !isFollowing c then .error (.invalid 2 start)
            else if lead.follow = 2 then
              (decodeUtf8 (start + 3) r).map
                (Char.ofNat ((a - 0xE0) * 0x1000 + (b - 0x80) * 0x40 + (c - 0x80)) :: ·)
            else
              match r with
              | [] => .error (.incomplete start)
              | d :: r =>
                if !isFollowing d then .error (.invalid 3 start)
                else (decodeUtf8 (start + 4) r).map
                  (Char.ofNat ((a - 0xF0) * 0x40000 + (b - 0x80) * 0x1000 + (c - 0x80) * 0x40 + (d - 0x80)) :: ·)

end FieldSearch
