/-
Lower case of whole texts, for comparing text without regard to case.

- Most capitals have one lower-case character. `İ` has two.
- A `Σ` becomes `ς` at the end of a word and `σ` elsewhere. It ends a word if a character with case stands before it and
  none after it, where marks and some punctuation do not count.
-/
import FieldSearch.Text.CaseTable

namespace FieldSearch

/-- whether a run in steps has a character -/
def LowerRun.holds (run : LowerRun) (n : Nat) : Bool :=
  run.first ≤ n && n ≤ run.last && (n - run.first) % run.step == 0

/-- the lower case of a character that stands for itself -/
def lowerChar (c : Char) : Char :=
  if c.toNat < 0x80 then c.toLower
  else
    match lowerRuns.find? (·.holds c.toNat) with
    | some run => Char.ofNat (c.toNat + run.shift).toNat
    | none => c

/-- whether a run of a table has a character -/
def inRuns (runs : List (Nat × Nat)) (c : Char) : Bool :=
  runs.any fun run => run.1 ≤ c.toNat && c.toNat ≤ run.2

/-- whether the first character that counts has case -/
def meetsCased (cs : List Char) : Bool :=
  (cs.dropWhile (inRuns skippedRuns)).head?.any (inRuns casedRuns)

/-- the lower case of characters; `before` are those in front of them, the nearest first -/
def lowerChars (before : List Char) : List Char → List Char
  | [] => []
  | c :: cs =>
    let lowered :=
      if c = 'Σ' then if meetsCased before && !meetsCased cs then ['ς'] else ['σ']
      else if c = 'İ' then ['i', '\u0307']
      else [lowerChar c]
    lowered ++ lowerChars (c :: before) cs

/-- the lower case of a text -/
def lowerCase (s : String) : String := String.ofList (lowerChars [] s.toList)

end FieldSearch
