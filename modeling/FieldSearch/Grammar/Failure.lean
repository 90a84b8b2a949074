/-
Failures of reading: what was expected and where, and which of several failures is reported.

- `Expectation` lists what the grammars ask for; `Expectation.text` is its wording.
- `furthest` keeps the failure that got furthest into the text; of two at one place the later one is kept. It is
  associative with `none` as its unit, so failures can be collected in any grouping.
- `Complaint` is the outcome: an unmet expectation, or a character (or the end of the text) that nothing asked about.
-/

namespace FieldSearch

/-- what a reader asks for -/
inductive Expectation where
  | value
  | closingQuote
  | closingParen
  | negatedValue
  /-- a parenthesis stands where only one value can be negated -/
  | negatedGroup
  | sortField
  | sortSuffix
  | statementBreak
  | termBreak
  /-- unqualified text needs a default term -/
  | termName
  | other (text : String)
deriving DecidableEq, Repr

/-- the wording of an expectation -/
def Expectation.text : Expectation → String
  | .value => "a value"
  | .closingQuote => "a closing '\"'"
  | .closingParen => "')'"
  | .negatedValue => "a value after a negation"
  | .negatedGroup => "a single value after a negation (negating a group is not supported)"
  | .sortField => "a sort field"
  | .sortSuffix => "'-asc', '-desc' or '-dsc'"
  | .statementBreak => "whitespace between statements"
  | .termBreak => "whitespace between terms"
  | .termName => "a term name (no default term is registered)"
  | .other text => text

/-- an expectation that was not met at a byte offset -/
structure Failure where
  offset : Nat
  expectation : Expectation
deriving DecidableEq, Repr

/-- of an earlier and a later failure the one that is reported -/
def furthest : Option Failure → Option Failure → Option Failure
  | none, later => later
  | earlier, none => earlier
  | some earlier, some later => if later.offset < earlier.offset then some earlier else some later

/-- why a text could not be read at a place -/
inductive Complaint where
  | expected (expectation : Expectation)
  | unexpectedChar (c : Char)
  | unexpectedEnd
deriving DecidableEq, Repr

/-- the wording of a complaint -/
def Complaint.text : Complaint → String
  | .expected expectation => "expected " ++ expectation.text
  | .unexpectedChar c => "unexpected '" ++ String.singleton c ++ "'"
  | .unexpectedEnd => "unexpected end of input"

end FieldSearch
