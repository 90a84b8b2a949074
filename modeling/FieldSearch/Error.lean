/-
Errors of the library: each cause with its wording and the exit code of the command line.

- A malformed query ends the command with 2, a wrong configuration with 3, anything else with 1.
- `Error.message` is the full wording. Of a malformed document only the kind of document is said.
-/
import FieldSearch.Decimal.Digits
import FieldSearch.Grammar.Failure

namespace FieldSearch

/-- what is wrong with the bytes behind a percent-encoded text -/
inductive ByteFault where
  /-- a sequence that no continuation makes valid: its length and where it starts -/
  | invalid (length start : Nat)
  /-- the bytes end inside a sequence that starts at an offset -/
  | incomplete (start : Nat)
deriving DecidableEq, Repr

/-- the wording of a byte fault -/
def ByteFault.text : ByteFault → String
  | .invalid length start => "invalid utf-8 sequence of " ++ writeNat length ++ " bytes from index " ++ writeNat start
  | .incomplete start => "incomplete utf-8 byte sequence from index " ++ writeNat start

/-- what is wrong with a configuration -/
inductive ConfigFault where
  /-- more than one field is the default field -/
  | defaultFields (names : List String)
  /-- the records are no JSON array -/
  | recordsNotArray
  /-- the schema file that was asked for does not exist -/
  | schemaMissing (path : String)
deriving DecidableEq, Repr

/-- the wording of a configuration fault -/
def ConfigFault.text : ConfigFault → String
  | .defaultFields names => "Only one default field is allowed, found: " ++ ", ".intercalate names
  | .recordsNotArray => "record data must be a JSON array"
  | .schemaMissing path => "Schema file not found: " ++ path

/-- why a file could not be read -/
inductive FileFault where
  | missing
  | directory
  | notDirectory
  | notText
deriving DecidableEq, Repr

/-- the wording of a file fault -/
def FileFault.text : FileFault → String
  | .missing => "No such file or directory (os error 2)"
  | .directory => "Is a directory (os error 21)"
  | .notDirectory => "Not a directory (os error 20)"
  | .notText => "stream did not contain valid UTF-8"

/-- everything that can go wrong -/
inductive Error where
  | parse (offset : Nat) (complaint : Complaint)
  | duplicateTerm (name : String)
  | invalidName (name : String)
  | defaultTermSet (name : String)
  | unknownFilter (name : String)
  | unknownSort (name : String)
  | defaultFilterSet (name : String)
  | config (fault : ConfigFault)
  | decode (fault : ByteFault)
  | file (fault : FileFault)
  | yaml
  | json
  | toml
  /-- a value that has no form in TOML -/
  | tomlValue
deriving DecidableEq, Repr

/-- the full wording of an error -/
def Error.message : Error → String
  | .parse offset complaint => "Parse error at position " ++ writeNat offset ++ ": " ++ complaint.text
  | .duplicateTerm name => "Term already registered: " ++ name
  | .invalidName name => "Invalid term name: '" ++ name ++ "'"
  | .defaultTermSet name => "A default term is already registered: " ++ name
  | .unknownFilter name => "Filter not registered: " ++ name
  | .unknownSort name => "Sort not registered: " ++ name
  | .defaultFilterSet name => "The default filter has already been set: " ++ name
  | .config fault => "Config error: " ++ fault.text
  | .decode fault => "Invalid encoded query: " ++ fault.text
  | .file fault => "IO error: " ++ fault.text
  | .yaml => "YAML parse error"
  | .json => "JSON error"
  | .toml => "TOML parse error"
  | .tomlValue => "TOML serialize error"

/-- whether the query text itself is malformed -/
def Error.isParse : Error → Bool
  | .parse .. => true
  | _ => false

/-- the exit code of the command line: 2 for a malformed query, 3 for a wrong configuration, else 1 -/
def Error.exitCode : Error → Nat
  | .parse .. => 2
  | .duplicateTerm _ | .invalidName _ | .defaultTermSet _ | .unknownFilter _ | .unknownSort _ | .defaultFilterSet _
  | .config _ | .toml | .yaml => 3
  | .decode _ | .file _ | .json | .tomlValue => 1

end FieldSearch
