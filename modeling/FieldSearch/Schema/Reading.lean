/-
Schemas read from files of any format. What was read is checked before it is used.
-/
import FieldSearch.Json.Document
import FieldSearch.Json.Reader
import FieldSearch.Schema.Encoding
import FieldSearch.Schema.Format
import FieldSearch.Toml.Document
import FieldSearch.Toml.Table
import FieldSearch.Yaml.Document

namespace FieldSearch.Schema

/-- the schema that a text describes in a format -/
def read? (text : String) : Format → Option Schema
  | .json => (Json.Written.parse? text).bind ofDocument?
  | .toml => (Toml.parse? text).bind ofDocument?
  | .yaml => (Yaml.Subject.parse? text).bind fun s => if s.isModest shape then ofDocument? s else none

/-- the error of a text that is no schema in a format -/
def malformed : Format → Error
  | .json => .json
  | .toml => .toml
  | .yaml => .yaml

/-- a schema that was read, if it has no fault -/
def checked (format : Format) : Option Schema → Except Error Schema
  | none => .error (malformed format)
  | some s => s.validate.map fun _ => s

def parse (text : String) (format : Format) : Except Error Schema :=
  checked format (read? text format)

/-- the schema of a JSON value -/
def ofJson (j : Json) : Except Error Schema := checked .json (ofDocument? j.written)

end FieldSearch.Schema
