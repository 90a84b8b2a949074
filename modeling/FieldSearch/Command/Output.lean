/-
What the commands answer, and the formats in which it is printed.
-/
import FieldSearch.Json.Writer
import FieldSearch.Schema.Search
import FieldSearch.Statement.Encoding
import FieldSearch.Statement.Persistence
import FieldSearch.Term.Encoding
import FieldSearch.Toml.Writer
import FieldSearch.Yaml.Writer

namespace FieldSearch.Command

/-- a format of answers -/
inductive OutputFormat where
  | json
  | yaml
  | toml
deriving DecidableEq, Repr

def OutputFormat.render (format : OutputFormat) (answer : Json) : Except Error String :=
  match format with
  | .json => .ok answer.pretty
  | .yaml => .ok (Yaml.write answer)
  | .toml =>
    match Toml.write answer with
    | some text => .ok text
    | none => .error .tomlValue

/-- the answer to reading a query by either grammar -/
def parseAnswer (query grammar literal normalized : String) (ast : List Json) : Json :=
  .object [("query", .string query), ("grammar", .string grammar), ("literal", .string literal),
    ("normalized", .string normalized), ("ast", .array ast)]

/-- a search text, read -/
def parseStatements (query : String) : Except Error Json :=
  (StatementList.parse query).map fun list =>
    parseAnswer query "statements" list.literal list.normalized (list.statements.map Statement.toJson)

/-- a term query, read by the fields of a schema -/
def parseTerms (schema : Schema) (query : String) : Except Error Json := do
  let registry : TermRegistry Selection ← schema.termRegistry
  let terms ← registry.parse query
  return parseAnswer query "terms" (literalTerms terms) (normalizedTerms terms) (terms.map Term.toJson)

def termsOf (schema : Schema) (query : String) : Except Error (List Term) := do
  let registry : TermRegistry Selection ← schema.termRegistry
  registry.parse query

/-- a term query in normalized form -/
def normalizeAnswer (query : String) (terms : List Term) : Json :=
  .object [("query", .string query), ("normalized", .string (normalizedTerms terms)), ("terms", .nat terms.length)]

/-- a query with a form merged in; `encode` asks for percent-encoding -/
def mergeAnswer (query form : String) (encode : Bool) : Except Error Json := do
  let list ← StatementList.parse query
  let formList ← StatementList.parse form
  let merged := list.merge formList
  return .object [("query", .string query), ("form", .string form),
    ("merged", .string (if encode then merged.encode else merged.serialize)), ("normalized", .string merged.normalized)]

/-- what a search found, at most `limit` of it -/
def searchAnswer (query normalized : String) (results : List Json) (limit : Option Nat) : Json :=
  .object [("query", .string query), ("normalized", .string normalized), ("total", .nat results.length),
    ("results", .array (match limit with
      | some n => results.take n
      | none => results))]

end FieldSearch.Command
