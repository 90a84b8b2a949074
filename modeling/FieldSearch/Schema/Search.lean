/-
Searching records with the schema of their documents, by a search text or by a term query.
-/
import FieldSearch.Records.Selection
import FieldSearch.Schema.Basic
import FieldSearch.Statement.Reading
import FieldSearch.Statement.Writing
import FieldSearch.Term.Reading

namespace FieldSearch.Schema

/-- searches by a search text; gives its normalized form and what was found -/
def searchStatements (s : Schema) (text : String) (records : Selection) : Except Error (String × Selection) := do
  let ctx ← s.indexContext
  let list ← s.applyDefaultSort ctx (← StatementList.parse text)
  let (list, found) := ctx.execute list records
  return (list.normalized, found)

/-- searches by a term query; gives its normalized form and what was found -/
def searchTerms (s : Schema) (text : String) (records : Selection) : Except Error (String × Selection) := do
  let registry ← s.termRegistry
  let terms ← registry.parse text
  return (normalizedTerms terms, registry.execute {} terms records)

/-- searches by either grammar -/
def search (s : Schema) (byTerms : Bool) (text : String) (records : Selection) : Except Error (String × Selection) :=
  if byTerms then s.searchTerms text records else s.searchStatements text records

end FieldSearch.Schema
