/-
Running the commands.

- All that a command takes from outside is in its `Environment`: what stands in files, and where the schema is looked
  for that applies when none is named. What it gives is an `Outcome`.
- A schema that is named must exist; the other one need not, and then there is the built-in one.
- A search says on the error channel how many records it found, unless it is told to be quiet. So are errors.
-/
import FieldSearch.Command.Arguments
import FieldSearch.Schema.Reading

namespace FieldSearch.Command

/-- what stands at a path -/
inductive FileContent where
  | text (s : String)
  | fault (f : FileFault)
deriving DecidableEq, Repr

/-- whether something stands at the path -/
def FileContent.exists? : FileContent → Bool
  | .fault .missing => false
  | .fault .notDirectory => false
  | _ => true

/-- what commands take from outside -/
structure Environment where
  /-- the path of the schema that applies when none is named -/
  defaultSchema : String
  /-- what stands at a path -/
  read : String → FileContent
  /-- the name under which the program is called -/
  program : String

/-- what a command gives -/
structure Outcome where
  code : Nat
  stdout : String := ""
  stderr : String := ""
deriving DecidableEq, Repr

def Environment.text (env : Environment) (path : String) : Except Error String :=
  match env.read path with
  | .text s => .ok s
  | .fault f => .error (.file f)

/-- the schema of a file -/
def Environment.schemaAt (env : Environment) (path : String) : Except Error Schema := do
  Schema.parse (← env.text path) (Format.ofPath path)

/-- the schema that is named, else the one that applies without a name -/
def Environment.schema (env : Environment) : Option String → Except Error Schema
  | some path =>
    if (env.read path).exists? then env.schemaAt path else .error (.config (.schemaMissing path))
  | none =>
    if (env.read env.defaultSchema).exists? then env.schemaAt env.defaultSchema else .ok Schema.builtin

/-- what an action answers -/
inductive Body where
  /-- a value, printed in the format that is asked for -/
  | value (answer : Json)
  /-- a line that is printed as it is -/
  | line (text : String)

/-- the text that is printed of an answer -/
def Body.render (format : OutputFormat) : Body → Except Error String
  | .value answer => (format.render answer).map (· ++ "\n")
  | .line text => .ok (text ++ "\n")

/-- the remark of a search that found some of the records -/
def searchRemark (found records : Nat) : String :=
  writeNat found ++ " of " ++ writeNat records ++ " records matched\n"

/-- what an action answers, and what it remarks on the error channel -/
def respond (env : Environment) (schema : Option String) : Action → Except Error (String × Body)
  | .parse query byTerms => do
    let s ← env.schema schema
    return ("", .value (← if byTerms then parseTerms s query else parseStatements query))
  | .normalize query isRaw => do
    let terms ← termsOf (← env.schema schema) query
    return ("", if isRaw then .line (normalizedTerms terms) else .value (normalizeAnswer query terms))
  | .merge query form encode => do
    return ("", .value (← mergeAnswer query form encode))
  | .search query data byTerms limit => do
    let s ← env.schema schema
    let records ← Selection.ofJson (← env.text data)
    let (normalized, found) ← s.search byTerms query records
    let results := found.results
    return (searchRemark results.length records.size, .value (searchAnswer query normalized results limit))

/-- the outcome of an action that failed -/
def failed (isQuiet : Bool) (remark : String) (e : Error) : Outcome :=
  ⟨e.exitCode, "", if isQuiet then "" else remark ++ "Error: " ++ e.message ++ "\n"⟩

/-- the outcome of a call -/
def run (env : Environment) (i : Invocation) : Outcome :=
  match respond env i.schema i.action with
  | .error e => failed i.isQuiet "" e
  | .ok (remark, body) =>
    match body.render i.format with
    | .error e => failed i.isQuiet remark e
    | .ok text => ⟨0, text, if i.isQuiet then "" else remark⟩

/-- how the program is called -/
def usage (program : String) : String :=
  "Usage: " ++ program ++ " [OPTIONS] <COMMAND>\n\nCommands: parse, normalize, merge, search, help\n"

/-- the outcome of the program called with some arguments -/
def runArguments (env : Environment) (args : List String) : Outcome :=
  match readArguments args with
  | none => ⟨2, "", usage env.program⟩
  | some .help => ⟨0, usage env.program, ""⟩
  | some .version => ⟨0, env.program ++ " 0.1.0\n", ""⟩
  | some (.invoke i) => run env i

/-- the paths that a call may read -/
def Invocation.paths (i : Invocation) (defaultSchema : String) : List String :=
  match i.action with
  | .merge .. => []
  | .search _ data _ _ => [i.schema.getD defaultSchema, data]
  | _ => [i.schema.getD defaultSchema]

end FieldSearch.Command
