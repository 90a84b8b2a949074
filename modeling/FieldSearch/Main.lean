/-
The command line: reads the files that a call needs, and prints its outcome.
-/
import FieldSearch.Command.Run

namespace FieldSearch.Command

/-- what stands at a path on disk -/
def readContent (path : String) : IO FileContent := do
  try
    return .text (← IO.FS.readFile path)
  catch e =>
    match e with
    | .noFileOrDirectory .. => return .fault .missing
    | .inappropriateType .. => return .fault .directory
    | .resourceExhausted .. => return .fault .notDirectory
    | _ => return .fault .notText

def configDirectory : IO String := do
  match ← IO.getEnv "XDG_CONFIG_HOME" with
  | some dir => if "/".isPrefixOf dir then return dir
  | none => pure ()
  match ← IO.getEnv "HOME" with
  | some home => return home ++ "/.config"
  | none => return ".config"

/-- the name under which the program is called -/
def programName : IO String := do
  return (← IO.appPath).fileStem.getD "fieldsearch"

/-- the schema that applies when none is named: in the directory of the program's name, below that of configurations -/
def defaultSchema : IO String := do
  return (← configDirectory) ++ "/" ++ (← programName) ++ "/schema.toml"

/-- what a call takes from outside, with the files at some paths read -/
def readEnvironment (paths : String → List String) : IO Environment := do
  let schema ← defaultSchema
  let contents ← (paths schema).mapM fun path => do return (path, ← readContent path)
  return ⟨schema, fun path => (contents.lookup path).getD (.fault .missing), ← programName⟩

end FieldSearch.Command

open FieldSearch.Command in
/-- runs the program -/
def main (args : List String) : IO UInt32 := do
  let paths (schema : String) := match readArguments args with
    | some (.invoke i) => i.paths schema
    | _ => []
  let outcome := runArguments (← readEnvironment paths) args
  IO.print outcome.stdout
  IO.eprint outcome.stderr
  return outcome.code.toUInt32
