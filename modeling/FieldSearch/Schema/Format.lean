/-
Formats of schema files, told from their names.

The extension is what follows the last dot of the last part of a path, unless the part starts with that dot. Small and
capital letters differ.
-/

namespace FieldSearch

/-- a format of schema files -/
inductive Format where
  | toml
  | yaml
  | json
deriving DecidableEq, Repr

/-- the parts of a path that name something -/
def pathParts (path : String) : List String :=
  ((path.toList.splitOn '/').map String.ofList).filter fun part => part ≠ "" && part ≠ "."

/-- what follows the last dot of a file name, if something stands in front of the dot -/
def nameExtension (name : String) : Option String :=
  let reversed := name.toList.reverse
  let extension := reversed.takeWhile (· ≠ '.')
  if name = ".." || reversed.length ≤ extension.length + 1 then none
  else some (String.ofList extension.reverse)

def pathExtension (path : String) : Option String := (pathParts path).getLast?.bind nameExtension

/-- the format of a schema file, TOML unless its name says otherwise -/
def Format.ofPath (path : String) : Format :=
  match pathExtension path with
  | some "yaml" | some "yml" => .yaml
  | some "json" => .json
  | _ => .toml

end FieldSearch
