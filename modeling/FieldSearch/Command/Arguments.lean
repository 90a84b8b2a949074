/-
Arguments of the command line.

- A subcommand follows the options of the program. Options for every subcommand may also stand behind its name, where
  they count again: a value given there wins.
- A flag or an option is given at most once on each side of the subcommand, and at most one output format on each side.
  Only `-v` may be repeated.
- `--` ends the options; a lone `-` is no option.
-/
import FieldSearch.Command.Output

namespace FieldSearch.Command

/-- what is to be done -/
inductive Action where
  | parse (query : String) (byTerms : Bool)
  | normalize (query : String) (isRaw : Bool)
  | merge (query form : String) (encode : Bool)
  | search (query data : String) (byTerms : Bool) (limit : Option Nat)
deriving DecidableEq, Repr

/-- a call of the program -/
structure Invocation where
  schema : Option String
  format : OutputFormat
  isQuiet : Bool
  action : Action
deriving DecidableEq, Repr

/-- what the arguments ask for -/
inductive Request where
  | invoke (invocation : Invocation)
  | help
  | version
deriving DecidableEq, Repr

/-- an option: its long name, its letter, whether a value follows, and whether it may be repeated -/
structure OptionSpec where
  long : String
  letter : Option Char := none
  takesValue : Bool := false
  isRepeatable : Bool := false

/-- the options for every subcommand -/
def commonOptions : List OptionSpec :=
  [⟨"schema", none, true, false⟩, ⟨"json", none, false, false⟩, ⟨"yaml", none, false, false⟩,
   ⟨"toml", none, false, false⟩, ⟨"quiet", some 'q', false, false⟩, ⟨"verbose", some 'v', false, true⟩]

inductive Subcommand where
  | parse
  | normalize
  | merge
  | search
deriving DecidableEq, Repr

def Subcommand.ofName? : String → Option Subcommand
  | "parse" => some .parse
  | "normalize" => some .normalize
  | "merge" => some .merge
  | "search" => some .search
  | _ => none

/-- the options of a subcommand of its own -/
def Subcommand.options : Subcommand → List OptionSpec
  | .parse => [⟨"terms", none, false, false⟩]
  | .normalize => [⟨"raw", none, false, false⟩]
  | .merge => [⟨"query", none, true, false⟩, ⟨"form", none, true, false⟩, ⟨"encode", none, false, false⟩]
  | .search => [⟨"data", none, true, false⟩, ⟨"terms", none, false, false⟩, ⟨"limit", none, true, false⟩]

/-- how many arguments without an option a subcommand takes -/
def Subcommand.operands : Subcommand → Nat
  | .merge => 0
  | _ => 1

/-- the options and operands given on one side of the subcommand -/
structure Given where
  options : List (String × String) := []
  operands : List String := []

def Given.value? (g : Given) (name : String) : Option String := g.options.lookup name

/-- whether an option is given -/
def Given.has (g : Given) (name : String) : Bool := (g.value? name).isSome

/-- one option more, unless it must not be repeated -/
def Given.add (g : Given) (spec : OptionSpec) (value : String) : Option Given :=
  if g.has spec.long && !spec.isRepeatable then none
  else some { g with options := g.options ++ [(spec.long, value)] }

/-- an option that was met: with its value, or in need of the argument that follows -/
inductive Met where
  | flags (specs : List OptionSpec)
  | value (spec : OptionSpec) (value : String)
  | needsValue (spec : OptionSpec)
  | help
  | version

/-- whether an argument is an option and not a value -/
def isOption (arg : String) : Bool := "-".isPrefixOf arg && arg != "-"

/-- the options behind the letters of one argument -/
def meetLetters (specs : List OptionSpec) (isTop : Bool) : List Char → List OptionSpec → Option Met
  | [], met => some (.flags met)
  | c :: r, met =>
    match specs.find? (·.letter = some c) with
    | some spec => meetLetters specs isTop r (met ++ [spec])
    | none => if c = 'h' then some .help else if c = 'V' && isTop then some .version else none

/-- the option of an argument behind its two dashes -/
def meetLong (specs : List OptionSpec) (isTop : Bool) (text : List Char) : Option Met :=
  let name := String.ofList (text.takeWhile (· ≠ '='))
  let value : Option String := match text.dropWhile (· ≠ '=') with
    | [] => none
    | _ :: r => some (String.ofList r)
  match specs.find? (·.long = name), value with
  | some spec, some v => if spec.takesValue then some (.value spec v) else none
  | some spec, none => if spec.takesValue then some (.needsValue spec) else some (.flags [spec])
  | none, none => if name = "help" then some .help else if name = "version" && isTop then some .version else none
  | none, some _ => none

/-- the option of an argument -/
def meet (specs : List OptionSpec) (isTop : Bool) (arg : String) : Option Met :=
  match arg.toList with
  | '-' :: '-' :: text => meetLong specs isTop text
  | '-' :: letters => meetLetters specs isTop letters []
  | _ => none

/-- what one side of the subcommand says -/
inductive Side where
  | given (g : Given) (rest : Option (Subcommand × List String))
  | help
  | version

/-- reads one side; on the first (`isTop`) it ends at the name of a subcommand -/
def readSide (specs : List OptionSpec) (isTop : Bool) (g : Given) : List String → Option Side
  | [] => some (.given g none)
  | arg :: args =>
    if arg = "--" then
      if isTop then none else some (.given { g with operands := g.operands ++ args } none)
    else if isOption arg then
      match meet specs isTop arg, args with
      | none, _ => none
      | some .help, _ => some .help
      | some .version, _ => some .version
      | some (.flags met), args => (met.foldlM (fun (g : Given) spec => g.add spec "") g).bind fun g =>
        readSide specs isTop g args
      | some (.value spec v), args => (g.add spec v).bind fun g => readSide specs isTop g args
      | some (.needsValue _), [] => none
      | some (.needsValue spec), v :: args =>
        if isOption v then none else (g.add spec v).bind fun g => readSide specs isTop g args
    else if isTop then
      if arg = "help" then some .help
      else (Subcommand.ofName? arg).map fun sub => .given g (some (sub, args))
    else readSide specs isTop { g with operands := g.operands ++ [arg] } args

/-- whether at most one output format is given and no path is empty -/
def Given.isSound (g : Given) : Bool :=
  ((["json", "yaml", "toml"].filter g.has).length ≤ 1) && g.value? "schema" != some "" && g.value? "data" != some ""

/-- the number that a limit says -/
def readLimit? (s : String) : Option Nat :=
  let digits := match s.toList with
    | '+' :: r => r
    | cs => cs
  (readNat? digits).bind fun n => if n ≤ nat64Max then some n else none

/-- the limit that is given, if it is a number -/
def Given.limit? (g : Given) : Option (Option Nat) :=
  match g.value? "limit" with
  | none => some none
  | some s => (readLimit? s).map some

/-- the action of a subcommand with what is given behind its name -/
def Subcommand.action? (sub : Subcommand) (g : Given) : Option Action :=
  match sub, g.operands with
  | .parse, [query] => some (.parse query (g.has "terms"))
  | .normalize, [query] => some (.normalize query (g.has "raw"))
  | .merge, [] => some (.merge ((g.value? "query").getD "") ((g.value? "form").getD "") (g.has "encode"))
  | .search, [query] => do
    return .search query (← g.value? "data") (g.has "terms") (← g.limit?)
  | _, _ => none

/-- the output format by what is given on both sides -/
def formatOf (outer inner : Given) : OutputFormat :=
  if outer.has "yaml" || inner.has "yaml" then .yaml
  else if outer.has "toml" || inner.has "toml" then .toml
  else .json

/-- the call that both sides say together -/
def invocation? (outer : Given) (sub : Subcommand) (inner : Given) : Option Invocation :=
  if outer.isSound && inner.isSound then
    (sub.action? inner).map fun action =>
      ⟨(inner.value? "schema").or (outer.value? "schema"), formatOf outer inner,
        outer.has "quiet" || inner.has "quiet", action⟩
  else none

/-- what the arguments ask for, if they make sense -/
def readArguments (args : List String) : Option Request :=
  match readSide commonOptions true {} args with
  | none => none
  | some .help => some .help
  | some .version => some .version
  | some (.given _ none) => none
  | some (.given outer (some (sub, args))) =>
    match readSide (commonOptions ++ sub.options) false {} args with
    | some (.given inner _) => (invocation? outer sub inner).map .invoke
    | some .help => some .help
    | some .version => some .version
    | none => none

end FieldSearch.Command
