import BuildPipeline.CommandLine.Arguments
import BuildPipeline.Decimal.Whole

namespace BuildPipeline.CommandLine

structure RunRequest where
  path : String
  project : String
  targets : List String := []
  refs : Option String := none
  promote : Bool := false
  parallelism : Option Int := none
  timeout : Option Float := none

inductive Command where
  | promotedTags (path : String) (asJson : Bool)
  | graph (path : String) (targets : List String) (promote : Bool)
  | run (request : RunRequest)
  | setting (key : String) (value : Option String)
  | help

namespace Command

def helpOption : OptionName := ⟨"--help", none, false⟩

def targetOption : OptionName := ⟨"--target", some 't', true⟩

def promoteOption : OptionName := ⟨"--promote", none, false⟩

def jsonOption : OptionName := ⟨"--json", none, false⟩

def runOptions : List OptionName :=
  [⟨"--namespace", some 'n', true⟩, targetOption, ⟨"--refs", none, true⟩, promoteOption,
   ⟨"--parallelism", some 'j', true⟩, ⟨"--timeout", none, true⟩,
   ⟨"--verbose", some 'v', false⟩, helpOption]

def readOption (read : String → Option α) : Option String → Option (Option α)
  | none => some none
  | some text => (read text).map some

def runRequest? (path : String) (arguments : Arguments) : Option RunRequest := do
  let project ← arguments.last? "--namespace"
  let parallelism ← readOption Decimal.readInt? (arguments.last? "--parallelism")
  let timeout ← readOption Decimal.readFloat? (arguments.last? "--timeout")
  pure
    { path, project, parallelism, timeout
      targets := arguments.all "--target"
      refs := arguments.last? "--refs"
      promote := arguments.has "--promote" }

def ofArguments? (known : List OptionName) (words : List String)
    (build : Arguments → Option Command) : Option Command := do
  let arguments ← Arguments.read (helpOption :: known) words {}
  if arguments.has "--help" then return .help else build arguments

/-- The command of the first word; a command line that asks for nothing known has none. -/
def ofCommandWords? : List String → Option Command
  | "promoted-tags" :: words =>
      ofArguments? [jsonOption] words fun arguments =>
        match arguments.positional with
        | [path] => some (.promotedTags path (arguments.has "--json"))
        | _ => none
  | "graph" :: words =>
      ofArguments? [targetOption, promoteOption] words fun arguments =>
        match arguments.positional with
        | [path] =>
            some (.graph path (arguments.all "--target") (arguments.has "--promote"))
        | _ => none
  | "run" :: words =>
      ofArguments? runOptions words fun arguments =>
        match arguments.positional with
        | [path] => (runRequest? path arguments).map .run
        | _ => none
  | "config" :: words =>
      ofArguments? [] words fun arguments =>
        match arguments.positional with
        | [key] => some (.setting key none)
        | [key, value] => some (.setting key (some value))
        | _ => none
  | "--help" :: _ => some .help
  | _ => none

/-- Two dashes may stand before the command: the program itself has no options but the one
for help. -/
def ofWords? : List String → Option Command
  | "--" :: words => ofCommandWords? words
  | words => ofCommandWords? words

end Command

end BuildPipeline.CommandLine
