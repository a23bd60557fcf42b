import BuildPipeline.CommandLine.Command
import BuildPipeline.Document.Json.Writer
import BuildPipeline.Graph.Order
import BuildPipeline.Release.Configuration
import BuildPipeline.Release.Promoted
import BuildPipeline.Report.Console
import BuildPipeline.Settings.Basic
import BuildPipeline.Task.Site
import BuildPipeline.Text.Lines

namespace BuildPipeline.CommandLine

open Document

variable {σ : Type}

structure Surroundings where
  files : Files
  globalPath : Path
  exported : List (String × String) := []

/-- How a command ends: its exit code, the lines it prints, and the files as it leaves
them. -/
structure Outcome where
  exitCode : Nat
  lines : List Line := []
  files : Option Files := none

structure Connection where
  url : Value
  token : Option String
  verify : Bool

structure Launch where
  connection : Connection
  graph : StepGraph Task PullSpec
  parallelism : Int
  timeout : Option Float
  sink : Option Sink

def failedExit : Nat := 1

def refusedExit : Nat := 2

namespace Outcome

/-- What is printed is plain text, whatever stands in the files it comes from. -/
def printed (texts : List String) : Outcome :=
  { exitCode := 0, lines := texts.map fun text => { text := Text.withoutControls text } }

def refused (exitCode : Nat) (text : String) : Outcome :=
  { exitCode, lines := [{ isError := true, text := Text.withoutControls text }] }

def unexpected (failure : Failure) : Outcome :=
  if failure.message = "" then { exitCode := failedExit }
  else refused failedExit ("Unexpected error: " ++ failure.message)

def ofFailure (failure : Failure) : Outcome :=
  if failure.isConfiguration then refused refusedExit ("Error: " ++ failure.message)
  else unexpected failure

def ofExcept : Except Failure Outcome → Outcome
  | .ok outcome => outcome
  | .error failure => ofFailure failure

def misused : Outcome :=
  { exitCode := failedExit }

end Outcome

namespace Surroundings

def path (surroundings : Surroundings) (text : String) : Path :=
  Path.ofText surroundings.files.top text

def settings (surroundings : Surroundings) : Except Failure Settings :=
  Settings.ofDirectory surroundings.files surroundings.globalPath {}

def exportedValue (surroundings : Surroundings) (name : String) : String :=
  (surroundings.exported.lookup name).getD ""

def configuration (surroundings : Surroundings) (path : String) :
    Except Failure Configuration := do
  let configuration ← Configuration.ofFile surroundings.files (surroundings.path path)
  configuration.validate
  return configuration

def promotedTags (surroundings : Surroundings) (path : String) (asJson : Bool) :
    Except Failure Outcome := do
  let configuration ← surroundings.configuration path
  let tags := configuration.promotedReferences.map ImageReference.text
  return .printed (if asJson then [Json.indentedTexts tags] else tags)

def dryRunProject : String := "dry-run"

def stepLine (graph : StepGraph κ ρ) (name : String) : String :=
  let needed := Text.sort (graph.dependencies name)
  if needed.isEmpty then name else name ++ " <- " ++ Text.commaSeparated needed

def graph (surroundings : Surroundings) (path : String) (targets : List String)
    (promote : Bool) :
    Except Failure Outcome := do
  let configuration ← surroundings.configuration path
  let plan ← Plan.ofConfiguration configuration { project := dryRunProject } targets promote
  let graph ← plan.graph
  return .printed (graph.order.map (stepLine graph))

def setting (surroundings : Surroundings) (key : String) (value : Option String) :
    Except Failure Outcome := do
  let settings ← surroundings.settings
  match value with
  | none =>
      match settings.get key with
      | .null => return .refused failedExit (key ++ " is not set")
      | value => return .printed [← value.written]
  | some value =>
      let (outcome, files) := (settings.set key (.string value)).save surroundings.files
      let said := "Set " ++ key ++ " in " ++ settings.path.text surroundings.files.top
      return { Outcome.ofExcept (outcome.map fun _ => .printed [said]) with
        files := some files }

/-! The run that is asked for.  The connection, where there is one, comes first: it is
opened even if something later stands in the way. -/

def noCluster : Outcome :=
  .refused refusedExit
    "Error: no cluster_url configured. Set it with 'cigraph config cluster_url <url>'"

def job (surroundings : Surroundings) (request : RunRequest) : Except Failure Job := do
  let refs ← match request.refs with
    | none => pure none
    | some text => if text = "" then pure none else some <$> Refs.parse text
  return { project := request.project, name := surroundings.exportedValue "JOB_NAME"
           buildId := surroundings.exportedValue "BUILD_ID", refs }

def connection (surroundings : Surroundings) (settings : Settings) :
    Except Failure Connection := do
  return { url := settings.clusterUrl, token := ← settings.token surroundings.files
           verify := settings.verifiesTls }

def sink (settings : Settings) : Except Failure (Option Sink) :=
  let url := settings.reportUrl
  if !url.isTrue then .ok none
  else
    match url with
    | .string url => .ok (some (Sink.ofSettings url [] .null []))
    | _ => .error (.misuse .missingField)

def chosenParallelism (request : RunRequest) (settings : Settings) : Except Failure Int :=
  match request.parallelism with
  | some count => if count = 0 then settings.parallelism else .ok count
  | none => settings.parallelism

def chosenTimeout (request : RunRequest) (settings : Settings) :
    Except Failure (Option Float) :=
  match request.timeout with
  | some seconds => if seconds == 0.0 then settings.timeout else .ok (some seconds)
  | none => settings.timeout

def launchOn (request : RunRequest) (settings : Settings) (configuration : Configuration)
    (job : Job) (connection : Connection) : Except Failure Launch := do
  let plan ← Plan.ofConfiguration configuration job request.targets request.promote
  let sink ← sink settings
  let parallelism ← chosenParallelism request settings
  let timeout ← chosenTimeout request settings
  let graph ← plan.graph
  return { connection, graph, parallelism, timeout, sink }

def launch (surroundings : Surroundings) (request : RunRequest) :
    Option Connection × Except Outcome Launch :=
  match surroundings.settings with
  | .error failure => (none, .error (.ofFailure failure))
  | .ok settings =>
      if !settings.clusterUrl.isTrue then (none, .error noCluster)
      else
        let ready := do
          let configuration ← surroundings.configuration request.path
          let job ← surroundings.job request
          let connection ← surroundings.connection settings
          return (configuration, job, connection)
        match ready with
        | .error failure => (none, .error (.ofFailure failure))
        | .ok (configuration, job, connection) =>
            (some connection,
              (launchOn request settings configuration job connection).mapError .ofFailure)

end Surroundings

/-! What is printed of a run, and its exit code.  The configuration was looked at before
the run, so whatever breaks a run is unexpected. -/

def rowText (row : StatusRow) : String :=
  String.intercalate "  "
    [row.step, row.state.name, row.reason, row.category, row.duration, row.detail]

def ofResult (graph : StepGraph κ ρ) (result : RunResult) : Except Failure Outcome := do
  let table ← StatusTable.ofResult result (some graph.order)
  pure
    { Outcome.printed (table.title :: table.rows.map rowText) with
      exitCode := if result.succeeded then 0 else failedExit }

def ofEnding (graph : StepGraph κ ρ) : Environment.Ending → Outcome
  | .finished result => .ofExcept (ofResult graph result)
  | .broken failure => .unexpected failure
  | .unfinished => .misused

namespace Launch

def watch (launch : Launch) : Option Watch :=
  launch.sink.map fun sink => { outlet := .sink sink false }

def context (launch : Launch) : Context :=
  Context.ofTimeout launch.timeout

def perform (launch : Launch) (provider : Provider σ) (cluster : σ) : Outcome × Site σ :=
  let site : Site σ := { cluster, watch := launch.watch }
  let (ending, progress) := Site.run provider launch.graph launch.parallelism site
  (ofEnding launch.graph ending, progress.world)

end Launch

def Surroundings.answer? (surroundings : Surroundings) : Command → Option Outcome
  | .promotedTags path asJson => some (.ofExcept (surroundings.promotedTags path asJson))
  | .graph path targets promote =>
      some (.ofExcept (surroundings.graph path targets promote))
  | .setting key value => some (.ofExcept (surroundings.setting key value))
  | .help => some { exitCode := 0 }
  | .run _ => none

end BuildPipeline.CommandLine
