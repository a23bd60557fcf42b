import BuildPipeline.Decimal.Layout
import BuildPipeline.Execution.Environment
import BuildPipeline.Execution.Result

namespace BuildPipeline

structure Line where
  isError : Bool := false
  text : String
deriving DecidableEq, Repr

namespace Event

def orDash (text : String) : String :=
  if text = "" then "-" else text

def line : Event → Line
  | .pipelineStart names =>
      { text := "[hook] pipeline_start: steps=" ++ toString names.length }
  | .stepStart name => { text := "[hook] step_start: " ++ name }
  | .failure scope error =>
      { isError := true, text := "[hook] error in " ++ scope ++ ": " ++ error.message }
  | .stepEnd name result =>
      { text := "[hook] step_end: " ++ name ++ " -> " ++ result.state.name
          ++ (if result.reason = "" then "" else " (" ++ result.reason ++ ")") }
  | .pipelineEnd result =>
      { text := "[hook] pipeline_end: " ++ result.status ++ " reason="
        ++ orDash result.reason }

end Event

structure StatusRow where
  step : String
  state : StepState
  reason : String
  category : String
  duration : String
  detail : String

structure StatusTable where
  title : String
  rows : List StatusRow

namespace StatusTable

def headers : List String := ["Step", "State", "Reason", "Category", "Duration", "Detail"]

def style : StepState → String
  | .succeeded => "green"
  | .failed => "bold red"
  | .skipped => "yellow"
  | .running => "cyan"
  | .runnable => "cyan"
  | .pending => "dim"

def heading (result : RunResult) : String :=
  if result.succeeded then "Pipeline succeeded"
  else "Pipeline failed (" ++ result.reason ++ ")"

def row (result : StepResult) : StatusRow :=
  { step := result.name
    state := result.state
    reason := Event.orDash result.reason
    category := Event.orDash result.category
    duration :=
      match result.duration? with
      | some seconds => Decimal.fixed 1 seconds ++ "s"
      | none => "-"
    detail := result.message?.getD "" }

/-- One row a step, in the given order or in that of the results.  Every name has to have
a result. -/
def rowOf (result : RunResult) (name : String) : Except Failure StatusRow :=
  match result.steps.find? fun step => step.name == name with
  | some step => .ok { row step with step := name }
  | none => .error (.misuse .missingKey)

def ofResult (result : RunResult) (order : Option (List String)) :
    Except Failure StatusTable := do
  let names := order.getD (result.steps.map (·.name))
  let rows ← names.mapM (rowOf result)
  return { title := heading result, rows }

end StatusTable

end BuildPipeline
