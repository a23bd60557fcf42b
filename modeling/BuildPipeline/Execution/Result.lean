import BuildPipeline.Error.Reason
import BuildPipeline.Time.Instant

namespace BuildPipeline

open Document

/-- The state of a step in a run.  A step leaves a terminal state no more. -/
inductive StepState where
  | pending
  | runnable
  | running
  | succeeded
  | failed
  | skipped
deriving DecidableEq, Repr, Inhabited

namespace StepState

def isTerminal : StepState → Bool
  | .succeeded | .failed | .skipped => true
  | _ => false

/-- A step that has not been started and may still be. -/
def isWaiting : StepState → Bool
  | .pending | .runnable => true
  | _ => false

/-- A state that keeps the steps after it from running. -/
def isBlocking : StepState → Bool
  | .failed | .skipped => true
  | _ => false

def name : StepState → String
  | .pending => "pending"
  | .runnable => "runnable"
  | .running => "running"
  | .succeeded => "succeeded"
  | .failed => "failed"
  | .skipped => "skipped"

def all : List StepState :=
  [.pending, .runnable, .running, .succeeded, .failed, .skipped]

def ofName? (name : String) : Option StepState :=
  all.find? fun state => state.name == name

@[simp] theorem isWaiting_eq_true {state : StepState} :
    state.isWaiting = true ↔ state = .pending ∨ state = .runnable := by
  cases state <;> simp [isWaiting]

@[simp] theorem isBlocking_eq_true {state : StepState} :
    state.isBlocking = true ↔ state = .failed ∨ state = .skipped := by
  cases state <;> simp [isBlocking]

theorem isTerminal_or_isWaiting_or_running (state : StepState) :
    state.isTerminal = true ∨ state.isWaiting = true ∨ state = .running := by
  cases state <;> simp [isTerminal, isWaiting]

end StepState

structure StepResult where
  name : String
  state : StepState := .pending
  reason : String := ""
  category : String := ""
  error : Option Error := none
  started : Option Instant := none
  finished : Option Instant := none

namespace StepResult

/-- The category of an ended step: a cancellation is one whatever the state, and only a
failure is sorted further. -/
def categoryFor (result : StepResult) (state : StepState) (error : Error) : String :=
  if error.fullReason = Reason.cancelled then Category.cancelled.name
  else if state = .failed then error.category.name
  else result.category

def tagged (result : StepResult) (state : StepState) : Option Error → StepResult
  | none => result
  | some error =>
      { result with
        error := some error
        reason := error.fullReason
        category := result.categoryFor state error }

def ended (result : StepResult) (moment : Instant) (state : StepState)
    (error : Option Error) : StepResult :=
  { result.tagged state error with state, finished := some moment }

def begun (result : StepResult) (moment : Instant) : StepResult :=
  { result with state := .running, started := some moment }

@[simp] theorem name_tagged (result : StepResult) (state : StepState)
    (error : Option Error) :
    (result.tagged state error).name = result.name := by
  cases error <;> rfl

@[simp] theorem name_ended (result : StepResult) (moment : Instant) (state : StepState)
    (error : Option Error) : (result.ended moment state error).name = result.name := by
  simp [ended]

@[simp] theorem state_ended (result : StepResult) (moment : Instant) (state : StepState)
    (error : Option Error) : (result.ended moment state error).state = state := rfl

@[simp] theorem name_begun (result : StepResult) (moment : Instant) :
    (result.begun moment).name = result.name := rfl

@[simp] theorem state_begun (result : StepResult) (moment : Instant) :
    (result.begun moment).state = .running := rfl

def duration? (result : StepResult) : Option Float :=
  match result.started, result.finished with
  | some started, some finished => some (started.seconds finished)
  | _, _ => none

def message? (result : StepResult) : Option String :=
  result.error.map Error.message

def document (result : StepResult) : Value :=
  .object
    [("name", .string result.name),
      ("state", .string result.state.name),
      ("reason", .string result.reason),
      ("category", .string result.category),
      ("error", Value.ofOption (result.message?.map .string)),
      ("started_at", Value.ofOption (result.started.map fun moment => .string moment.text)),
      ("finished_at",
        Value.ofOption (result.finished.map fun moment => .string moment.text)),
      ("duration", Value.ofOption (result.duration?.map .float))]

end StepResult

/-- The outcome of a run: every step's result, in the order of the graph, and the
verdict. -/
structure RunResult where
  steps : List StepResult
  succeeded : Bool := true
  reason : String := ""

namespace RunResult

def inState (result : RunResult) (state : StepState) : List String :=
  (result.steps.filter fun step => step.state == state).map (·.name)

def failed (result : RunResult) : List String := result.inState .failed

def skipped (result : RunResult) : List String := result.inState .skipped

def status (result : RunResult) : String :=
  if result.succeeded then "succeeded" else "failed"

def document (result : RunResult) : Value :=
  .object
    [("status", .string result.status),
      ("reason", .string result.reason),
      ("steps", .object (result.steps.map fun step => (step.name, step.document)))]

/-- The verdict: a run that was cancelled did not succeed, nor did one in which a step
failed. -/
def ofSteps (steps : List StepResult) (cancelled : Bool) : RunResult :=
  if cancelled then { steps, succeeded := false, reason := Reason.cancelled }
  else if (failed { steps }).isEmpty then { steps }
  else { steps, succeeded := false, reason := Reason.runFailed }

@[simp] theorem steps_ofSteps (steps : List StepResult) (cancelled : Bool) :
    (ofSteps steps cancelled).steps = steps := by
  unfold ofSteps
  split
  · rfl
  · split <;> rfl

end RunResult

end BuildPipeline
