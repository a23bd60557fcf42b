import BuildPipeline.Execution.Environment
import BuildPipeline.Graph.Order

namespace BuildPipeline

variable {κ ρ σ : Type}

/-- A run in progress: what is recorded, the steps in flight in the order in which they
were started, all steps ever started, whether the coordinator has seen a cancellation, and
the world. -/
structure Progress (ρ σ : Type) where
  ledger : Ledger ρ
  inFlight : List String := []
  dispatched : List String := []
  stopped : Bool := false
  world : σ

namespace Environment

/-- A hook only observes.  It is given copies of what is recorded and cannot write there,
so whatever it does, and even if it fails, it changes nothing but its own part of the
world. -/
def tell (env : Environment κ ρ σ) (event : Event) (progress : Progress ρ σ) :
    Progress ρ σ :=
  { progress with world := (env.hook progress.ledger event progress.world).2 }

@[simp] theorem ledger_tell (env : Environment κ ρ σ) (event : Event)
    (progress : Progress ρ σ) :
    (env.tell event progress).ledger = progress.ledger := rfl

def finish (env : Environment κ ρ σ) (name : String) (state : StepState)
    (error : Option Error) (progress : Progress ρ σ) : Progress ρ σ :=
  let ledger :=
    progress.ledger.update name fun result =>
      result.ended (env.now progress.world) state error
  env.tell (.stepEnd name (ledger.result name)) { progress with ledger }

def preflight (env : Environment κ ρ σ) (progress : Progress ρ σ) (step : Step κ ρ) :
    Progress ρ σ :=
  match step.invalid with
  | some error =>
      env.finish step.name .failed (some (error.because Reason.validating)) progress
  | none => progress

/-! A pending step is skipped if one of its dependencies failed or was skipped.  Going
through the steps in dependency order carries a skip down a whole chain at once. -/

def blockers (graph : StepGraph κ ρ) (ledger : Ledger ρ) (name : String) : List String :=
  Text.sort ((graph.dependencies name).filter fun dependency =>
    (ledger.state dependency).isBlocking)

def skippedBecause (blocking : List String) : Failure :=
  .reasoned Reason.skipped
    ("skipped because " ++ Text.commaSeparated blocking ++ " did not succeed")

def skipIfBlocked (env : Environment κ ρ σ) (graph : StepGraph κ ρ)
    (progress : Progress ρ σ) (step : Step κ ρ) : Progress ρ σ :=
  let blocking := blockers graph progress.ledger step.name
  if progress.ledger.state step.name = .pending ∧ blocking ≠ [] then
    env.finish step.name .skipped
      (some (Error.ofFailure (skippedBecause blocking))) progress
  else progress

def propagateSkips (env : Environment κ ρ σ) (graph : StepGraph κ ρ)
    (progress : Progress ρ σ) : Progress ρ σ :=
  graph.orderedSteps.foldl (env.skipIfBlocked graph) progress

def skipIfWaiting (env : Environment κ ρ σ) (failure : Failure) (progress : Progress ρ σ)
    (step : Step κ ρ) : Progress ρ σ :=
  if (progress.ledger.state step.name).isWaiting then
    env.finish step.name .skipped (some (Error.ofFailure failure)) progress
  else progress

def skipWaiting (env : Environment κ ρ σ) (graph : StepGraph κ ρ) (failure : Failure)
    (progress : Progress ρ σ) : Progress ρ σ :=
  graph.orderedSteps.foldl (env.skipIfWaiting failure) progress

def runCancelled : Failure := .reasoned Reason.cancelled "pipeline run was cancelled"

def neverReached : Failure := .reasoned Reason.skipped "step was never reached"

/-- The first time that the coordinator finds the run cancelled, nothing more is started. -/
def noticeCancellation (env : Environment κ ρ σ) (graph : StepGraph κ ρ)
    (progress : Progress ρ σ) : Progress ρ σ :=
  if !progress.stopped && env.cancelled progress.world then
    env.skipWaiting graph runCancelled { progress with stopped := true }
  else progress

def isReady (graph : StepGraph κ ρ) (ledger : Ledger ρ) (step : Step κ ρ) : Bool :=
  (ledger.state step.name).isWaiting
    && (graph.dependencies step.name).all fun dependency =>
      ledger.state dependency == .succeeded

def readySteps (graph : StepGraph κ ρ) (ledger : Ledger ρ) : List (Step κ ρ) :=
  graph.orderedSteps.filter (isReady graph ledger)

def markReady (ledger : Ledger ρ) (steps : List (Step κ ρ)) : Ledger ρ :=
  steps.foldl
    (fun ledger step => ledger.update step.name fun result =>
      { result with state := .runnable })
    ledger

def start (env : Environment κ ρ σ) (progress : Progress ρ σ) (step : Step κ ρ) :
    Progress ρ σ :=
  let begun :=
    { progress with
      ledger := progress.ledger.update step.name (·.begun (env.now progress.world))
      dispatched := step.name :: progress.dispatched }
  let told := env.tell (.stepStart step.name) begun
  { told with
    inFlight := told.inFlight ++ [step.name]
    world := env.launch step told.world }

def dispatchedTwice (name : String) : Failure :=
  .runtime ("step " ++ name ++ " was dispatched twice")

def fill (env : Environment κ ρ σ) (parallelism : Nat) :
    List (Step κ ρ) → Progress ρ σ → Option Failure × Progress ρ σ
  | [], progress => (none, progress)
  | step :: rest, progress =>
      if progress.inFlight.length < parallelism then
        if step.name ∈ progress.dispatched then (some (dispatchedTwice step.name), progress)
        else fill env parallelism rest (env.start progress step)
      else (none, progress)

def startReady (env : Environment κ ρ σ) (graph : StepGraph κ ρ) (parallelism : Nat)
    (progress : Progress ρ σ) : Option Failure × Progress ρ σ :=
  if progress.stopped then (none, progress)
  else
    let ready := readySteps graph progress.ledger
    env.fill parallelism ready
      { progress with ledger := markReady progress.ledger ready }

/-! A step that ran has succeeded or failed.  Its parameters can be read from the moment
it has succeeded; an error without a reason of its own is one of executing the step.  What
ends the whole process is no error in this sense, and is not modelled. -/

def failureOf (error : Error) : Error :=
  if error.isReasoned then error else error.because Reason.step

def succeed (env : Environment κ ρ σ) (name : String) (progress : Progress ρ σ) :
    Progress ρ σ :=
  env.finish name .succeeded none
    { progress with
      ledger :=
        { progress.ledger with register := progress.ledger.register.markSucceeded name } }

def fail (env : Environment κ ρ σ) (name : String) (error : Error)
    (progress : Progress ρ σ) : Progress ρ σ :=
  env.finish name .failed (some error) (env.tell (.failure name error) progress)

def record (env : Environment κ ρ σ) (progress : Progress ρ σ) (completion : Completion) :
    Progress ρ σ :=
  if completion.name ∈ progress.inFlight then
    let landed := { progress with inFlight := progress.inFlight.erase completion.name }
    match completion.outcome with
    | .ok _ => env.succeed completion.name landed
    | .error error => env.fail completion.name (failureOf error) landed
  else progress

def collect (env : Environment κ ρ σ) (progress : Progress ρ σ) : Progress ρ σ :=
  let (completions, world) := env.await progress.ledger progress.inFlight progress.world
  completions.foldl env.record { progress with world }

/-- One turn of the coordinator: skips are carried on, a cancellation is noticed, ready
steps are started, and then it waits for steps in flight.  It is done when none is left. -/
inductive Turn where
  | again
  | done
  | broken (failure : Failure)

def turn (env : Environment κ ρ σ) (graph : StepGraph κ ρ) (parallelism : Nat)
    (progress : Progress ρ σ) : Turn × Progress ρ σ :=
  match
    env.startReady graph parallelism
      (env.noticeCancellation graph (env.propagateSkips graph progress)) with
  | (some failure, progress) => (.broken failure, progress)
  | (none, progress) =>
      if progress.inFlight.isEmpty then (.done, progress)
      else (.again, env.collect progress)

def drain (env : Environment κ ρ σ) (graph : StepGraph κ ρ) (parallelism : Nat) :
    Nat → Progress ρ σ → Turn × Progress ρ σ
  | 0, progress => (.again, progress)
  | turns + 1, progress =>
      match env.turn graph parallelism progress with
      | (.again, progress) => drain env graph parallelism turns progress
      | ended => ended

def declareAll : Register ρ → List (Step κ ρ) → Register ρ × Option Failure
  | register, [] => (register, none)
  | register, step :: rest =>
      match register.declare step.name step.provides with
      | (register, some failure) => (register, some failure)
      | (register, none) => declareAll register rest

/-- How a run ends: with a result, with a failure that has nothing to do with its steps,
or not within the turns it was given. -/
inductive Ending where
  | finished (result : RunResult)
  | broken (failure : Failure)
  | unfinished

def opening (graph : StepGraph κ ρ) (register : Register ρ) (world : σ) : Progress ρ σ :=
  { ledger := { register, results := graph.distinctNames.map fun name => { name } }, world }

def begin (env : Environment κ ρ σ) (graph : StepGraph κ ρ) (progress : Progress ρ σ) :
    Progress ρ σ :=
  graph.orderedSteps.foldl env.preflight (env.tell (.pipelineStart graph.names) progress)

def conclude (env : Environment κ ρ σ) (graph : StepGraph κ ρ) (progress : Progress ρ σ) :
    RunResult × Progress ρ σ :=
  let swept := env.skipWaiting graph neverReached progress
  let result := RunResult.ofSteps swept.ledger.results swept.stopped
  (result, env.tell (.pipelineEnd result) swept)

def noParallelism : Failure := .value "parallelism must be at least 1"

def run (env : Environment κ ρ σ) (graph : StepGraph κ ρ) (parallelism : Int) (turns : Nat)
    (register : Register ρ) (world : σ) : Ending × Progress ρ σ :=
  if parallelism < 1 then (.broken noParallelism, opening graph register world)
  else
    match declareAll register graph.steps with
    | (register, some failure) => (.broken failure, opening graph register world)
    | (register, none) =>
        match
          env.drain graph parallelism.toNat turns
            (env.begin graph (opening graph register world)) with
        | (.again, progress) => (.unfinished, progress)
        | (.broken failure, progress) => (.broken failure, progress)
        | (.done, progress) =>
            let (result, progress) := env.conclude graph progress
            (.finished result, progress)

end Environment

end BuildPipeline
