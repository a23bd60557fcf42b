import BuildPipeline.Execution.Result
import BuildPipeline.Graph.Basic
import BuildPipeline.Parameter.Register

namespace BuildPipeline

/-- What a run tells the hook that watches it. -/
inductive Event where
  | pipelineStart (names : List String)
  | stepStart (name : String)
  | failure (scope : String) (error : Error)
  | stepEnd (name : String) (result : StepResult)
  | pipelineEnd (result : RunResult)

variable {κ ρ σ : Type}

/-- What the coordinator of a run has recorded: the parameters that the steps provide and
the result of every step. -/
structure Ledger (ρ : Type) where
  register : Register ρ
  results : List StepResult

namespace Ledger

def result? (ledger : Ledger ρ) (name : String) : Option StepResult :=
  ledger.results.find? fun result => result.name == name

def result (ledger : Ledger ρ) (name : String) : StepResult :=
  (ledger.result? name).getD { name }

def state (ledger : Ledger ρ) (name : String) : StepState :=
  (ledger.result name).state

def update (ledger : Ledger ρ) (name : String) (change : StepResult → StepResult) :
    Ledger ρ :=
  { ledger with
    results := ledger.results.map fun result =>
      if result.name == name then change result else result }

@[simp] theorem register_update (ledger : Ledger ρ) (name : String)
    (change : StepResult → StepResult) :
    (ledger.update name change).register = ledger.register := rfl

theorem names_update (ledger : Ledger ρ) (name : String) (change : StepResult → StepResult)
    (h : ∀ result, (change result).name = result.name) :
    (ledger.update name change).results.map (·.name) = ledger.results.map (·.name) := by
  simp only [update, List.map_map]
  apply List.map_congr_left
  intro result _
  simp only [Function.comp_apply]
  split
  · exact h result
  · rfl

end Ledger

structure Completion where
  name : String
  outcome : Except Error Unit

/-- The world around the coordinator.  It decides when a run is cancelled, what time it is
and in which order started steps end: `launch` hands a step over to run, and `await` waits
for some of the steps in flight, perhaps for none.  `hook` shows an event to the hook,
which only observes the ledger and may fail. -/
structure Environment (κ ρ σ : Type) where
  cancelled : σ → Bool
  now : σ → Instant
  launch : Step κ ρ → σ → σ
  await : Ledger ρ → List String → σ → List Completion × σ
  hook : Ledger ρ → Event → σ → Except Error Unit × σ

end BuildPipeline
