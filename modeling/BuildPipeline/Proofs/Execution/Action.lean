import BuildPipeline.Proofs.Execution.Ledger
import BuildPipeline.Proofs.Graph.Order

namespace BuildPipeline

variable {κ ρ σ : Type}

namespace Environment

inductive Action (κ ρ : Type) where
  | skip (step : Step κ ρ)
  | stop
  | sweep (step : Step κ ρ) (failure : Failure)
  | ready (step : Step κ ρ)
  | start (step : Step κ ρ)
  | pause
  | land (completion : Completion)

namespace Action

def subject? : Action κ ρ → Option String
  | .skip step | .sweep step _ | .ready step | .start step => some step.name
  | .land completion => some completion.name
  | .stop | .pause => none

def started? : Action κ ρ → Option String
  | .start step => some step.name
  | _ => none

theorem subject?_of_started {action : Action κ ρ} {name : String}
    (starts : name ∈ action.started?.toList) : action.subject? = some name := by
  cases action with
  | start step => exact congrArg some (List.mem_singleton.mp starts).symm
  | skip | stop | sweep | ready | pause | land => cases starts

end Action

def blockedFailure (graph : StepGraph κ ρ) (ledger : Ledger ρ) (step : Step κ ρ) :
    Failure :=
  skippedBecause (blockers graph ledger step.name)

/-- When the coordinator may act, and what the action makes of its progress.  Nothing is
assumed about which of several possible actions comes first. -/
inductive Acts (env : Environment κ ρ σ) (graph : StepGraph κ ρ) (parallelism : Nat) :
    Action κ ρ → Progress ρ σ → Progress ρ σ → Prop
  | skip {progress step} (ordered : step ∈ graph.orderedSteps)
      (pending : progress.ledger.state step.name = .pending)
      (blocked : blockers graph progress.ledger step.name ≠ []) :
      Acts env graph parallelism (.skip step) progress
        (env.finish step.name .skipped
          (some (Error.ofFailure (blockedFailure graph progress.ledger step))) progress)
  | stop {progress} (running : progress.stopped = false)
      (cancelled : env.cancelled progress.world = true) :
      Acts env graph parallelism .stop progress { progress with stopped := true }
  | sweep {progress step failure} (ordered : step ∈ graph.orderedSteps)
      (waiting : (progress.ledger.state step.name).isWaiting = true)
      (allowed : progress.stopped = true ∧ failure = runCancelled
        ∨ progress.inFlight = [] ∧ failure = neverReached) :
      Acts env graph parallelism (.sweep step failure) progress
        (env.finish step.name .skipped (some (Error.ofFailure failure)) progress)
  | ready {progress step} (ordered : step ∈ graph.orderedSteps)
      (running : progress.stopped = false)
      (ready : isReady graph progress.ledger step = true) :
      Acts env graph parallelism (.ready step) progress
        { progress with ledger := progress.ledger.ready step.name }
  | start {progress step} (ordered : step ∈ graph.orderedSteps)
      (running : progress.stopped = false)
      (ready : isReady graph progress.ledger step = true)
      (room : progress.inFlight.length < parallelism) :
      Acts env graph parallelism (.start step) progress (env.start progress step)
  | pause {progress} (flying : progress.inFlight ≠ []) :
      Acts env graph parallelism .pause progress
        { progress with
          world := (env.await progress.ledger progress.inFlight progress.world).2 }
  | land {progress completion} (flying : completion.name ∈ progress.inFlight) :
      Acts env graph parallelism (.land completion) progress
        (env.record progress completion)

inductive Trace (env : Environment κ ρ σ) (graph : StepGraph κ ρ) (parallelism : Nat)
    (first : Progress ρ σ) : List (Action κ ρ) → Progress ρ σ → Prop
  | nil : Trace env graph parallelism first [] first
  | snoc {actions action progress next}
      (trace : Trace env graph parallelism first actions progress)
      (acts : Acts env graph parallelism action progress next) :
      Trace env graph parallelism first (actions ++ [action]) next

variable {env : Environment κ ρ σ} {graph : StepGraph κ ρ} {parallelism : Nat}

namespace Acts

theorem recorded {action : Action κ ρ} {progress next : Progress ρ σ}
    (acts : env.Acts graph parallelism action progress next) :
    next.ledger.recorded = progress.ledger.recorded := by
  cases acts with
  | skip => exact recorded_finish env _ _ _ _
  | stop => rfl
  | sweep => exact recorded_finish env _ _ _ _
  | ready => exact Ledger.recorded_ready _ _
  | start => exact recorded_start env _ _
  | pause => rfl
  | land => exact recorded_record env _ _

theorem result_of_ne {action : Action κ ρ} {progress next : Progress ρ σ}
    (acts : env.Acts graph parallelism action progress next) {name : String}
    (other : action.subject? ≠ some name) :
    next.ledger.result name = progress.ledger.result name := by
  cases acts with
  | skip => exact result_finish_of_ne env _ _ _ fun same => other (congrArg some same.symm)
  | stop => rfl
  | sweep => exact result_finish_of_ne env _ _ _ fun same => other (congrArg some same.symm)
  | ready => exact Ledger.result_ready_of_ne _ fun same => other (congrArg some same.symm)
  | start => exact result_start_of_ne env _ fun same => other (congrArg some same.symm)
  | pause => rfl
  | land => exact result_record_of_ne env _ fun same => other (congrArg some same.symm)

theorem state_of_ne {action : Action κ ρ} {progress next : Progress ρ σ}
    (acts : env.Acts graph parallelism action progress next) {name : String}
    (other : action.subject? ≠ some name) :
    next.ledger.state name = progress.ledger.state name :=
  congrArg StepResult.state (acts.result_of_ne other)

end Acts

namespace Trace

variable {first progress next : Progress ρ σ} {actions : List (Action κ ρ)}

theorem append {more : List (Action κ ρ)}
    (trace : env.Trace graph parallelism first actions progress)
    (rest : env.Trace graph parallelism progress more next) :
    env.Trace graph parallelism first (actions ++ more) next := by
  induction rest with
  | nil => simpa using trace
  | snoc _ acts ih =>
      rw [← List.append_assoc]
      exact .snoc ih acts

theorem recorded (trace : env.Trace graph parallelism first actions progress) :
    progress.ledger.recorded = first.ledger.recorded := by
  induction trace with
  | nil => rfl
  | snoc _ acts ih => exact acts.recorded.trans ih

end Trace

end Environment

end BuildPipeline
