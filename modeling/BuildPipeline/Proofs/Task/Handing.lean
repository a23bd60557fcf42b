import BuildPipeline.Proofs.Execution.Keeping
import BuildPipeline.Proofs.Table
import BuildPipeline.Task.Site

namespace BuildPipeline

variable {κ ρ σ τ : Type}

namespace Environment

/-- A table in the world of the work that was launched, under the name of its step. -/
structure Hands (env : Environment κ ρ σ) (works : σ → List (String × κ)) : Prop where
  launch : ∀ step world,
    works (env.launch step world) = Table.put (works world) step.name step.work
  await : ∀ ledger inFlight world, works (env.await ledger inFlight world).2 = works world
  hook : ∀ ledger event world, works (env.hook ledger event world).2 = works world

def Knows (graph : StepGraph κ ρ) (works : σ → List (String × κ))
    (progress : Progress ρ σ) : Prop :=
  ∀ step ∈ graph.steps, step.name ∈ progress.inFlight →
    Table.get? (works progress.world) step.name = some step.work

variable {env : Environment κ ρ σ} {graph : StepGraph κ ρ} {parallelism : Nat}
  {progress next : Progress ρ σ} {works : σ → List (String × κ)}

theorem Knows.of_idle (idle : progress.inFlight = []) : Knows graph works progress := by
  intro step _ flying
  rw [idle] at flying
  cases flying

theorem Knows.of_works_eq (knows : Knows graph works progress) {world : σ}
    (same : works world = works progress.world) :
    Knows graph works { progress with world } :=
  fun step member flying =>
    (congrArg (Table.get? · step.name) same).trans (knows step member flying)

theorem Hands.start (hands : env.Hands works) (wellFormed : graph.WellFormed)
    (knows : Knows graph works progress) {started : Step κ ρ}
    (member : started ∈ graph.steps) :
    Knows graph works (env.start progress started) := by
  intro step listed flying
  rw [Environment.start, hands.launch, Table.get?_put]
  by_cases same : step.name = started.name
  · rw [if_pos same, StepGraph.step_eq_of_name_eq wellFormed listed member same]
  · rw [if_neg same]
    rw [inFlight_start, List.mem_append, List.mem_singleton] at flying
    refine (congrArg (Table.get? · step.name) (hands.hook _ _ _)).trans ?_
    exact knows step listed (flying.resolve_right same)

theorem Hands.acts (hands : env.Hands works) (wellFormed : graph.WellFormed)
    {action : Action κ ρ} (acts : env.Acts graph parallelism action progress next)
    (knows : Knows graph works progress) : Knows graph works next := by
  cases acts with
  | skip | sweep => exact knows.of_works_eq (hands.hook _ _ _)
  | stop | ready => exact knows
  | start ordered =>
      exact hands.start wellFormed knows
        ((StepGraph.mem_orderedSteps_iff wellFormed).mp ordered).1
  | pause => exact knows.of_works_eq (hands.await _ _ _)
  | @land _ completion flying =>
      intro step member aloft
      rw [inFlight_record env flying] at aloft
      rw [view_record hands.hook]
      exact knows step member (List.mem_of_mem_erase aloft)

end Environment

/-- What the register knew when a step read it, seen from when that step ends: of the
steps before it, no less than now, since all of them had succeeded when it was started. -/
structure Register.Sees (seen register : Register ρ) (dependencies : List String) :
    Prop where
  declared : seen.declared = register.declared
  succeeded : ∀ name ∈ dependencies, name ∈ register.succeeded → name ∈ seen.succeeded

theorem Register.Sees.refl (register : Register ρ) (dependencies : List String) :
    register.Sees register dependencies :=
  ⟨rfl, fun _ _ => id⟩

/-- A world that carries out what it is handed: whatever step it says has ended, and
whenever it says so, the outcome is that of the step's task, run at some site while the
step was in flight. -/
structure Environment.Performs (env : Environment Task PullSpec σ) (provider : Provider τ)
    (graph : StepGraph Task PullSpec) (tasks : σ → List (String × Task)) : Prop where
  hands : env.Hands tasks
  outcome : ∀ ledger inFlight world, ∀ completion ∈ (env.await ledger inFlight world).1,
    ∀ task, Table.get? (tasks world) completion.name = some task →
      ∃ seen site, seen.Sees ledger.register (graph.dependencies completion.name)
        ∧ completion.outcome = ((provider.facilities seen).run task site).1

end BuildPipeline
