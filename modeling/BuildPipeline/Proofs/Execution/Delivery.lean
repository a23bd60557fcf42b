import BuildPipeline.Proofs.Execution.Outcome
import BuildPipeline.Proofs.Execution.Tracking

namespace BuildPipeline

variable {κ ρ σ : Type}

namespace Environment

variable {env : Environment κ ρ σ} {graph : StepGraph κ ρ} {parallelism : Nat}
  {first progress : Progress ρ σ} {completion : Completion} {name : String}

/-- Of all that the wait of a turn brings for a step in flight, the first counts. -/
def Brings (env : Environment κ ρ σ) (graph : StepGraph κ ρ) (parallelism : Nat)
    (first : Progress ρ σ) (turns : Nat) (completion : Completion) : Prop :=
  ∃ top next, env.drain graph parallelism turns first = (.again, top)
    ∧ env.turn graph parallelism top = (.again, next)
    ∧ completion.name ∈ (env.waiting graph parallelism top).inFlight
    ∧ (env.await (env.waiting graph parallelism top).ledger
          (env.waiting graph parallelism top).inFlight
          (env.waiting graph parallelism top).world).1.find? (·.name == completion.name)
        = some completion

theorem UnderWay.landed_of_reaches {allowed : Action κ ρ → Prop}
    (underWay : UnderWay graph first) (anchored : graph.Anchored)
    (reaches : env.Reaches graph parallelism allowed first progress)
    (landed : Landed first completion) : Landed progress completion :=
  underWay.preserves anchored reaches (Landed · completion)
    (fun _ underWay acts landed => underWay.landed_acts acts landed) landed

theorem records_reach (env : Environment κ ρ σ) (graph : StepGraph κ ρ) (parallelism : Nat)
    (completions : List Completion) (progress : Progress ρ σ) :
    env.Reaches graph parallelism (fun _ => True) progress
      (completions.foldl env.record progress) := by
  refine (reaches_foldl (fun _ => True) (fun {progress completion} _ _ => ⟨?_, trivial⟩)
    trivial).1
  by_cases flying : completion.name ∈ progress.inFlight
  · exact .single (.land flying) trivial
  · rw [record, if_neg flying]
    exact .refl progress

theorem flying_records {completions : List Completion}
    (others : ∀ completion ∈ completions, completion.name ≠ name)
    (flying : name ∈ progress.inFlight) :
    name ∈ (completions.foldl env.record progress).inFlight := by
  induction completions generalizing progress with
  | nil => exact flying
  | cons completion rest ih =>
      obtain ⟨other, others⟩ := List.forall_mem_cons.mp others
      refine ih others ?_
      by_cases aloft : completion.name ∈ progress.inFlight
      · rw [inFlight_record env aloft]
        exact (List.mem_erase_of_ne other.symm).mpr flying
      · rwa [record, if_neg aloft]

theorem UnderWay.landed_records (underWay : UnderWay graph progress)
    (anchored : graph.Anchored) {completions : List Completion}
    (flying : completion.name ∈ progress.inFlight)
    (found : completions.find? (·.name == completion.name) = some completion) :
    Landed (completions.foldl env.record progress) completion := by
  -- What is brought before it is about other steps, and what comes after finds the step
  -- ended.
  obtain ⟨-, before, after, rfl, others⟩ := List.find?_eq_some_iff_append.mp found
  have earlier := underWay.reaches anchored (records_reach env graph 0 before progress)
  have aloft : completion.name ∈ (before.foldl env.record progress).inFlight :=
    flying_records (fun other member => by simpa using others other member) flying
  have lands : env.Acts graph 0 (.land completion) _ _ := .land aloft
  rw [List.foldl_append, List.foldl_cons]
  exact (earlier.acts anchored lands).landed_of_reaches anchored
    (records_reach env graph 0 after _) (earlier.landed_record aloft)

theorem UnderWay.landed_collect (underWay : UnderWay graph progress)
    (anchored : graph.Anchored) (flying : completion.name ∈ progress.inFlight)
    (found : (env.await progress.ledger progress.inFlight progress.world).1.find?
      (·.name == completion.name) = some completion) :
        Landed (env.collect progress) completion := by
  have paused : env.Acts graph 0 .pause progress
      { progress with
        world := (env.await progress.ledger progress.inFlight progress.world).2 } :=
    .pause (List.ne_nil_of_mem flying)
  exact (underWay.acts anchored paused).landed_records anchored flying found

theorem UnderWay.landed_conclude (underWay : UnderWay graph progress)
    (anchored : graph.Anchored) (idle : progress.inFlight = [])
    (landed : Landed progress completion) :
    Landed (env.conclude graph progress).2 completion
      ∧ (env.conclude graph progress).1.steps =
          (env.conclude graph progress).2.ledger.results := by
  obtain ⟨swept, sweeps, concluded⟩ := conclude_reaches env 0 idle
  have still := underWay.landed_of_reaches anchored sweeps landed
  rw [concluded]
  exact ⟨⟨still.verdict, still.marked⟩, RunResult.steps_ofSteps _ _⟩

/-- From the turn on whose wait brings how a step ended, every stand of the run has that
on record, and so has the result, once there is one. -/
theorem run_records (anchored : graph.Anchored) {limit : Int} (least : 1 ≤ limit)
    {register declared : Register ρ} {world : σ}
    (accepted : declareAll register graph.steps = (declared, none)) {turns : Nat}
    (brings : env.Brings graph limit.toNat (env.entry graph declared world)
      turns completion)
    {more : Nat} (later : turns < more) :
    ∃ ending stand, env.run graph limit more register world = (ending, stand)
      ∧ Landed stand completion
      ∧ ∀ result, ending = .finished result → result.steps = stand.ledger.results := by
  obtain ⟨top, next, again, goes, flying, found⟩ := brings
  have stops := underWay_top anchored again
  have waits := stops.reaches anchored (waiting_decides env limit.toNat anchored stops)
  have passes := stops.reaches anchored (turn_reaches env limit.toNat anchored stops)
  obtain ⟨further, rfl⟩ := Nat.exists_eq_add_of_lt later
  have drained : env.drain graph limit.toNat (turns + further + 1)
      (env.entry graph declared world) = env.drain graph limit.toNat further next := by
    rw [Nat.add_assoc, drain_add again, drain, goes]
  rw [goes] at passes
  have landed : Landed next completion := by
    rcases turn_cases env graph limit.toNat top with ⟨_, eq⟩ | ⟨_, eq⟩ | ⟨_, eq⟩ <;>
      cases goes.symm.trans eq
    exact waits.landed_collect anchored flying found
  have onward := drain_passes env limit.toNat anchored passes further
  have last := passes.landed_of_reaches anchored onward landed
  have stands := passes.reaches anchored onward
  rw [run_of_drain least accepted, drained]
  rcases ends : env.drain graph limit.toNat further next with ⟨_ | _ | failure, stand⟩ <;>
    rw [ends] at last stands
  · exact ⟨_, _, rfl, last, fun _ absurd => by cases absurd⟩
  · obtain ⟨concluded, steps⟩ := stands.landed_conclude anchored (drain_landed ends) last
    exact ⟨_, _, rfl, concluded, fun _ same => by cases same; exact steps⟩
  · exact ⟨_, _, rfl, last, fun _ absurd => by cases absurd⟩

end Environment

end BuildPipeline
