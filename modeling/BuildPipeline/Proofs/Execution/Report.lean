import BuildPipeline.Proofs.Execution.Cancellation

namespace BuildPipeline

variable {κ ρ σ : Type}

theorem RunResult.succeeded_ofSteps {steps : List StepResult} {cancelled : Bool} :
    (ofSteps steps cancelled).succeeded = true
      ↔ cancelled = false ∧ ∀ entry ∈ steps, entry.state ≠ .failed := by
  unfold ofSteps
  cases cancelled with
  | true => simp
  | false =>
      have none_failed : (failed { steps }).isEmpty = true
          ↔ ∀ entry ∈ steps, entry.state ≠ .failed := by
        simp [failed, inState]
      by_cases unharmed : (failed { steps }).isEmpty = true
      · simpa [unharmed] using none_failed.mp unharmed
      · rw [if_neg (by simp), if_neg unharmed]
        simpa using mt none_failed.mpr unharmed

namespace Environment

variable {env : Environment κ ρ σ} {graph : StepGraph κ ρ} {parallelism turns : Nat}
  {first progress : Progress ρ σ} {name : String}

/-- Whoever looks for the reason of a skip, from one step to a blocking one before it,
comes to a step that failed. -/
theorem exists_failed_of_skipped (acyclic : graph.Acyclic)
    (blocked : ∀ name, progress.ledger.state name = .skipped →
      IsBlocked graph progress name)
    (skipped : progress.ledger.state name = .skipped) :
    ∃ cause, Relation.TransGen graph.Precedes cause name
      ∧ progress.ledger.state cause = .failed := by
  induction name using acyclic.wellFounded.induction with
  | _ name ih =>
      obtain ⟨_, before, edge, blocking⟩ := blocked name skipped
      rcases StepState.isBlocking_eq_true.mp blocking with failed | skipped
      · exact ⟨before, .single edge, failed⟩
      · obtain ⟨cause, path, failed⟩ := ih before edge skipped
        exact ⟨cause, path.tail edge, failed⟩

theorem run_concludes {limit : Int} (wellFormed : graph.WellFormed)
    (acyclic : graph.Acyclic) {register : Register ρ} {world : σ} {result : RunResult}
    {stand : Progress ρ σ}
    (finished : env.run graph limit turns register world = (.finished result, stand)) :
    ∃ declared reached,
      env.Reaches graph limit.toNat InLoop (env.entry graph declared world) reached
        ∧ (reached.stopped = false → HasSettled graph reached)
        ∧ env.conclude graph reached = (result, stand) := by
  have least : 1 ≤ limit := by
    by_contra none
    rw [run, if_pos (by omega)] at finished
    cases finished
  rcases run_stands env wellFormed limit turns register world with
    ⟨_, _, _, eq⟩ | ⟨declared, _, reached, ⟨_, eq⟩ | ⟨done, eq⟩⟩
  · cases eq.symm.trans finished
  · cases eq.symm.trans finished
  · cases eq.symm.trans finished
    have orderly := orderly_entry env wellFormed limit.toNat declared world
    have passes := drain_passes env limit.toNat wellFormed.anchored
      (underWay_entry env graph declared world) turns
    rw [done] at passes
    exact ⟨declared, reached, passes,
      drain_settled wellFormed acyclic orderly (by omega) done, rfl⟩

theorem recorded_of_run (env : Environment κ ρ σ) (wellFormed : graph.WellFormed)
    (limit : Int) (turns : Nat) (register : Register ρ) (world : σ) :
    (env.run graph limit turns register world).2.ledger.recorded = graph.names := by
  rcases run_cases env wellFormed limit turns register world with
    ⟨_, declared, _, eq⟩ | ⟨declared, _, reached, ⟨_, trace, _⟩, ending⟩
  · rw [eq]
    exact recorded_opening wellFormed declared world
  · have recorded := trace.recorded.trans (entry_eq env wellFormed declared world).2.2.2
    rcases ending with eq | ⟨_, eq⟩
    · rw [eq]
      exact recorded
    · rw [eq]
      exact recorded

theorem steps_conclude (env : Environment κ ρ σ) (graph : StepGraph κ ρ)
    (progress : Progress ρ σ) :
    (env.conclude graph progress).1.steps =
      (env.conclude graph progress).2.ledger.results :=
  RunResult.steps_ofSteps _ _

theorem stopped_conclude (env : Environment κ ρ σ) (graph : StepGraph κ ρ)
    (progress : Progress ρ σ) :
    (env.conclude graph progress).2.stopped = progress.stopped :=
  stopped_foldl_skipIfWaiting _

theorem names_report {limit : Int} (wellFormed : graph.WellFormed) (acyclic : graph.Acyclic)
    {register : Register ρ} {world : σ} {result : RunResult} {stand : Progress ρ σ}
    (finished : env.run graph limit turns register world = (.finished result, stand)) :
    result.steps.map (·.name) = graph.names := by
  have recorded := recorded_of_run env wellFormed limit turns register world
  obtain ⟨_, reached, _, _, concluded⟩ := run_concludes wellFormed acyclic finished
  have steps := steps_conclude env graph reached
  rw [finished] at recorded
  rw [concluded] at steps
  exact steps ▸ recorded

theorem report_of_settled (wellFormed : graph.WellFormed) (acyclic : graph.Acyclic)
    (recorded : progress.ledger.recorded = graph.names)
    (settled : HasSettled graph progress)
    (blocked : ∀ name, progress.ledger.state name = .skipped →
      IsBlocked graph progress name) :
    ∀ entry ∈ progress.ledger.results, entry.state.isTerminal = true
      ∧ (entry.state = .skipped → ∃ cause ∈ progress.ledger.results, cause.state = .failed
        ∧ Relation.TransGen graph.Precedes cause.name entry.name) := by
  have results := Ledger.results_eq_map (recorded ▸ wellFormed.names_nodup)
  rw [recorded] at results
  intro entry member
  rw [results] at member
  obtain ⟨name, listed, rfl⟩ := List.mem_map.mp member
  refine ⟨settled name listed, fun skipped => ?_⟩
  obtain ⟨cause, path, failed⟩ := exists_failed_of_skipped acyclic blocked skipped
  obtain ⟨_, edge, _⟩ := Relation.TransGen.head'_iff.mp path
  refine ⟨progress.ledger.result cause, ?_, failed, ?_⟩
  · rw [results]
    exact List.mem_map_of_mem (wellFormed.before_mem edge)
  · rw [Ledger.name_result, Ledger.name_result]
    exact path

/-- No run reports more than it has seen.  Every step has one entry in the result; if the
run is reported as a success then it was not seen to be cancelled and every step
succeeded; and if it was not seen to be cancelled, then a run that is reported as no
success has a failed step, and of whatever was skipped a failed step is the cause,
directly or through others. -/
theorem run_reports (env : Environment κ ρ σ) (wellFormed : graph.WellFormed)
    (acyclic : graph.Acyclic) {limit : Int} {register : Register ρ} {world : σ}
    {result : RunResult} {stand : Progress ρ σ}
    (finished : env.run graph limit turns register world = (.finished result, stand)) :
    result.steps.map (·.name) = graph.names
      ∧ (result.succeeded = true →
          stand.stopped = false ∧ ∀ entry ∈ result.steps, entry.state = .succeeded)
      ∧ (stand.stopped = false →
          (result.succeeded = false → ∃ entry ∈ result.steps, entry.state = .failed)
            ∧ ∀ entry ∈ result.steps, entry.state = .skipped →
                ∃ cause ∈ result.steps, cause.state = .failed
                  ∧ Relation.TransGen graph.Precedes cause.name entry.name) := by
  have recorded := recorded_of_run env wellFormed limit turns register world
  obtain ⟨declared, reached, passes, settles, concluded⟩ :=
    run_concludes wellFormed acyclic finished
  have steps := steps_conclude env graph reached
  have stopped := stopped_conclude env graph reached
  have verdict : result = RunResult.ofSteps stand.ledger.results stand.stopped :=
    (Prod.mk.inj concluded).1 ▸ (Prod.mk.inj concluded).2 ▸ rfl
  rw [finished] at recorded
  rw [concluded] at steps stopped
  have accounts : stand.stopped = false → ∀ entry ∈ result.steps,
      entry.state.isTerminal = true
      ∧ (entry.state = .skipped → ∃ cause ∈ result.steps, cause.state = .failed
        ∧ Relation.TransGen graph.Precedes cause.name entry.name) := by
    intro unstopped
    -- Nothing was left to give up, so that the ledger reported is the one that the loop
    -- came to.
    have running := stopped.symm.trans unstopped
    have ledger := congrArg (·.2.ledger)
      (concluded.symm.trans (conclude_of_hasSettled env wellFormed (settles running)))
    rw [show stand.ledger = reached.ledger from ledger] at steps recorded
    rw [steps]
    exact report_of_settled wellFormed acyclic recorded (settles running) fun _ =>
      isBlocked_of_reaches wellFormed.anchored passes running
  refine ⟨names_report wellFormed acyclic finished, fun succeeded => ?_, fun unstopped =>
    ⟨fun unsuccessful => ?_, fun entry member => (accounts unstopped entry member).2⟩⟩
  · rw [verdict, RunResult.succeeded_ofSteps, ← steps] at succeeded
    obtain ⟨unstopped, unharmed⟩ := succeeded
    refine ⟨unstopped, fun entry member => ?_⟩
    obtain ⟨terminal, blamed⟩ := accounts unstopped entry member
    cases state : entry.state with
    | succeeded => rfl
    | failed => exact absurd state (unharmed entry member)
    | skipped =>
        obtain ⟨cause, listed, failed, _⟩ := blamed state
        exact absurd failed (unharmed cause listed)
    | pending | runnable | running => simp [state, StepState.isTerminal] at terminal
  · by_contra none_failed
    push Not at none_failed
    have succeeded := RunResult.succeeded_ofSteps.mpr ⟨unstopped, none_failed⟩
    rw [steps, ← verdict, unsuccessful] at succeeded
    cases succeeded

def EndsWith (accepts : RunResult → Progress ρ σ → Bool) : Ending × Progress ρ σ → Bool
  | (.finished result, stand) => accepts result stand
  | _ => false

theorem exists_of_endsWith {accepts : RunResult → Progress ρ σ → Bool}
    {outcome : Ending × Progress ρ σ} (ends : EndsWith accepts outcome = true) :
    ∃ result stand, outcome = (.finished result, stand) ∧ accepts result stand = true := by
  obtain ⟨ending, stand⟩ := outcome
  cases ending with
  | finished result => exact ⟨result, stand, rfl, ends⟩
  | broken | unfinished => cases ends

/-- The image fails, and the test that runs in it is skipped for that; where nothing fails
the same run is a success. -/
theorem imaged_reports :
    imaged.WellFormed ∧ imaged.Acyclic
      ∧ (∃ result stand, (steady imageFails).run imaged 2 5 {} [] =
          (.finished result, stand)
        ∧ (∃ entry ∈ result.steps, entry.state = .failed) ∧ result.skipped = ["e2e"])
      ∧ ∃ result stand, (steady fun _ => .ok ()).run imaged 2 5 {} [] =
          (.finished result, stand)
        ∧ result.succeeded = true ∧ ∀ entry ∈ result.steps, entry.state = .succeeded := by
  have wellFormed : imaged.WellFormed := by decide
  have fails : EndsWith (fun result stand => !stand.stopped && !result.succeeded
      && result.skipped == ["e2e"]) ((steady imageFails).run imaged 2 5 {} []) = true := by
    decide +kernel
  have succeeds : EndsWith (fun result _ => result.succeeded)
      ((steady fun _ => .ok ()).run imaged 2 5 {} []) = true := by
    decide +kernel
  obtain ⟨result, stand, finished, found⟩ := exists_of_endsWith fails
  obtain ⟨green, last, completed, success⟩ := exists_of_endsWith succeeds
  obtain ⟨⟨unstopped, unsuccessful⟩, skipped⟩ :
      (stand.stopped = false ∧ result.succeeded = false) ∧ result.skipped = ["e2e"] := by
    simpa using found
  have failure := run_reports (steady imageFails) wellFormed imaged_acyclic finished
  have complete := run_reports (steady fun _ => .ok ()) wellFormed imaged_acyclic completed
  exact ⟨wellFormed, imaged_acyclic,
    ⟨result, stand, finished, (failure.2.2 unstopped).1 unsuccessful, skipped⟩,
    ⟨green, last, completed, success, (complete.2.1 success).2⟩⟩

end Environment

end BuildPipeline
