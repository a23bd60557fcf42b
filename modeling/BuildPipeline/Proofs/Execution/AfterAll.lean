import BuildPipeline.Proofs.Execution.Publication
import BuildPipeline.Proofs.Graph.Waiting

namespace BuildPipeline

variable {κ ρ σ : Type} {requested implicit : List (Step κ ρ)} {graph : StepGraph κ ρ}

namespace Environment

variable {env : Environment κ ρ σ} {parallelism : Nat} {progress next : Progress ρ σ}

/-- A step that waits for all, in any world: when it is started, every step that does not
wait for all is recorded as succeeded; as long as one of those is not, or was never
started, it is not started either, nor launched in a whole run; and such steps wait for
each other only as far as links make them. -/
theorem run_after_all (built : StepGraph.build requested implicit = .ok graph)
    (named : graph.names.Nodup) (env : Environment κ ρ σ) (parallelism : Int)
    (register : Register ρ) (world : σ) :
    (∀ actions progress waiter next,
        env.Trace graph parallelism.toNat (env.entry graph register world)
          actions progress →
        env.Acts graph parallelism.toNat (.start waiter) progress next →
        waiter.waitsForAll = true → ∀ step ∈ graph.steps, step.waitsForAll = false →
          progress.ledger.state step.name = .succeeded)
      ∧ (∀ actions progress,
          env.Trace graph parallelism.toNat (env.entry graph register world)
            actions progress →
          ∀ waiter ∈ graph.steps, waiter.waitsForAll = true →
            waiter.name ∈ actions.filterMap Action.started? →
            ∀ step ∈ graph.steps, step.waitsForAll = false →
              step.name ∈ actions.filterMap Action.started?
                ∧ progress.ledger.state step.name = .succeeded)
      ∧ (∀ log, env.Logs log → ∀ turns, ∃ launched,
          log (env.run graph parallelism turns register world).2.world =
            launched ++ log world
            ∧ ∀ waiter ∈ graph.steps, waiter.waitsForAll = true → waiter.name ∈ launched →
              ∀ step ∈ graph.steps, step.waitsForAll = false →
                step.name ∈ launched
                  ∧ (env.run graph parallelism turns register world).2.ledger.state
                      step.name = .succeeded)
      ∧ ∀ first ∈ graph.steps, ∀ second ∈ graph.steps,
          first.waitsForAll = true → second.waitsForAll = true →
          Relation.TransGen graph.Precedes first.name second.name →
            Relation.TransGen graph.Feeds first.name second.name := by
  have wellFormed := StepGraph.wellFormed_of_build built named
  have orderly :=
    fun declared => orderly_entry env wellFormed parallelism.toNat declared world
  have edge : ∀ waiter ∈ graph.steps, waiter.waitsForAll = true → ∀ step ∈ graph.steps,
      step.waitsForAll = false → graph.Precedes step.name waiter.name :=
    fun waiter member waits step listed free =>
      StepGraph.precedes_waiter built waits member listed
        (StepGraph.not_mem_waiting named listed free)
  refine ⟨?_, ?_, ?_, fun first member _ _ waits _ path =>
    StepGraph.feeds_of_precedes built (StepGraph.mem_waiting member waits) path⟩
  · intro actions progress waiter next trace acts waits step listed free
    obtain ⟨member, _, ready⟩ :=
      start_allowed wellFormed ((orderly _).trace wellFormed trace) acts
    exact ready _ (StepGraph.mem_dependencies_iff_precedes.mpr
      (edge waiter member waits step listed free))
  · intro actions progress trace waiter member waits started step listed free
    exact succeeded_before_started wellFormed trace
      (edge waiter member waits step listed free) started
  · intro log logs turns
    rcases logs.run wellFormed parallelism turns register world with
      unchanged | ⟨declared, actions, reached, trace, logged, ledger⟩
    · exact ⟨[], unchanged, fun _ _ _ launched => nomatch launched⟩
    · refine ⟨_, logged, fun waiter member waits launched step listed free => ?_⟩
      obtain ⟨started, succeeded⟩ := succeeded_before_started wellFormed trace
        (edge waiter member waits step listed free) (List.mem_reverse.mp launched)
      exact ⟨List.mem_reverse.mpr started, ledger ▸ succeeded⟩

def release : Step Unit Unit :=
  { name := "release", requires := [.allSteps, .internalImage "tools"], work := () }

def tools : Step Unit Unit :=
  { name := "tools", creates := [.internalImage "tools"], work := () }

def releasing : StepGraph Unit Unit :=
  ⟨[release, tools], [("tools", "release")]⟩

theorem release_after_all :
    StepGraph.build [release] [tools] = .ok releasing ∧ releasing.names.Nodup
      ∧ ((steady fun _ => .ok ()).run releasing 1 5 {} []).2.world = ["release", "tools"]
      ∧ ((steady fun _ => .ok ()).run releasing 1 5 {} []).2.ledger.state tools.name
          = .succeeded := by
  have built : StepGraph.build [release] [tools] = .ok releasing :=
    @StepGraph.build_of_close Unit Unit [release] [tools] _ rfl
      (by rw [StepGraph.cycle?_of_sorted (by decide)]; rfl)
  have named : releasing.names.Nodup := by decide
  have world : ((steady fun _ => .ok ()).run releasing 1 5 {} []).2.world
      = ["release", "tools"] := by decide +kernel
  obtain ⟨_, _, logged, _⟩ := run_after_all built named (steady fun _ => .ok ()) 1 {} []
  obtain ⟨launched, log, awaited⟩ := logged _ (steady_logs _) 5
  rw [world, List.append_nil] at log
  have released : release.name ∈ launched := log ▸ List.mem_cons_self
  exact ⟨built, named, world,
    (awaited release (.head _) rfl released tools (.tail _ (.head _)) rfl).2⟩

def publish : Step Unit Unit := { name := "publish", requires := [.allSteps], work := () }

def bundle : Step Unit Unit :=
  { name := "bundle"
    requires := [.allSteps, .internalImage "index", .internalImage "data"]
    work := () }

def packIndex : Step Unit Unit :=
  { name := "pack", requires := [.allSteps], creates := [.internalImage "index"],
    work := () }

def packData : Step Unit Unit :=
  { name := "pack", creates := [.internalImage "data"], work := () }

def packed : StepGraph Unit Unit :=
  ⟨[publish, bundle, packIndex, packData], [("pack", "bundle")]⟩

def packFails (name : String) : Except Error Unit :=
  if name = "pack" then .error (.ofFailure (.runtime "no space left")) else .ok ()

/-- Names alone say who waits for all: the other step of the name is not waited for
either. -/
theorem publish_before_pack :
    StepGraph.build [publish, bundle] [packIndex, packData] = .ok packed
      ∧ publish ∈ packed.steps ∧ publish.waitsForAll = true
      ∧ packData ∈ packed.steps ∧ packData.waitsForAll = false
      ∧ ((steady packFails).run packed 1 5 {} []).2.world = ["pack", "publish"]
      ∧ ((steady packFails).run packed 1 5 {} []).2.ledger.state "publish" = .succeeded
      ∧ ((steady packFails).run packed 1 5 {} []).2.ledger.state "pack" = .failed := by
  refine ⟨?_, .head _, rfl, .tail _ (.tail _ (.tail _ (.head _))), rfl, ?_⟩
  · exact @StepGraph.build_of_close Unit Unit [publish, bundle] [packIndex, packData] _ rfl
      (by rw [StepGraph.cycle?_of_sorted (by decide)]; rfl)
  · decide +kernel

end Environment

end BuildPipeline
