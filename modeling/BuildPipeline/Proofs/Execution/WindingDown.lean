import BuildPipeline.Proofs.Execution.Halt

namespace BuildPipeline

variable {κ ρ σ : Type}

namespace Environment

variable {env : Environment κ ρ σ} {graph : StepGraph κ ρ} {parallelism : Nat}
  {first top progress : Progress ρ σ} {allowed : Action κ ρ → Prop} {name : String}

section Run

variable {limit : Int} {register declared : Register ρ} {world : σ} {turns : Nat}

theorem Sees.run_stands (sees : env.Sees graph top) (anchored : graph.Anchored)
    (least : 1 ≤ limit) (accepted : declareAll register graph.steps = (declared, none))
    (again : env.drain graph limit.toNat turns
      (env.entry graph declared world) = (.again, top))
    {more : Nat} (later : turns < more) :
    ∃ ending stand reached, env.run graph limit more register world = (ending, stand)
      ∧ (ending = .unfinished ∧ stand = reached
        ∨ reached.inFlight = []
          ∧ ending = .finished ⟨reached.ledger.results, false, Reason.cancelled⟩
          ∧ stand =
              env.tell (.pipelineEnd ⟨reached.ledger.results, false, Reason.cancelled⟩)
                reached)
      ∧ env.Reaches graph limit.toNat
          (env.IsArrival graph limit.toNat (env.entry graph declared world) turns more)
          (env.waiting graph limit.toNat top) reached := by
  obtain ⟨further, rfl⟩ := Nat.exists_eq_add_of_lt later
  rw [run_of_drain least accepted, Nat.add_right_comm]
  obtain ⟨reached, halted, _, arrives, ends⟩ :=
    sees.drain (underWay_top anchored again) anchored again further
  rcases ends with again | ⟨done, landed⟩
  · rw [again]
    exact ⟨_, _, reached, rfl, .inl ⟨rfl, rfl⟩, arrives⟩
  · rw [done]
    dsimp only
    rw [halted.conclude_eq landed]
    exact ⟨_, _, reached, rfl, .inr ⟨landed, rfl, rfl⟩, arrives⟩

theorem Sees.run_finishes (sees : env.Sees graph top) (anchored : graph.Anchored)
    (least : 1 ≤ limit) (accepted : declareAll register graph.steps = (declared, none))
    (again : env.drain graph limit.toNat turns
      (env.entry graph declared world) = (.again, top))
    (fair : env.Fair graph limit.toNat (env.entry graph declared world)) :
    ∃ enough, ∀ more, enough ≤ more → ∃ result stand,
      env.run graph limit more register world = (.finished result, stand) := by
  obtain ⟨enough, reached, done⟩ : ∃ turns reached,
      env.drain graph limit.toNat turns (env.entry graph declared world) =
        (.done, reached) := by
    obtain ⟨stand, halted, onward, _, again | ⟨done, _⟩⟩ :=
      sees.drain (underWay_top anchored again) anchored again 0
    · exact halted.drain_done onward anchored again fair
    · exact ⟨_, stand, done⟩
  exact ⟨enough, run_of_done least accepted done⟩

end Run

/-- How a run stands, any number of turns after the one that saw the cancellation. -/
structure WindsDown (env : Environment κ ρ σ) (graph : StepGraph κ ρ) (parallelism : Nat)
    (first top : Progress ρ σ) (since before : Nat) (stand : Progress ρ σ) : Prop where
  unstarted : stand.dispatched = top.dispatched
  unlaunched : ∀ log, env.Logs log → log stand.world = log top.world
  skipped : ∀ name ∈ graph.names, (top.ledger.state name).isWaiting = true →
    stand.ledger.state name = .skipped
  cancelled : ∀ name ∈ graph.names,
    ((env.propagateSkips graph top).ledger.state name).isWaiting = true →
      (stand.ledger.result name).verdict = .cancelled
  awaited : ∀ name ∈ top.inFlight,
    name ∈ stand.inFlight ∧ stand.ledger.state name = .running
      ∨ ∃ completion, env.Delivers graph parallelism first since before completion
        ∧ completion.name = name
        ∧ (stand.ledger.result name).verdict = .ofOutcome completion.outcome
        ∧ (completion.outcome = .ok () → ∀ step ∈ graph.steps, step.name = name →
          ∀ parameter ∈ step.provides.map (·.1), stand.ledger.register.has parameter = true)

theorem Sees.idle_of_mem (sees : env.Sees graph top) (underWay : UnderWay graph top)
    (anchored : graph.Anchored) (acyclic : graph.Acyclic) (member : name ∈ graph.names) :
    ((env.waiting graph parallelism top).ledger.state name).isWaiting = false := by
  obtain ⟨step, ordered, rfl⟩ := StepGraph.exists_orderedStep anchored acyclic member
  exact (sees.halted underWay anchored).idle step ordered

theorem Sees.skipped (sees : env.Sees graph top) (underWay : UnderWay graph top)
    (anchored : graph.Anchored) (acyclic : graph.Acyclic) (member : name ∈ graph.names)
    (waiting : (top.ledger.state name).isWaiting = true) :
    (env.waiting graph parallelism top).ledger.state name = .skipped := by
  have goes : env.Reaches graph parallelism _ top (env.waiting graph parallelism top) :=
    sees.reaches_waiting
  rcases underWay.waits_or_left_of_reaches anchored goes waiting
    with waits | skipped | started
  · rw [sees.idle_of_mem underWay anchored acyclic member] at waits
    cases waits
  · exact skipped
  · have quiet : ∀ action : Action κ ρ, IsSkip action ∨ IsHalt action →
        action.started? = none := by
      rintro action (skip | halt) <;> cases action <;> trivial
    rw [(goes.unstarted quiet).1] at started
    exact absurd started (underWay.tidy.not_dispatched_of_isWaiting waiting)

theorem Sees.labelled (sees : env.Sees graph top) (underWay : UnderWay graph top)
    (anchored : graph.Anchored) (acyclic : graph.Acyclic) (member : name ∈ graph.names)
    (waiting : ((env.propagateSkips graph top).ledger.state name).isWaiting = true)
    (reaches : env.Reaches graph parallelism allowed
      (env.waiting graph parallelism top) progress) :
    (progress.ledger.result name).verdict = .cancelled := by
  have propagated := underWay.reaches anchored
    (propagateSkips_reaches env graph parallelism top)
  have halts : env.Reaches graph parallelism IsHalt _ _ := sees.halts
  have labelled : ((env.waiting graph parallelism top).ledger.result name).verdict =
      .cancelled := by
    refine (waits_or_cancelled propagated anchored halts waiting).resolve_left
      fun waits => ?_
    rw [sees.idle_of_mem underWay anchored acyclic member] at waits
    cases waits
  have state : (env.waiting graph parallelism top).ledger.state name = .skipped :=
    congrArg Verdict.state labelled
  rw [(propagated.reaches anchored halts).result_of_reaches anchored reaches
    (by simp [state, StepState.isTerminal])]
  exact labelled

theorem has_of_marked {register declared : Register ρ}
    (accepted : declareAll register graph.steps = (declared, none))
    (same : progress.ledger.register.declared = declared.declared)
    (marked : name ∈ progress.ledger.register.succeeded) {step : Step κ ρ}
    (member : step ∈ graph.steps) (owner : step.name = name) {parameter : String}
    (provided : parameter ∈ step.provides.map (·.1)) :
    progress.ledger.register.has parameter = true := by
  refine Register.has_iff.mpr ⟨name, ?_, marked⟩
  rw [Register.producer?_congr same, producer?_declareAll accepted member provided, owner]

theorem Sees.windsDown {register declared : Register ρ} {since before : Nat}
    (sees : env.Sees graph top) (underWay : UnderWay graph top) (anchored : graph.Anchored)
    (acyclic : graph.Acyclic)
    (accepted : declareAll register graph.steps = (declared, none))
    (same : top.ledger.register.declared = declared.declared)
    (arrives : env.Reaches graph parallelism
      (env.IsArrival graph parallelism first since before)
      (env.waiting graph parallelism top) progress) :
    env.WindsDown graph parallelism first top since before progress := by
  have goes : env.Reaches graph parallelism _ top (env.waiting graph parallelism top) :=
    sees.reaches_waiting
  have waits := underWay.reaches anchored goes
  have whole : env.Reaches graph parallelism (fun action => (IsSkip action ∨ IsHalt action)
      ∨ env.IsArrival graph parallelism first since before action) top progress :=
    (goes.weaken fun _ => .inl).trans (arrives.weaken fun _ => .inr)
  -- Neither the rest of the turn nor an arrival after it starts a step.
  have quiet : ∀ action : Action κ ρ, ((IsSkip action ∨ IsHalt action)
      ∨ env.IsArrival graph parallelism first since before action) →
        action.started? = none := by
    rintro action ((skip | halt) | arrival)
    · cases action <;> trivial
    · cases action <;> trivial
    · exact arrival.started?
  obtain ⟨unstarted, unlaunched⟩ := whole.unstarted quiet
  refine ⟨unstarted, unlaunched, fun name member waiting => ?_,
    fun name member waiting => ?_, fun name flying => ?_⟩
  · have skipped : (env.waiting graph parallelism top).ledger.state name = .skipped :=
      sees.skipped underWay anchored acyclic member waiting
    rw [Ledger.state, waits.result_of_reaches anchored arrives
      (by simp [skipped, StepState.isTerminal])]
    exact skipped
  · exact sees.labelled underWay anchored acyclic member waiting arrives
  · have tidy := (underWay.reaches anchored whole).tidy
    rcases underWay.flies_or_landed_of_reaches anchored whole flying with
      aloft | ⟨completion, (refusal | delivered), rfl, landed⟩
    · exact .inl ⟨aloft, (tidy.running_iff name).mpr aloft⟩
    · rcases refusal with skip | halt
      · cases skip
      · cases halt
    · refine .inr ⟨completion, delivered, rfl, landed.verdict,
        fun succeeded step listed owner parameter provided => ?_⟩
      exact has_of_marked accepted ((declared_of_reaches whole).trans same)
        (landed.marked succeeded) listed owner provided

theorem WindsDown.tell {since before : Nat} (event : Event)
    (windsDown : env.WindsDown graph parallelism first top since before progress) :
    env.WindsDown graph parallelism first top since before (env.tell event progress) :=
  { windsDown with
    unlaunched := fun log logs => (logs.hook _ _ _).trans (windsDown.unlaunched log logs) }

/-- From the turn whose check sees the cancellation, for every world.  No further step is
started, and what waited then is skipped, as cancelled if it still waited at the check.
Every step in flight is awaited: it is on record as running until a wait delivers it, and
from then on with its own outcome, its parameters there to be read if it succeeded.  The
run does not break off, it ends with nothing in flight and says that it was cancelled,
however its steps ended; and it does end if no step stays in flight for ever. -/
theorem run_halts (env : Environment κ ρ σ) (anchored : graph.Anchored)
    (acyclic : graph.Acyclic) {limit : Int} (least : 1 ≤ limit)
    {register declared : Register ρ} {world : σ}
    (accepted : declareAll register graph.steps = (declared, none)) {turns : Nat}
    (again : env.drain graph limit.toNat turns
      (env.entry graph declared world) = (.again, top))
    (sees : env.Sees graph top) :
    (∀ more, turns < more → ∃ ending stand,
        env.run graph limit more register world = (ending, stand)
          ∧ (ending = .unfinished ∨ stand.inFlight = []
            ∧ ending = .finished
              { steps := stand.ledger.results, succeeded := false,
                reason := Reason.cancelled })
          ∧ env.WindsDown graph limit.toNat (env.entry graph declared world) top
              turns more stand)
      ∧ (env.Fair graph limit.toNat (env.entry graph declared world) →
          ∃ enough, ∀ more, enough ≤ more → ∃ result stand,
            env.run graph limit more register world = (.finished result, stand)) := by
  have underWay := underWay_top anchored again
  have same : top.ledger.register.declared = declared.declared :=
    (declared_of_reaches (top_reaches anchored again)).trans
      (congrArg Register.declared (register_foldl_preflight env _ _))
  refine ⟨fun more later => ?_, sees.run_finishes anchored least accepted again⟩
  obtain ⟨ending, stand, reached, ran, ends, arrives⟩ :=
    sees.run_stands anchored least accepted again later
  have windsDown := sees.windsDown underWay anchored acyclic accepted same arrives
  refine ⟨ending, stand, ran, ?_⟩
  rcases ends with ⟨rfl, rfl⟩ | ⟨landed, rfl, rfl⟩
  · exact ⟨.inl rfl, windsDown⟩
  · exact ⟨.inr ⟨landed, rfl⟩, windsDown.tell _⟩

/-- A world that is cancelled during its first wait.  As many waits as it is told to bring
nothing, and every later one ends all that is in flight. -/
def interrupted (idle : Nat) (outcome : String → Except Error Unit) :
    Environment Unit Unit Nat where
  cancelled waits := decide (0 < waits)
  now _ := default
  launch _ waits := waits
  await _ inFlight waits :=
    (if waits < idle then [] else inFlight.map fun name => ⟨name, outcome name⟩, waits + 1)
  hook _ _ waits := (.ok (), waits)

def imaged : StepGraph Unit Unit where
  steps := [{ name := "cli", provides := [("CLI_IMAGE", ())], work := () },
    { name := "e2e", work := () }]
  edges := [("cli", "e2e")]

theorem imaged_acyclic : imaged.Acyclic :=
  StepGraph.acyclic_of_rank imaged.names.idxOf (by decide)

theorem imaged_again :
    (interrupted 1 fun _ => .ok ()).drain imaged 1 1
        ((interrupted 1 fun _ => .ok ()).entry imaged (declareAll {} imaged.steps).1 0) =
      (.again, (interrupted 1 fun _ => .ok ()).collect
        ((interrupted 1 fun _ => .ok ()).waiting imaged 1
          ((interrupted 1 fun _ => .ok ()).entry imaged
            (declareAll {} imaged.steps).1 0))) := by
  have wellFormed : imaged.WellFormed := by decide
  have orderly := orderly_entry (interrupted 1 fun _ => .ok ()) wellFormed 1
    (declareAll {} imaged.steps).1 0
  have turned : (interrupted 1 fun _ => .ok ()).turn imaged 1 _ = _ :=
    turn_eq wellFormed orderly
  exact drain_one (turned.trans (if_neg (by decide +kernel)))

theorem interrupted_halts :
    imaged.WellFormed
      ∧ ∃ stand, (interrupted 1 fun _ => .ok ()).run imaged 1 3 {} 0 =
          (.finished
            { steps := stand.ledger.results, succeeded := false,
              reason := Reason.cancelled }, stand)
        ∧ stand.ledger.state "cli" = .succeeded
        ∧ stand.ledger.register.has "CLI_IMAGE" = true
        ∧ (stand.ledger.result "e2e").verdict = .cancelled := by
  have wellFormed : imaged.WellFormed := by decide
  have halts :=
    (run_halts (interrupted 1 fun _ => .ok ()) wellFormed.anchored imaged_acyclic
    (by decide : (1 : Int) ≤ 1) (Prod.ext rfl rfl : declareAll {} imaged.steps = (_, none))
    imaged_again ⟨by decide +kernel, by decide +kernel⟩).1
  obtain ⟨ending, stand, ran, ends, windsDown⟩ := halts 3 (by decide)
  have ended : (match ((interrupted 1 fun _ => .ok ()).run imaged 1 3 {} 0).1 with
      | .unfinished => false
      | _ => true) = true := by decide +kernel
  have built : ((interrupted 1 fun _ => .ok ()).run imaged 1 3 {} 0).2.ledger.state
      "cli" = .succeeded
      ∧ ((interrupted 1 fun _ => .ok ()).run imaged 1 3 {} 0).2.ledger.register.has
        "CLI_IMAGE" = true := by decide +kernel
  rw [ran] at ended built
  rcases ends with rfl | ⟨_, rfl⟩
  · cases ended
  · exact ⟨wellFormed, stand, ran, built.1, built.2,
      windsDown.cancelled "e2e" (.tail _ (.head _)) (by decide +kernel)⟩

end Environment

end BuildPipeline
