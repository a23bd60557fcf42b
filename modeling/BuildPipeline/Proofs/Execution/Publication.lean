import BuildPipeline.Proofs.Execution.Keeping

namespace BuildPipeline

variable {κ ρ σ : Type}

namespace Environment

variable {env : Environment κ ρ σ} {graph : StepGraph κ ρ} {parallelism : Nat}
  {progress next : Progress ρ σ} {action : Action κ ρ} {declared : List (Declaration ρ)}

theorem succeeded_of_acts (wellFormed : graph.WellFormed)
    (orderly : Orderly graph parallelism progress)
    (acts : env.Acts graph parallelism action progress next) {name : String}
    (succeeded : next.ledger.state name = .succeeded) :
    progress.ledger.state name = .succeeded
      ∨ name ∈ progress.inFlight ∧ action = .land ⟨name, .ok ()⟩ := by
  by_cases quiet : IsQuiet action
  · exact .inl (succeeded_of_quiet wellFormed orderly quiet acts succeeded)
  · cases acts with
    | skip | stop | sweep | ready | start => exact (quiet trivial).elim
    | pause => exact .inl succeeded
    | @land _ completion flying =>
        by_cases here : name = completion.name
        · subst here
          have present : completion.name ∈ progress.ledger.recorded :=
            orderly.recorded ▸ orderly.tidy.mem_names_of_flying flying
          have outcome := outcome_of_succeeded env flying present succeeded
          exact .inr ⟨flying, by rw [← outcome]⟩
        · rw [Ledger.state, result_record_of_ne env _ here] at succeeded
          exact .inl succeeded

theorem dispatched_of_succeeded (wellFormed : graph.WellFormed) {register : Register ρ}
    {world : σ} {actions : List (Action κ ρ)}
    (trace : env.Trace graph parallelism (env.entry graph register world) actions progress)
    {name : String} (succeeded : progress.ledger.state name = .succeeded) :
    name ∈ progress.dispatched := by
  induction trace with
  | nil =>
      rcases state_entry env wellFormed register world name with state | state <;>
        cases succeeded.symm.trans state
  | snoc trace acts ih =>
      have orderly :=
        (orderly_entry env wellFormed parallelism register world).trace wellFormed trace
      rw [acts.dispatched]
      rcases succeeded_of_acts wellFormed orderly acts succeeded with before | ⟨flying, _⟩
      · exact List.mem_append_right _ (ih before)
      · exact List.mem_append_right _ (orderly.launched name flying)

theorem mem_dispatched_iff_started (wellFormed : graph.WellFormed) {register : Register ρ}
    {world : σ} {actions : List (Action κ ρ)}
    (trace : env.Trace graph parallelism (env.entry graph register world) actions progress)
    {name : String} :
    name ∈ progress.dispatched ↔ name ∈ actions.filterMap Action.started? := by
  rw [trace.dispatched, (entry_eq env wellFormed register world).2.1, List.append_nil,
    List.mem_reverse]

theorem started_of_succeeded (wellFormed : graph.WellFormed) {register : Register ρ}
    {world : σ} {actions : List (Action κ ρ)}
    (trace : env.Trace graph parallelism (env.entry graph register world) actions progress)
    {name : String} (succeeded : progress.ledger.state name = .succeeded) :
    name ∈ actions.filterMap Action.started? :=
  (mem_dispatched_iff_started wellFormed trace).mp
    (dispatched_of_succeeded wellFormed trace succeeded)

/-- At every point of a run, what is started comes after steps that were started and have
succeeded. -/
theorem succeeded_before_started (wellFormed : graph.WellFormed) {register : Register ρ}
    {world : σ} {actions : List (Action κ ρ)}
    (trace : env.Trace graph parallelism (env.entry graph register world) actions progress)
    {before after : String} (edge : graph.Precedes before after)
    (started : after ∈ actions.filterMap Action.started?) :
    before ∈ actions.filterMap Action.started?
      ∧ progress.ledger.state before = .succeeded := by
  have orderly :=
    (orderly_entry env wellFormed parallelism register world).trace wellFormed trace
  have succeeded := orderly.free after
    (.inr ((mem_dispatched_iff_started wellFormed trace).mpr started)) before
    (StepGraph.mem_dependencies_iff_precedes.mpr edge)
  exact ⟨started_of_succeeded wellFormed trace succeeded, succeeded⟩

theorem trace_of_succeeded (wellFormed : graph.WellFormed) {parallelism : Int} {turns : Nat}
    {register : Register ρ} {world : σ} {name : String}
    (succeeded : (env.run graph parallelism turns register world).2.ledger.state name
      = .succeeded) :
    ∃ declared actions reached, declareAll register graph.steps = (declared, none)
      ∧ env.Trace graph parallelism.toNat (env.entry graph declared world) actions reached
      ∧ name ∈ actions.filterMap Action.started?
      ∧ (env.run graph parallelism turns register world).2.ledger = reached.ledger := by
  rcases run_cases env wellFormed parallelism turns register world with
    ⟨_, _, _, eq⟩ | ⟨declared, answer, reached, ⟨actions, trace, _⟩, ending⟩
  · rw [eq, Ledger.state, result_opening] at succeeded
    cases succeeded
  · have ledger : (env.run graph parallelism turns register world).2.ledger =
        reached.ledger := by
      rcases ending with eq | ⟨_, eq⟩ <;> rw [eq]
      rfl
    rw [ledger] at succeeded
    exact ⟨declared, actions, reached, answer, trace,
      started_of_succeeded wellFormed trace succeeded, ledger⟩

/-- The register of a run: what was declared at first, and the producers that have
succeeded. -/
structure Published (declared : List (Declaration ρ)) (progress : Progress ρ σ) : Prop where
  declared : progress.ledger.register.declared = declared
  marked : ∀ name, name ∈ progress.ledger.register.succeeded
    ↔ progress.ledger.state name = .succeeded

theorem register_record_ok {name : String} (flying : name ∈ progress.inFlight) :
    (env.record progress ⟨name, .ok ()⟩).ledger.register =
      progress.ledger.register.markSucceeded name := by
  simp [record, flying, succeed, finish]

theorem register_record_error (name : String) (error : Error) :
    (env.record progress ⟨name, .error error⟩).ledger.register =
      progress.ledger.register := by
  unfold record
  split <;> rfl

theorem register_of_acts (acts : env.Acts graph parallelism action progress next)
    (other : ∀ name, action ≠ .land ⟨name, .ok ()⟩) :
    next.ledger.register = progress.ledger.register := by
  cases acts with
  | skip | stop | sweep | ready | start | pause => rfl
  | @land _ completion flying =>
      obtain ⟨name, outcome⟩ := completion
      cases outcome with
      | ok _ => exact absurd rfl (other name)
      | error error => exact register_record_error name error

theorem Published.acts (published : Published declared progress)
    (wellFormed : graph.WellFormed) (orderly : Orderly graph parallelism progress)
    (acts : env.Acts graph parallelism action progress next) : Published declared next := by
  by_cases lands : ∃ name, action = .land ⟨name, .ok ()⟩
  · obtain ⟨landed, rfl⟩ := lands
    cases acts with
    | land flying =>
        have acts : env.Acts graph parallelism (.land ⟨landed, .ok ()⟩) progress _ :=
          .land flying
        have register : (env.record progress ⟨landed, .ok ()⟩).ledger.register = _ :=
          register_record_ok flying
        have present : landed ∈ progress.ledger.recorded :=
          orderly.recorded ▸ orderly.tidy.mem_names_of_flying flying
        refine ⟨by rw [register, Register.declared_markSucceeded, published.declared], ?_⟩
        intro name
        rw [register, Register.markSucceeded, List.mem_cons, published.marked]
        constructor
        · rintro (rfl | before)
          · obtain ⟨moment, self⟩ := result_record_self env flying present
            exact congrArg StepResult.state self
          · exact orderly.tidy.state_of_succeeded acts before
        · intro succeeded
          rcases succeeded_of_acts wellFormed orderly acts succeeded with before | ⟨_, same⟩
          · exact .inr before
          · cases same
            exact .inl rfl
  · rw [not_exists] at lands
    have register := register_of_acts acts lands
    refine ⟨register ▸ published.declared, fun name => ?_⟩
    rw [register, published.marked]
    constructor
    · exact fun before => orderly.tidy.state_of_succeeded acts before
    · intro succeeded
      rcases succeeded_of_acts wellFormed orderly acts succeeded with before | ⟨_, same⟩
      · exact before
      · exact absurd same (lands name)

theorem register_foldl_preflight (env : Environment κ ρ σ) (steps : List (Step κ ρ))
    (progress : Progress ρ σ) :
    (steps.foldl env.preflight progress).ledger.register = progress.ledger.register := by
  induction steps generalizing progress with
  | nil => rfl
  | cons step rest ih =>
      rw [List.foldl_cons, ih, preflight]
      split <;> rfl

theorem published_entry (env : Environment κ ρ σ) (wellFormed : graph.WellFormed)
    {register : Register ρ} (fresh : register.succeeded = []) (world : σ) :
    Published register.declared (env.entry graph register world) := by
  have same : (env.entry graph register world).ledger.register = register :=
    register_foldl_preflight env _ _
  refine ⟨congrArg Register.declared same, fun name => ?_⟩
  rw [same, fresh]
  rcases state_entry env wellFormed register world name with state | state <;> simp [state]

theorem published_trace (wellFormed : graph.WellFormed) {register : Register ρ}
    (fresh : register.succeeded = []) {world : σ} {actions : List (Action κ ρ)}
    (trace : env.Trace graph parallelism (env.entry graph register world)
      actions progress) :
    Published register.declared progress := by
  induction trace with
  | nil => exact published_entry env wellFormed fresh world
  | snoc trace acts ih =>
      exact ih.acts wellFormed
        ((orderly_entry env wellFormed parallelism register world).trace wellFormed trace)
        acts

end Environment

end BuildPipeline
