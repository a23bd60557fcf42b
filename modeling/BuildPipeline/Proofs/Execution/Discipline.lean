import BuildPipeline.Proofs.Execution.Action

namespace BuildPipeline

variable {κ ρ σ : Type}

theorem StepState.isTerminal_of_isWaiting {state : StepState}
    (waiting : state.isWaiting = true) :
    state.isTerminal = false := by
  cases state with
  | pending | runnable => rfl
  | running | succeeded | failed | skipped => cases waiting

namespace Environment

variable {env : Environment κ ρ σ} {graph : StepGraph κ ρ} {parallelism : Nat}
  {progress next : Progress ρ σ} {action : Action κ ρ}

theorem isReady_iff {ledger : Ledger ρ} {step : Step κ ρ} :
    isReady graph ledger step = true
      ↔ (ledger.state step.name).isWaiting = true
        ∧ ∀ dependency ∈ graph.dependencies step.name, ledger.state dependency =
            .succeeded := by
  simp [isReady]

theorem name_mem_names (wellFormed : graph.WellFormed) {step : Step κ ρ}
    (ordered : step ∈ graph.orderedSteps) : step.name ∈ graph.names :=
  List.mem_map_of_mem ((StepGraph.mem_orderedSteps_iff wellFormed).mp ordered).1

theorem Acts.dispatched (acts : env.Acts graph parallelism action progress next) :
    next.dispatched = action.started?.toList ++ progress.dispatched := by
  cases acts with
  | land => exact dispatched_record env _ _
  | start => exact dispatched_start env _ _
  | skip | stop | sweep | ready | pause => rfl

/-- What flies is what is recorded as running, and a step that was started waits no more. -/
structure Tidy (names : List String) (progress : Progress ρ σ) : Prop where
  recorded : progress.ledger.recorded = names
  running_iff : ∀ name, progress.ledger.state name = .running ↔ name ∈ progress.inFlight
  inFlight_nodup : progress.inFlight.Nodup
  started : ∀ name ∈ progress.dispatched,
    progress.ledger.state name = .running ∨ progress.ledger.state name = .succeeded
      ∨ progress.ledger.state name = .failed
  launched : ∀ name ∈ progress.inFlight, name ∈ progress.dispatched

namespace Tidy

variable {names : List String}

theorem not_dispatched_of_isWaiting (tidy : Tidy names progress) {name : String}
    (waiting : (progress.ledger.state name).isWaiting = true) :
    name ∉ progress.dispatched := by
  intro member
  rcases tidy.started name member with state | state | state <;> simp [state] at waiting

theorem mem_names_of_flying (tidy : Tidy names progress) {name : String}
    (flying : name ∈ progress.inFlight) : name ∈ names := by
  by_contra absent
  rw [← tidy.recorded] at absent
  have running := (tidy.running_iff name).mpr flying
  rw [Ledger.state, Ledger.result_of_not_mem absent] at running
  cases running

theorem isTerminal_subject (tidy : Tidy names progress)
    (acts : env.Acts graph parallelism action progress next) {name : String}
    (subject : action.subject? = some name) :
    (progress.ledger.state name).isTerminal = false := by
  cases acts with
  | stop | pause => cases subject
  | skip _ pending => cases subject; simp [pending, StepState.isTerminal]
  | sweep _ waiting =>
      cases subject
      exact StepState.isTerminal_of_isWaiting waiting
  | ready _ _ ready | start _ _ ready =>
      cases subject
      exact StepState.isTerminal_of_isWaiting (isReady_iff.mp ready).1
  | land flying =>
      cases subject
      simp [(tidy.running_iff _).mpr flying, StepState.isTerminal]

theorem result_of_isTerminal (tidy : Tidy names progress)
    (acts : env.Acts graph parallelism action progress next) {name : String}
    (terminal : (progress.ledger.state name).isTerminal = true) :
    next.ledger.result name = progress.ledger.result name := by
  apply acts.result_of_ne
  intro subject
  rw [tidy.isTerminal_subject acts subject] at terminal
  cases terminal

theorem state_of_isTerminal (tidy : Tidy names progress)
    (acts : env.Acts graph parallelism action progress next) {name : String}
    (terminal : (progress.ledger.state name).isTerminal = true) :
    next.ledger.state name = progress.ledger.state name :=
  congrArg StepResult.state (tidy.result_of_isTerminal acts terminal)

theorem state_of_succeeded (tidy : Tidy names progress)
    (acts : env.Acts graph parallelism action progress next) {name : String}
    (succeeded : progress.ledger.state name = .succeeded) :
    next.ledger.state name = .succeeded := by
  rw [tidy.state_of_isTerminal acts (by simp [succeeded, StepState.isTerminal]), succeeded]

end Tidy

/-- What an action makes of the step that it is about: one that waits is given up, or
found ready, or started, and one that flies lands. -/
inductive Change (graph : StepGraph κ ρ) (parallelism : Nat) (name : String)
    (progress next : Progress ρ σ) : Prop where
  | skipped (waiting : (progress.ledger.state name).isWaiting = true)
      (inFlight : next.inFlight = progress.inFlight)
      (dispatched : next.dispatched = progress.dispatched)
      (state : next.ledger.state name = .skipped)
  | readied (waiting : (progress.ledger.state name).isWaiting = true)
      (free : ∀ dependency ∈ graph.dependencies name,
        progress.ledger.state dependency = .succeeded)
      (inFlight : next.inFlight = progress.inFlight)
      (dispatched : next.dispatched = progress.dispatched)
      (state : next.ledger.state name = .runnable)
  | begun (waiting : (progress.ledger.state name).isWaiting = true)
      (free : ∀ dependency ∈ graph.dependencies name,
        progress.ledger.state dependency = .succeeded)
      (room : progress.inFlight.length < parallelism)
      (inFlight : next.inFlight = progress.inFlight ++ [name])
      (dispatched : next.dispatched = name :: progress.dispatched)
      (state : next.ledger.state name = .running)
  | landed (flying : name ∈ progress.inFlight)
      (inFlight : next.inFlight = progress.inFlight.erase name)
      (dispatched : next.dispatched = progress.dispatched)
      (state : next.ledger.state name = .succeeded ∨ next.ledger.state name = .failed)

namespace Tidy

variable {names : List String}

theorem change (tidy : Tidy names progress)
    (present : ∀ step ∈ graph.orderedSteps, step.name ∈ names)
    (acts : env.Acts graph parallelism action progress next) {name : String}
    (subject : action.subject? = some name) :
    Change graph parallelism name progress next := by
  rw [← tidy.recorded] at present
  cases acts with
  | stop | pause => cases subject
  | skip ordered pending =>
      cases subject
      exact .skipped (by simp [pending]) rfl rfl
        (congrArg StepResult.state (result_finish_self env _ _ (present _ ordered)))
  | sweep ordered waiting =>
      cases subject
      exact .skipped waiting rfl rfl
        (congrArg StepResult.state (result_finish_self env _ _ (present _ ordered)))
  | ready ordered _ ready =>
      cases subject
      obtain ⟨waiting, free⟩ := isReady_iff.mp ready
      exact .readied waiting free rfl rfl
        (congrArg StepResult.state (Ledger.result_ready_self (present _ ordered)))
  | start ordered _ ready room =>
      cases subject
      obtain ⟨waiting, free⟩ := isReady_iff.mp ready
      exact .begun waiting free room rfl rfl
        (congrArg StepResult.state (result_start_self env (present _ ordered)))
  | @land _ completion flying =>
      cases subject
      have recorded : completion.name ∈ progress.ledger.recorded :=
        tidy.recorded ▸ tidy.mem_names_of_flying flying
      obtain ⟨moment, result⟩ := result_record_self env flying recorded
      have self : (env.record progress completion).ledger.state completion.name =
          stateOf completion.outcome := congrArg StepResult.state result
      refine .landed flying (inFlight_record env flying) (dispatched_record env _ _) ?_
      rw [self]
      cases completion.outcome <;> simp [stateOf]

/-- An action changes one step at most, so that what is tidy about all others stays so. -/
theorem changed (tidy : Tidy names progress)
    (acts : env.Acts graph parallelism action progress next) {name : String}
    (subject : action.subject? = some name)
    (flights : ∀ other, other ≠ name → (other ∈ next.inFlight ↔ other ∈ progress.inFlight))
    (starts : ∀ other, other ≠ name →
      (other ∈ next.dispatched ↔ other ∈ progress.dispatched))
    (inFlight_nodup : next.inFlight.Nodup)
    (running_iff : next.ledger.state name = .running ↔ name ∈ next.inFlight)
    (started : name ∈ next.dispatched → next.ledger.state name = .running
      ∨ next.ledger.state name = .succeeded ∨ next.ledger.state name = .failed)
    (launched : name ∈ next.inFlight → name ∈ next.dispatched) : Tidy names next := by
  have others : ∀ {other}, other ≠ name →
      next.ledger.state other = progress.ledger.state other := by
    intro other ne
    apply acts.state_of_ne
    rw [subject]
    exact fun same => ne (Option.some.inj same).symm
  refine
    { recorded := acts.recorded.trans tidy.recorded
      running_iff := fun other => ?_
      inFlight_nodup
      started := fun other member => ?_
      launched := fun other member => ?_ }
  · by_cases here : other = name
    · rw [here]
      exact running_iff
    · rw [others here, flights other here]
      exact tidy.running_iff other
  · by_cases here : other = name
    · subst here
      exact started member
    · rw [others here]
      exact tidy.started other ((starts other here).mp member)
  · by_cases here : other = name
    · subst here
      exact launched member
    · exact (starts other here).mpr (tidy.launched other ((flights other here).mp member))

theorem marked (tidy : Tidy names progress)
    (acts : env.Acts graph parallelism action progress next) {name : String}
    (subject : action.subject? = some name)
    (waiting : (progress.ledger.state name).isWaiting = true)
    (inFlight : next.inFlight = progress.inFlight)
    (dispatched : next.dispatched = progress.dispatched)
    (idle : next.ledger.state name ≠ .running) : Tidy names next := by
  have fresh := tidy.not_dispatched_of_isWaiting waiting
  have grounded : name ∉ progress.inFlight := fun member => fresh (tidy.launched _ member)
  rw [← inFlight] at grounded
  rw [← dispatched] at fresh
  exact tidy.changed acts subject (fun _ _ => by rw [inFlight])
    (fun _ _ => by rw [dispatched])
    (inFlight ▸ tidy.inFlight_nodup) (iff_of_false idle grounded)
    (fun member => absurd member fresh) (fun member => absurd member grounded)

theorem acts (tidy : Tidy names progress)
    (present : ∀ step ∈ graph.orderedSteps, step.name ∈ names)
    (acts : env.Acts graph parallelism action progress next) : Tidy names next := by
  cases subject : action.subject? with
  | none =>
      cases acts with
      | stop | pause => exact { tidy with }
      | skip | sweep | ready | start | land => cases subject
  | some name =>
      cases tidy.change present acts subject with
      | skipped waiting inFlight dispatched state =>
          exact tidy.marked acts subject waiting inFlight dispatched (by simp [state])
      | readied waiting _ inFlight dispatched state =>
          exact tidy.marked acts subject waiting inFlight dispatched (by simp [state])
      | begun waiting _ _ inFlight dispatched state =>
          have grounded : name ∉ progress.inFlight := fun member =>
            tidy.not_dispatched_of_isWaiting waiting (tidy.launched _ member)
          refine tidy.changed acts subject (fun other ne => by simp [inFlight, ne])
            (fun other ne => by simp [dispatched, ne]) ?_ (by simp [inFlight, state])
            (fun _ => Or.inl state) (fun _ => by simp [dispatched])
          rw [inFlight]
          exact tidy.inFlight_nodup.append (List.nodup_singleton _)
            (by simpa using grounded)
      | landed flying inFlight dispatched state =>
          have aloft : ∀ other, other ∈ next.inFlight
              ↔ other ≠ name ∧ other ∈ progress.inFlight := by
            intro other
            rw [inFlight]
            exact tidy.inFlight_nodup.mem_erase_iff
          refine tidy.changed acts subject (fun other ne => by simp [aloft, ne])
            (fun other _ => by rw [dispatched]) (inFlight ▸ tidy.inFlight_nodup.erase _) ?_
            (fun _ => Or.inr state) fun member => absurd rfl ((aloft _).mp member).1
          rcases state with state | state <;> simp [state, aloft]

end Tidy

/-- A tidy run in which, besides, no more steps fly than there is room for, none is
started twice or before all that it depends on has succeeded, and an invalid one is not
started at all. -/
structure Orderly (graph : StepGraph κ ρ) (parallelism : Nat) (progress : Progress ρ σ) :
    Prop where
  recorded : progress.ledger.recorded = graph.names
  running_iff : ∀ name, progress.ledger.state name = .running ↔ name ∈ progress.inFlight
  inFlight_nodup : progress.inFlight.Nodup
  room : progress.inFlight.length ≤ parallelism
  dispatched_nodup : progress.dispatched.Nodup
  started : ∀ name ∈ progress.dispatched,
    progress.ledger.state name = .running ∨ progress.ledger.state name = .succeeded
      ∨ progress.ledger.state name = .failed
  launched : ∀ name ∈ progress.inFlight, name ∈ progress.dispatched
  free : ∀ name, progress.ledger.state name = .runnable ∨ name ∈ progress.dispatched →
    ∀ dependency ∈ graph.dependencies name, progress.ledger.state dependency = .succeeded
  rejected : ∀ step ∈ graph.orderedSteps, step.invalid ≠ none →
    progress.ledger.state step.name = .failed ∧ step.name ∉ progress.dispatched

namespace Orderly

theorem tidy (orderly : Orderly graph parallelism progress) : Tidy graph.names progress :=
  { orderly with }

theorem present (orderly : Orderly graph parallelism progress)
    (wellFormed : graph.WellFormed) {step : Step κ ρ}
    (ordered : step ∈ graph.orderedSteps) :
    step.name ∈ progress.ledger.recorded := by
  rw [orderly.recorded]
  exact name_mem_names wellFormed ordered

theorem valid_of_isWaiting (orderly : Orderly graph parallelism progress) {step : Step κ ρ}
    (ordered : step ∈ graph.orderedSteps)
    (waiting : (progress.ledger.state step.name).isWaiting = true) :
    step.invalid = none := by
  by_contra invalid
  simp [(orderly.rejected step ordered invalid).1] at waiting

theorem room_next (orderly : Orderly graph parallelism progress)
    (change : Change graph parallelism name progress next) :
    next.inFlight.length ≤ parallelism := by
  cases change with
  | skipped _ inFlight | readied _ _ inFlight => exact inFlight ▸ orderly.room
  | begun _ _ room inFlight =>
      rw [inFlight, List.length_append]
      exact room
  | landed _ inFlight => exact inFlight ▸ List.length_erase_le.trans orderly.room

theorem dispatched_nodup_next (orderly : Orderly graph parallelism progress)
    (change : Change graph parallelism name progress next) : next.dispatched.Nodup := by
  cases change with
  | skipped _ _ dispatched | readied _ _ _ dispatched | landed _ _ dispatched =>
      exact dispatched ▸ orderly.dispatched_nodup
  | begun waiting _ _ _ dispatched =>
      rw [dispatched]
      exact List.nodup_cons.mpr
        ⟨orderly.tidy.not_dispatched_of_isWaiting waiting, orderly.dispatched_nodup⟩

theorem free_self (orderly : Orderly graph parallelism progress)
    (change : Change graph parallelism name progress next)
    (reached : next.ledger.state name = .runnable ∨ name ∈ next.dispatched) :
    ∀ dependency ∈ graph.dependencies name, progress.ledger.state dependency =
      .succeeded := by
  cases change with
  | skipped _ _ dispatched state =>
      rw [state, dispatched] at reached
      exact orderly.free name (Or.inr (reached.resolve_left (by simp)))
  | readied _ free | begun _ free => exact free
  | landed flying => exact orderly.free name (Or.inr (orderly.launched name flying))

theorem rejected_next (orderly : Orderly graph parallelism progress)
    (acts : env.Acts graph parallelism action progress next) :
    ∀ step ∈ graph.orderedSteps, step.invalid ≠ none →
      next.ledger.state step.name = .failed ∧ step.name ∉ next.dispatched := by
  intro step ordered invalid
  obtain ⟨failed, fresh⟩ := orderly.rejected step ordered invalid
  have terminal : (progress.ledger.state step.name).isTerminal = true := by
    simp [failed, StepState.isTerminal]
  refine ⟨(orderly.tidy.state_of_isTerminal acts terminal).trans failed, fun member => ?_⟩
  rw [acts.dispatched, List.mem_append] at member
  rcases member with start | old
  · rw [orderly.tidy.isTerminal_subject acts (Action.subject?_of_started start)] at terminal
    cases terminal
  · exact fresh old

theorem acts (wellFormed : graph.WellFormed) (orderly : Orderly graph parallelism progress)
    (acts : env.Acts graph parallelism action progress next) :
    Orderly graph parallelism next := by
  have tidy := orderly.tidy.acts (fun _ => name_mem_names wellFormed) acts
  cases subject : action.subject? with
  | none =>
      cases acts with
      | stop | pause => exact { orderly with }
      | skip | sweep | ready | start | land => cases subject
  | some name =>
      have change := orderly.tidy.change (fun _ => name_mem_names wellFormed) acts subject
      refine
        { tidy with
          room := orderly.room_next change
          dispatched_nodup := orderly.dispatched_nodup_next change
          free := fun other reached dependency member =>
            orderly.tidy.state_of_succeeded acts ?_
          rejected := orderly.rejected_next acts }
      by_cases here : name = other
      · subst here
        exact orderly.free_self change reached dependency member
      · have untouched : action.subject? ≠ some other := by
          rw [subject]
          exact fun same => here (Option.some.inj same)
        refine orderly.free other ?_ dependency member
        rw [acts.state_of_ne untouched, acts.dispatched, List.mem_append] at reached
        rcases reached with runnable | start | old
        · exact Or.inl runnable
        · exact absurd (Action.subject?_of_started start) untouched
        · exact Or.inr old

theorem trace (wellFormed : graph.WellFormed) {first : Progress ρ σ}
    {actions : List (Action κ ρ)} (orderly : Orderly graph parallelism first)
    (trace : env.Trace graph parallelism first actions progress) :
    Orderly graph parallelism progress := by
  induction trace with
  | nil => exact orderly
  | snoc _ acts ih => exact ih.acts wellFormed acts

end Orderly

end Environment

end BuildPipeline
