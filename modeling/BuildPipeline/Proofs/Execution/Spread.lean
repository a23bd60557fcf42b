import BuildPipeline.Proofs.Execution.Outcome

namespace BuildPipeline

variable {κ ρ σ : Type}

namespace Environment

variable {graph : StepGraph κ ρ} {ledger after : Ledger ρ}
  {progress : Progress ρ σ} {name : String} {passed : List String}

/-- A path of pending steps from a step back to one that blocks the last of them. -/
def HeldUp (graph : StepGraph κ ρ) (ledger : Ledger ρ) (name : String) : Prop :=
  ∃ path blocking,
    (name :: path ++ [blocking]).IsChain (fun later earlier => graph.Precedes earlier later)
      ∧ (∀ pending ∈ name :: path, ledger.state pending = .pending)
      ∧ (ledger.state blocking).isBlocking = true

theorem heldUp_iff :
    HeldUp graph ledger name
      ↔ ledger.state name = .pending ∧ ∃ before, graph.Precedes before name
          ∧ ((ledger.state before).isBlocking = true ∨ HeldUp graph ledger before) := by
  constructor
  · rintro ⟨path, blocking, chained, pending, blocks⟩
    refine ⟨pending name List.mem_cons_self, ?_⟩
    cases path with
    | nil => exact ⟨blocking, (List.isChain_cons_cons.mp chained).1, Or.inl blocks⟩
    | cons next path =>
        obtain ⟨edge, chained⟩ := List.isChain_cons_cons.mp chained
        exact ⟨next, edge, Or.inr ⟨path, blocking, chained,
          (List.forall_mem_cons.mp pending).2, blocks⟩⟩
  · rintro ⟨own, before, edge, blocks | ⟨path, blocking, chained, pending, blocks⟩⟩
    · exact ⟨[], before, List.isChain_pair.mpr edge, by simpa using own, blocks⟩
    · exact ⟨before :: path, blocking, List.isChain_cons_cons.mpr ⟨edge, chained⟩,
        List.forall_mem_cons.mpr ⟨own, pending⟩, blocks⟩

/-- What a pass has made of a ledger once it has come past some of the steps. -/
structure Spread (graph : StepGraph κ ρ) (ledger : Ledger ρ) (passed : List String)
    (after : Ledger ρ) : Prop where
  recorded : after.recorded = ledger.recorded
  skipped : ∀ name ∈ passed, HeldUp graph ledger name → after.state name = .skipped
  kept : ∀ name, (name ∈ passed → ¬ HeldUp graph ledger name) →
    after.result name = ledger.result name

namespace Spread

theorem refl (graph : StepGraph κ ρ) (ledger : Ledger ρ) : Spread graph ledger [] ledger :=
  ⟨rfl, fun _ member => (List.not_mem_nil member).elim, fun _ _ => rfl⟩

theorem isBlocking_iff (spread : Spread graph ledger passed after)
    (member : name ∈ passed) :
    (after.state name).isBlocking = true
      ↔ (ledger.state name).isBlocking = true ∨ HeldUp graph ledger name := by
  by_cases held : HeldUp graph ledger name
  · simp [spread.skipped name member held, held]
  · rw [Ledger.state, spread.kept name fun _ => held, Ledger.state]
    simp [held]

/-- When its turn comes, a step is stuck exactly if it was held up before the pass: all
that it depends on was passed. -/
theorem isStuck_iff_heldUp (spread : Spread graph ledger passed after)
    (fresh : name ∉ passed)
    (behind : ∀ before, graph.Precedes before name → before ∈ passed) :
    IsStuck graph after name ↔ HeldUp graph ledger name := by
  have own : after.state name = ledger.state name :=
    congrArg StepResult.state (spread.kept name fun member => absurd member fresh)
  rw [isStuck_iff, heldUp_iff, own]
  refine and_congr_right fun _ => exists_congr fun before => and_congr_right fun edge => ?_
  exact spread.isBlocking_iff (behind before edge)

theorem skipIfBlocked (env : Environment κ ρ σ) {step : Step κ ρ}
    (spread : Spread graph ledger passed progress.ledger)
    (present : step.name ∈ ledger.recorded) (fresh : step.name ∉ passed)
    (behind : ∀ before, graph.Precedes before step.name → before ∈ passed) :
    Spread graph ledger (passed ++ [step.name])
      (env.skipIfBlocked graph progress step).ledger := by
  have stuck_iff := spread.isStuck_iff_heldUp fresh behind
  have others : ∀ {name}, name ≠ step.name →
      (env.skipIfBlocked graph progress step).ledger.result name =
        progress.ledger.result name :=
    result_skipIfBlocked_of_ne env graph progress
  refine
    { recorded := (recorded_skipIfBlocked env graph progress step).trans spread.recorded
      skipped := fun name member held => ?_
      kept := fun name free => ?_ }
  · by_cases here : name = step.name
    · subst here
      rw [skipIfBlocked_of_isStuck env (stuck_iff.mpr held), Ledger.state,
        result_finish_self env _ _ (spread.recorded ▸ present), StepResult.state_ended]
    · have before : name ∈ passed := by simpa [here] using member
      rw [Ledger.state, others here]
      exact spread.skipped name before held
  · by_cases here : name = step.name
    · subst here
      rw [skipIfBlocked_of_not_isStuck env (stuck_iff.not.mpr (free (by simp)))]
      exact spread.kept step.name fun member => absurd member fresh
    · rw [others here]
      exact spread.kept name fun member => free (List.mem_append_left _ member)

theorem pass (env : Environment κ ρ σ) (wellFormed : graph.WellFormed)
    (recorded : ledger.recorded = graph.names) (before : List (Step κ ρ))
    {rest : List (Step κ ρ)} (split : graph.orderedSteps = before ++ rest)
    (spread : Spread graph ledger (before.map (·.name)) progress.ledger) :
    Spread graph ledger graph.order
      (rest.foldl (env.skipIfBlocked graph) progress).ledger := by
  have names := StepGraph.names_orderedSteps wellFormed
  induction rest generalizing before progress with
  | nil =>
      rw [← names, split, List.append_nil]
      exact spread
  | cons next rest ih =>
      rw [split, List.map_append, List.map_cons] at names
      have nodup := StepGraph.order_nodup wellFormed
      rw [← names] at nodup
      have fresh : next.name ∉ before.map (·.name) := fun member =>
        List.disjoint_of_nodup_append nodup member List.mem_cons_self
      have present : next.name ∈ ledger.recorded := by
        rw [recorded]
        exact name_mem_names wellFormed (by simp [split])
      have spread' := spread.skipIfBlocked env present fresh fun earlier edge =>
        StepGraph.dependencies_before wellFormed names.symm earlier
          (StepGraph.mem_dependencies_iff_precedes.mpr edge)
      refine ih (before ++ [next]) (by simp [split]) ?_
      simpa using spread'

end Spread

theorem spread_propagateSkips (env : Environment κ ρ σ) (wellFormed : graph.WellFormed)
    (recorded : progress.ledger.recorded = graph.names) :
    Spread graph progress.ledger graph.order (env.propagateSkips graph progress).ledger :=
  (Spread.refl graph progress.ledger).pass env wellFormed recorded [] rfl

theorem foldl_skipIfBlocked_of_free (env : Environment κ ρ σ) {steps : List (Step κ ρ)}
    (free : ∀ step ∈ steps, ¬ IsStuck graph progress.ledger step.name) :
    steps.foldl (env.skipIfBlocked graph) progress = progress := by
  induction steps with
  | nil => rfl
  | cons step rest ih =>
      obtain ⟨first, later⟩ := List.forall_mem_cons.mp free
      rw [List.foldl_cons, skipIfBlocked_of_not_isStuck env first, ih later]

/-- Whatever the states of the steps, after one pass no pending step depends on a failed
or skipped one, so that another pass changes nothing.  A pending step has been skipped
exactly if it was held up, and the records of all other steps are as they were. -/
theorem propagateSkips_settles (env : Environment κ ρ σ) (wellFormed : graph.WellFormed)
    (acyclic : graph.Acyclic) (progress : Progress ρ σ)
    (recorded : progress.ledger.recorded = graph.names) :
    let after := env.propagateSkips graph progress
    (∀ name, after.ledger.state name = .pending → ∀ dependency ∈ graph.dependencies name,
        after.ledger.state dependency ≠ .failed ∧ after.ledger.state dependency ≠ .skipped)
      ∧ env.propagateSkips graph after = after
      ∧ (∀ name, progress.ledger.state name = .pending →
          (after.ledger.state name = .skipped ↔ HeldUp graph progress.ledger name))
      ∧ ∀ name, ¬ (progress.ledger.state name = .pending
        ∧ after.ledger.state name = .skipped) →
          after.ledger.result name = progress.ledger.result name := by
  intro after
  have spread := spread_propagateSkips env wellFormed recorded
  have ordered : ∀ {before name}, graph.Precedes before name → name ∈ graph.order :=
    fun edge =>
      StepGraph.mem_order_of_acyclic wellFormed acyclic (wellFormed.after_mem edge)
  have reached : ∀ {name}, HeldUp graph progress.ledger name →
      after.ledger.state name = .skipped := by
    intro name held
    obtain ⟨_, _, edge, _⟩ := heldUp_iff.mp held
    exact spread.skipped name (ordered edge) held
  have free : ∀ step ∈ graph.orderedSteps, ¬ IsStuck graph after.ledger step.name :=
    fun step member => not_isStuck_propagateSkips env wellFormed recorded member
  refine ⟨fun name pending dependency waits => ?_, foldl_skipIfBlocked_of_free env free,
    fun name pending => ⟨fun skipped => ?_, reached⟩, fun name other => ?_⟩
  · have edge := StepGraph.mem_dependencies_iff_precedes.mp waits
    obtain ⟨step, found, rfl⟩ :=
      StepGraph.step?_isSome wellFormed (wellFormed.after_mem edge)
    have member := StepGraph.mem_orderedSteps_of_acyclic wellFormed acyclic
      ((StepGraph.step?_eq_some_iff wellFormed).mp found).1
    have unblocked : ¬ (after.ledger.state dependency).isBlocking = true := fun blocks =>
      free step member (isStuck_iff.mpr ⟨pending, dependency, edge, blocks⟩)
    rwa [StepState.isBlocking_eq_true, not_or] at unblocked
  · by_contra unheld
    have same : after.ledger.state name = progress.ledger.state name :=
      congrArg StepResult.state (spread.kept name fun _ => unheld)
    rw [skipped, pending] at same
    cases same
  · exact spread.kept name fun _ held => other ⟨(heldUp_iff.mp held).1, reached held⟩

def stalled : Progress Unit (List String) where
  ledger :=
    { register := {}
      results :=
        [{ name := "src", state := .failed }, { name := "cli" },
          { name := "api", state := .running }, { name := "done" }] }
  inFlight := ["api"]
  dispatched := ["api", "src"]
  world := []

theorem stalled_settles :
    diamond.WellFormed ∧ diamond.Acyclic ∧ stalled.ledger.recorded = diamond.names
      ∧ HeldUp diamond stalled.ledger "done"
      ∧ ((steady fun _ => .ok ()).propagateSkips diamond stalled).ledger.state
          "done" = .skipped
      ∧ ((steady fun _ => .ok ()).propagateSkips diamond stalled).ledger.result "api"
          = stalled.ledger.result "api" := by
  have wellFormed : diamond.WellFormed := by decide
  have held : HeldUp diamond stalled.ledger "done" := by
    refine ⟨["cli"], "src", ?_, by decide, by decide⟩
    simp [StepGraph.Precedes, diamond]
  obtain ⟨-, -, skipped, kept⟩ :=
    propagateSkips_settles (steady fun _ => .ok ()) wellFormed diamond_acyclic stalled rfl
  have running : stalled.ledger.state "api" ≠ .pending := by decide
  exact ⟨wellFormed, diamond_acyclic, rfl, held, (skipped "done" rfl).mpr held,
    kept "api" fun changed => running changed.1⟩

end Environment

end BuildPipeline
