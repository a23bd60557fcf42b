import BuildPipeline.Proofs.Execution.Discipline

namespace BuildPipeline

variable {κ ρ σ : Type}

namespace Environment

variable {graph : StepGraph κ ρ}

def IsStuck (graph : StepGraph κ ρ) (ledger : Ledger ρ) (name : String) : Prop :=
  ledger.state name = .pending ∧ blockers graph ledger name ≠ []

theorem mem_blockers {ledger : Ledger ρ} {name blocking : String} :
    blocking ∈ blockers graph ledger name
      ↔ graph.Precedes blocking name ∧ (ledger.state blocking).isBlocking = true := by
  simp only [blockers, Text.sort, List.mem_mergeSort, List.mem_filter,
    StepGraph.mem_dependencies_iff_precedes]

theorem isStuck_iff {ledger : Ledger ρ} {name : String} :
    IsStuck graph ledger name
      ↔ ledger.state name = .pending ∧
          ∃ before, graph.Precedes before name
            ∧ (ledger.state before).isBlocking = true := by
  refine and_congr_right fun _ => ⟨fun blocked => ?_, ?_⟩
  · obtain ⟨before, member⟩ := List.exists_mem_of_ne_nil _ blocked
    exact ⟨before, mem_blockers.mp member⟩
  · rintro ⟨before, blocking⟩
    exact List.ne_nil_of_mem (mem_blockers.mpr blocking)

theorem isStuck_congr {first second : Ledger ρ} {name : String}
    (own : first.state name = second.state name)
    (before : ∀ before, graph.Precedes before name →
      first.state before = second.state before) :
    IsStuck graph first name ↔ IsStuck graph second name := by
  rw [isStuck_iff, isStuck_iff, own]
  refine and_congr_right fun _ => exists_congr fun earlier => and_congr_right fun edge => ?_
  rw [before earlier edge]

theorem apart_of_ordered (wellFormed : graph.WellFormed) {before rest : List (Step κ ρ)}
    {later : Step κ ρ} (split : graph.orderedSteps = before ++ later :: rest)
    {step : Step κ ρ} (member : step ∈ before) :
    step.name ≠ later.name ∧ ¬ graph.Precedes later.name step.name := by
  obtain ⟨front, back, rfl⟩ := List.append_of_mem member
  have names := StepGraph.names_orderedSteps wellFormed
  rw [split, List.append_assoc, List.cons_append, List.map_append, List.map_cons] at names
  have nodup := StepGraph.orderedSteps_nodup wellFormed
  rw [split, List.append_assoc, List.cons_append, List.map_append, List.map_cons,
    List.nodup_append] at nodup
  have behind : later.name ∈ (back ++ later :: rest).map (·.name) := by simp
  refine ⟨fun same => ?_, fun edge => ?_⟩
  · exact (List.nodup_cons.mp nodup.2.1).1 (same ▸ behind)
  · have ahead : later.name ∈ front.map (·.name) :=
      StepGraph.dependencies_before wellFormed names.symm later.name
        (StepGraph.mem_dependencies_iff_precedes.mpr edge)
    exact nodup.2.2 _ ahead _ (List.mem_cons_of_mem _ behind) rfl

theorem skipIfBlocked_of_isStuck (env : Environment κ ρ σ) {progress : Progress ρ σ}
    {step : Step κ ρ} (stuck : IsStuck graph progress.ledger step.name) :
    env.skipIfBlocked graph progress step =
      env.finish step.name .skipped
        (some (Error.ofFailure (blockedFailure graph progress.ledger step))) progress :=
  if_pos stuck

theorem skipIfBlocked_of_not_isStuck (env : Environment κ ρ σ) {progress : Progress ρ σ}
    {step : Step κ ρ} (free : ¬ IsStuck graph progress.ledger step.name) :
    env.skipIfBlocked graph progress step = progress :=
  if_neg free

theorem recorded_skipIfBlocked (env : Environment κ ρ σ) (graph : StepGraph κ ρ)
    (progress : Progress ρ σ) (step : Step κ ρ) :
    (env.skipIfBlocked graph progress step).ledger.recorded = progress.ledger.recorded := by
  by_cases stuck : IsStuck graph progress.ledger step.name
  · rw [skipIfBlocked_of_isStuck env stuck, recorded_finish]
  · rw [skipIfBlocked_of_not_isStuck env stuck]

theorem result_skipIfBlocked_of_ne (env : Environment κ ρ σ) (graph : StepGraph κ ρ)
    (progress : Progress ρ σ) {step : Step κ ρ} {name : String} (ne : name ≠ step.name) :
    (env.skipIfBlocked graph progress step).ledger.result name =
      progress.ledger.result name := by
  by_cases stuck : IsStuck graph progress.ledger step.name
  · rw [skipIfBlocked_of_isStuck env stuck, result_finish_of_ne env _ _ _ ne]
  · rw [skipIfBlocked_of_not_isStuck env stuck]

theorem state_skipIfBlocked_of_ne (env : Environment κ ρ σ) (graph : StepGraph κ ρ)
    (progress : Progress ρ σ) {step : Step κ ρ} {name : String} (ne : name ≠ step.name) :
    (env.skipIfBlocked graph progress step).ledger.state name =
      progress.ledger.state name :=
  congrArg StepResult.state (result_skipIfBlocked_of_ne env graph progress ne)

theorem not_isStuck_skipIfBlocked (env : Environment κ ρ σ) (graph : StepGraph κ ρ)
    {progress : Progress ρ σ} {step : Step κ ρ}
    (present : step.name ∈ progress.ledger.recorded) :
    ¬ IsStuck graph (env.skipIfBlocked graph progress step).ledger step.name := by
  by_cases stuck : IsStuck graph progress.ledger step.name
  · rw [skipIfBlocked_of_isStuck env stuck]
    rintro ⟨pending, _⟩
    rw [Ledger.state, result_finish_self env _ _ present] at pending
    cases pending
  · rw [skipIfBlocked_of_not_isStuck env stuck]
    exact stuck

/-- The invariant of the pass: no step behind it is stuck. -/
theorem not_isStuck_foldl (env : Environment κ ρ σ) (wellFormed : graph.WellFormed)
    (before : List (Step κ ρ)) {rest : List (Step κ ρ)}
    (split : graph.orderedSteps = before ++ rest) {progress : Progress ρ σ}
    (recorded : progress.ledger.recorded = graph.names)
    (settled : ∀ step ∈ before, ¬ IsStuck graph progress.ledger step.name) :
    ∀ step ∈ graph.orderedSteps,
      ¬ IsStuck graph (rest.foldl (env.skipIfBlocked graph) progress).ledger step.name := by
  induction rest generalizing before progress with
  | nil => simpa [split] using settled
  | cons next rest ih =>
      have ordered : next ∈ graph.orderedSteps := by simp [split]
      have present : next.name ∈ progress.ledger.recorded := by
        rw [recorded]
        exact name_mem_names wellFormed ordered
      rw [List.foldl_cons]
      refine ih (before ++ [next]) (by simp [split])
        ((recorded_skipIfBlocked env graph progress next).trans recorded)
        fun step member => ?_
      rcases List.mem_append.mp member with member | member
      · obtain ⟨ne, unrelated⟩ := apart_of_ordered wellFormed split member
        rw [isStuck_congr (state_skipIfBlocked_of_ne env graph progress ne)
          fun earlier edge =>
          state_skipIfBlocked_of_ne env graph progress fun same => unrelated (same ▸ edge)]
        exact settled step member
      · rw [List.mem_singleton.mp member]
        exact not_isStuck_skipIfBlocked env graph present

theorem not_isStuck_propagateSkips (env : Environment κ ρ σ) (wellFormed : graph.WellFormed)
    {progress : Progress ρ σ} (recorded : progress.ledger.recorded = graph.names)
    {step : Step κ ρ} (ordered : step ∈ graph.orderedSteps) :
    ¬ IsStuck graph (env.propagateSkips graph progress).ledger step.name :=
  not_isStuck_foldl env wellFormed [] rfl recorded (by simp) step ordered

end Environment

end BuildPipeline
