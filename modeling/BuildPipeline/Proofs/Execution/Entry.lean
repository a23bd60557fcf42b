import BuildPipeline.Proofs.Execution.Discipline

namespace BuildPipeline

variable {κ ρ σ : Type}

namespace Environment

variable {env : Environment κ ρ σ} {graph : StepGraph κ ρ} {progress : Progress ρ σ}

def checked (step : Step κ ρ) (moment : Instant) (result : StepResult) : StepResult :=
  match step.invalid with
  | none => result
  | some error => result.ended moment .failed (some (error.because Reason.validating))

theorem preflight_eq (env : Environment κ ρ σ) (progress : Progress ρ σ) (step : Step κ ρ) :
    (env.preflight progress step).inFlight = progress.inFlight
      ∧ (env.preflight progress step).dispatched = progress.dispatched
      ∧ (env.preflight progress step).stopped = progress.stopped
      ∧ (env.preflight progress step).ledger.recorded = progress.ledger.recorded := by
  unfold preflight
  split <;> simp

theorem result_preflight_of_ne (env : Environment κ ρ σ) (progress : Progress ρ σ)
    {step : Step κ ρ} {name : String} (ne : name ≠ step.name) :
    (env.preflight progress step).ledger.result name = progress.ledger.result name := by
  unfold preflight
  split
  · exact result_finish_of_ne env _ _ _ ne
  · rfl

theorem result_preflight_self (env : Environment κ ρ σ) {step : Step κ ρ}
    (present : step.name ∈ progress.ledger.recorded) :
    (env.preflight progress step).ledger.result step.name =
      checked step (env.now progress.world) (progress.ledger.result step.name) := by
  cases invalid : step.invalid with
  | none => simp only [preflight, checked, invalid]
  | some error =>
      simp only [preflight, checked, invalid]
      exact result_finish_self env _ _ present

theorem foldl_preflight_eq (env : Environment κ ρ σ) (steps : List (Step κ ρ))
    (progress : Progress ρ σ) :
    (steps.foldl env.preflight progress).inFlight = progress.inFlight
      ∧ (steps.foldl env.preflight progress).dispatched = progress.dispatched
      ∧ (steps.foldl env.preflight progress).stopped = progress.stopped
      ∧ (steps.foldl env.preflight progress).ledger.recorded =
          progress.ledger.recorded := by
  induction steps generalizing progress with
  | nil => exact ⟨rfl, rfl, rfl, rfl⟩
  | cons step rest ih =>
      obtain ⟨inFlight, dispatched, stopped, recorded⟩ := ih (env.preflight progress step)
      obtain ⟨inFlight', dispatched', stopped', recorded'⟩ := preflight_eq env progress step
      exact ⟨inFlight.trans inFlight', dispatched.trans dispatched', stopped.trans stopped',
        recorded.trans recorded'⟩

theorem result_foldl_preflight_of_not_mem (env : Environment κ ρ σ)
    {steps : List (Step κ ρ)} (progress : Progress ρ σ) {name : String}
    (absent : name ∉ steps.map (·.name)) :
    (steps.foldl env.preflight progress).ledger.result name =
      progress.ledger.result name := by
  induction steps generalizing progress with
  | nil => rfl
  | cons step rest ih =>
      simp only [List.map_cons, List.mem_cons, not_or] at absent
      rw [List.foldl_cons, ih _ absent.2, result_preflight_of_ne env _ absent.1]

theorem result_foldl_preflight (env : Environment κ ρ σ) {steps : List (Step κ ρ)}
    (nodup : (steps.map (·.name)).Nodup) {step : Step κ ρ} (member : step ∈ steps)
    (present : step.name ∈ progress.ledger.recorded) :
    ∃ moment, (steps.foldl env.preflight progress).ledger.result step.name =
      checked step moment (progress.ledger.result step.name) := by
  induction steps generalizing progress with
  | nil => simp at member
  | cons first rest ih =>
      obtain ⟨distinct, nodup⟩ := List.nodup_cons.mp nodup
      rw [List.foldl_cons]
      rcases List.mem_cons.mp member with rfl | later
      · refine ⟨env.now progress.world, ?_⟩
        rw [result_foldl_preflight_of_not_mem env _ distinct,
          result_preflight_self env present]
      · have ne : step.name ≠ first.name := by
          intro same
          exact distinct (List.mem_map.mpr ⟨step, later, same⟩)
        rw [← result_preflight_of_ne env progress ne]
        refine ih nodup later ?_
        rw [(preflight_eq env progress first).2.2.2]
        exact present

/-- The run as it stands at the top of the loop for the first time. -/
def entry (env : Environment κ ρ σ) (graph : StepGraph κ ρ) (register : Register ρ)
    (world : σ) : Progress ρ σ :=
  env.begin graph (opening graph register world)

theorem recorded_opening (wellFormed : graph.WellFormed) (register : Register ρ)
    (world : σ) :
    (opening graph register world).ledger.recorded = graph.names := by
  simp [opening, Ledger.recorded, Function.comp_def,
    StepGraph.distinctNames_eq_names wellFormed]

theorem result_opening (graph : StepGraph κ ρ) (register : Register ρ) (world : σ)
    (name : String) : (opening graph register world).ledger.result name = { name } := by
  have named := Ledger.name_result (opening graph register world).ledger name
  cases found : (opening graph register world).ledger.result? name with
  | none => simp [Ledger.result, found]
  | some result =>
      obtain ⟨other, _, rfl⟩ := List.mem_map.mp (List.mem_of_find?_eq_some found)
      simp only [Ledger.result, found, Option.getD_some] at named ⊢
      rw [named]

theorem entry_eq (env : Environment κ ρ σ) (wellFormed : graph.WellFormed)
    (register : Register ρ) (world : σ) :
    (env.entry graph register world).inFlight = []
      ∧ (env.entry graph register world).dispatched = []
      ∧ (env.entry graph register world).stopped = false
      ∧ (env.entry graph register world).ledger.recorded = graph.names := by
  obtain ⟨inFlight, dispatched, stopped, recorded⟩ :=
    foldl_preflight_eq env graph.orderedSteps
    (env.tell (.pipelineStart graph.names) (opening graph register world))
  exact ⟨inFlight, dispatched, stopped, recorded.trans
    (recorded_opening wellFormed register world)⟩

theorem result_entry (env : Environment κ ρ σ) (wellFormed : graph.WellFormed)
    (register : Register ρ) (world : σ) {step : Step κ ρ}
    (ordered : step ∈ graph.orderedSteps) :
    ∃ moment, (env.entry graph register world).ledger.result step.name =
      checked step moment { name := step.name } := by
  have present : step.name ∈
      (env.tell (.pipelineStart graph.names)
        (opening graph register world)).ledger.recorded := by
    rw [ledger_tell, recorded_opening wellFormed]
    exact name_mem_names wellFormed ordered
  obtain ⟨moment, result⟩ := result_foldl_preflight env
    (StepGraph.orderedSteps_nodup wellFormed) ordered present
  refine ⟨moment, ?_⟩
  rw [ledger_tell, result_opening] at result
  exact result

theorem result_entry_of_not_mem (env : Environment κ ρ σ) (wellFormed : graph.WellFormed)
    (register : Register ρ) (world : σ) {name : String} (absent : name ∉ graph.order) :
    (env.entry graph register world).ledger.result name = { name } := by
  rw [← StepGraph.names_orderedSteps wellFormed] at absent
  rw [entry, begin, result_foldl_preflight_of_not_mem env _ absent, ledger_tell,
    result_opening]

/-- At the start a step is failed or pending, and failed exactly if it is invalid. -/
theorem state_entry (env : Environment κ ρ σ) (wellFormed : graph.WellFormed)
    (register : Register ρ) (world : σ) (name : String) :
    (env.entry graph register world).ledger.state name = .pending
      ∨ (env.entry graph register world).ledger.state name = .failed := by
  by_cases ordered : name ∈ graph.order
  · rw [← StepGraph.names_orderedSteps wellFormed] at ordered
    obtain ⟨step, member, rfl⟩ := List.mem_map.mp ordered
    obtain ⟨moment, result⟩ := result_entry env wellFormed register world member
    rw [Ledger.state, result, checked]
    split
    · exact Or.inl rfl
    · exact Or.inr rfl
  · rw [Ledger.state, result_entry_of_not_mem env wellFormed register world ordered]
    exact Or.inl rfl

theorem orderly_entry (env : Environment κ ρ σ) (wellFormed : graph.WellFormed)
    (parallelism : Nat) (register : Register ρ) (world : σ) :
    Orderly graph parallelism (env.entry graph register world) := by
  obtain ⟨inFlight, dispatched, _, recorded⟩ := entry_eq env wellFormed register world
  refine
    { recorded
      running_iff := ?_
      inFlight_nodup := by simp [inFlight]
      room := by simp [inFlight]
      dispatched_nodup := by simp [dispatched]
      started := by simp [dispatched]
      launched := by simp [inFlight]
      free := ?_
      rejected := ?_ }
  · intro name
    rcases state_entry env wellFormed register world name with state | state <;>
      simp [state, inFlight]
  · intro name reached
    rcases state_entry env wellFormed register world name with state | state <;>
      simp [state, dispatched] at reached
  · intro step ordered invalid
    obtain ⟨moment, result⟩ := result_entry env wellFormed register world ordered
    refine ⟨?_, by simp [dispatched]⟩
    rw [Ledger.state, result, checked]
    split
    · contradiction
    · rfl

section Aside

variable {α : Type} {view : σ → α}
  (aside : ∀ ledger event world, view (env.hook ledger event world).2 = view world)

include aside

theorem view_preflight (steps : List (Step κ ρ)) (progress : Progress ρ σ) :
    view (steps.foldl env.preflight progress).world = view progress.world := by
  induction steps generalizing progress with
  | nil => rfl
  | cons step rest ih =>
      rw [List.foldl_cons, ih, preflight]
      split
      · exact view_finish aside _ _ _ _
      · rfl

theorem view_entry (graph : StepGraph κ ρ) (register : Register ρ) (world : σ) :
    view (env.entry graph register world).world = view world :=
  (view_preflight aside _ _).trans (aside _ _ _)

end Aside

end Environment

end BuildPipeline
