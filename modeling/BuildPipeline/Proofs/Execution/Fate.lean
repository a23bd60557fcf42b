import BuildPipeline.Proofs.Execution.Entry

namespace BuildPipeline

variable {κ ρ σ : Type}

/-- What the record of a step says apart from its times. -/
structure Verdict where
  state : StepState
  reason : String := ""
  category : String := ""
deriving DecidableEq, Repr

def StepResult.verdict (result : StepResult) : Verdict :=
  { state := result.state, reason := result.reason, category := result.category }

namespace Verdict

def ofError (error : Error) : Verdict where
  state := .failed
  reason := error.fullReason
  category :=
    if error.fullReason = Reason.cancelled then Category.cancelled.name
    else error.category.name

def ofOutcome : Except Error Unit → Verdict
  | .ok _ => { state := .succeeded }
  | .error error => ofError (Environment.failureOf error)

theorem state_ofOutcome (outcome : Except Error Unit) :
    (Verdict.ofOutcome outcome).state = Environment.stateOf outcome := by
  cases outcome <;> rfl

/-- A step that is invalid fails.  Any other is skipped unless all it depends on has
succeeded, and then ends as it does by itself. -/
def due (step : Step κ ρ) (outcome : Except Error Unit) (free : Bool) : Verdict :=
  match step.invalid with
  | some error => ofError (error.because Reason.validating)
  | none =>
      if free then ofOutcome outcome else { state := .skipped, reason := Reason.skipped }

theorem due_of_invalid {step : Step κ ρ} {error : Error}
    (invalid : step.invalid = some error) (outcome : Except Error Unit) (free : Bool) :
    due step outcome free = ofError (error.because Reason.validating) := by
  simp [due, invalid]

theorem due_of_free {step : Step κ ρ} (valid : step.invalid = none)
    (outcome : Except Error Unit) :
    due step outcome true = ofOutcome outcome := by
  simp [due, valid]

theorem due_of_blocked {step : Step κ ρ} (valid : step.invalid = none)
    (outcome : Except Error Unit) :
    due step outcome false = { state := .skipped, reason := Reason.skipped } := by
  simp [due, valid]

end Verdict

namespace StepGraph

variable {graph : StepGraph κ ρ}

def fate (graph : StepGraph κ ρ) (acyclic : graph.Acyclic)
    (outcome : String → Except Error Unit) (name : String) : Verdict :=
  match graph.step? name with
  | none => { state := .pending }
  | some step =>
      .due step (outcome name) ((graph.dependencies name).attach.all fun dependency =>
        (graph.fate acyclic outcome dependency.1).state == .succeeded)
termination_by acyclic.wellFounded.wrap name
decreasing_by exact mem_dependencies_iff_precedes.mp dependency.2

def spared (graph : StepGraph κ ρ) (acyclic : graph.Acyclic)
    (outcome : String → Except Error Unit) (name : String) : Bool :=
  (graph.dependencies name).all fun dependency =>
    (graph.fate acyclic outcome dependency).state == .succeeded

theorem spared_iff {acyclic : graph.Acyclic} {outcome : String → Except Error Unit}
    {name : String} :
    graph.spared acyclic outcome name = true
      ↔ ∀ before, graph.Precedes before name →
          (graph.fate acyclic outcome before).state = .succeeded := by
  simp [spared, mem_dependencies_iff_precedes]

theorem fate_eq_due (acyclic : graph.Acyclic) (outcome : String → Except Error Unit)
    {name : String} {step : Step κ ρ} (found : graph.step? name = some step) :
    graph.fate acyclic outcome name =
      .due step (outcome name) (graph.spared acyclic outcome name) := by
  rw [fate, found]
  simp [spared]

/-- The fate of a step is decided by itself and by what it depends on, however remotely.
In two graphs that agree about these a step has one fate, whatever is different or fails
elsewhere. -/
theorem fate_congr {other : StepGraph κ ρ} (acyclic : graph.Acyclic)
    (acyclic' : other.Acyclic) {outcome outcome' : String → Except Error Unit}
    {name : String}
    (alike : ∀ before, Relation.ReflTransGen graph.Precedes before name →
      (∀ earlier, other.Precedes earlier before ↔ graph.Precedes earlier before)
        ∧ (other.step? before).map (·.invalid) = (graph.step? before).map (·.invalid)
        ∧ outcome' before = outcome before) :
    other.fate acyclic' outcome' name = graph.fate acyclic outcome name := by
  induction name using acyclic.wellFounded.induction with
  | _ name ih =>
      obtain ⟨edges, invalid, own⟩ := alike name .refl
      have before : ∀ earlier, graph.Precedes earlier name →
          other.fate acyclic' outcome' earlier = graph.fate acyclic outcome earlier :=
        fun earlier edge => ih earlier edge fun remote path => alike remote (path.tail edge)
      have spared : other.spared acyclic' outcome' name =
          graph.spared acyclic outcome name := by
        rw [Bool.eq_iff_iff, spared_iff, spared_iff]
        refine forall_congr' fun earlier => ?_
        rw [edges]
        exact forall_congr' fun edge => by rw [before earlier edge]
      cases found : graph.step? name with
      | none =>
          have absent : other.step? name = none := by simpa [found] using invalid
          rw [fate, fate, found, absent]
      | some step =>
          rw [found, Option.map_some, Option.map_eq_some_iff] at invalid
          obtain ⟨counterpart, present, same⟩ := invalid
          rw [fate_eq_due acyclic outcome found,
            fate_eq_due acyclic' outcome' present, spared, own]
          simp only [Verdict.due, same]

end StepGraph

end BuildPipeline
