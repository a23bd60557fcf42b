import BuildPipeline.Proofs.Execution.Fate
import BuildPipeline.Proofs.Execution.Propagation
import BuildPipeline.Proofs.Execution.Turn

namespace BuildPipeline

variable {κ ρ σ : Type}

namespace Error

theorem fullReason_reasoned (reason message : String) :
    (ofFailure (.reasoned reason message)).fullReason = reason := by
  simp [fullReason, reasons, ofFailure, chain, walk, failures, at?, next?, Failure.reason?]

end Error

namespace StepResult

variable {result : StepResult}

theorem verdict_failed (result : StepResult) (moment : Instant) (error : Error) :
    (result.ended moment .failed (some error)).verdict = .ofError error := by
  simp [verdict, ended, tagged, categoryFor, Verdict.ofError]

theorem verdict_succeeded (blank : result.reason = "" ∧ result.category = "")
    (moment : Instant) :
    (result.ended moment .succeeded none).verdict = { state := .succeeded } := by
  simp [verdict, ended, tagged, blank.1, blank.2]

theorem verdict_skipped (blank : result.category = "") (moment : Instant) {reason : String}
    (uncancelled : reason ≠ Reason.cancelled) (message : String) :
    (result.ended moment .skipped
      (some (Error.ofFailure (.reasoned reason message)))).verdict =
      { state := .skipped, reason } := by
  simp [verdict, ended, tagged, categoryFor, Error.fullReason_reasoned, uncancelled, blank]

theorem verdict_landed (blank : result.reason = "" ∧ result.category = "")
    (moment : Instant) (outcome : Except Error Unit) :
    (result.ended moment (Environment.stateOf outcome)
      (Environment.errorOf? outcome)).verdict = .ofOutcome outcome := by
  cases outcome with
  | ok => exact verdict_succeeded blank moment
  | error error => exact verdict_failed _ moment _

end StepResult

namespace Environment

variable {env : Environment κ ρ σ} {graph : StepGraph κ ρ} {acyclic : graph.Acyclic}
  {outcome : String → Except Error Unit} {parallelism : Nat} {progress next : Progress ρ σ}

structure OnCourse (graph : StepGraph κ ρ) (acyclic : graph.Acyclic)
    (outcome : String → Except Error Unit) (parallelism : Nat) (progress : Progress ρ σ) :
    Prop where
  orderly : Orderly graph parallelism progress
  unstopped : progress.stopped = false
  ended : ∀ name, (progress.ledger.state name).isTerminal = true →
    (progress.ledger.result name).verdict = graph.fate acyclic outcome name
  blank : ∀ name, (progress.ledger.state name).isTerminal = false →
    (progress.ledger.result name).reason = "" ∧ (progress.ledger.result name).category = ""

def IsOrdinary (outcome : String → Except Error Unit) : Action κ ρ → Prop
  | .stop | .sweep _ _ => False
  | .land completion => completion.outcome = outcome completion.name
  | .skip _ | .ready _ | .start _ | .pause => True

namespace OnCourse

theorem state_fate (course : OnCourse graph acyclic outcome parallelism progress)
    {name : String} (terminal : (progress.ledger.state name).isTerminal = true) :
    (graph.fate acyclic outcome name).state = progress.ledger.state name := by
  rw [← course.ended name terminal]
  rfl

theorem spared_of_free (course : OnCourse graph acyclic outcome parallelism progress)
    {name : String}
    (free : ∀ dependency ∈ graph.dependencies name,
      progress.ledger.state dependency = .succeeded) :
    graph.spared acyclic outcome name = true := by
  refine StepGraph.spared_iff.mpr fun before edge => ?_
  have succeeded := free before (StepGraph.mem_dependencies_iff_precedes.mpr edge)
  rw [course.state_fate (by simp [succeeded, StepState.isTerminal]), succeeded]

theorem not_spared_of_blocked (course : OnCourse graph acyclic outcome parallelism progress)
    {name blocking : String} (edge : graph.Precedes blocking name)
    (blocks : (progress.ledger.state blocking).isBlocking = true) :
    graph.spared acyclic outcome name = false := by
  by_contra spared
  have succeeded := StepGraph.spared_iff.mp (by simpa using spared) blocking edge
  rcases StepState.isBlocking_eq_true.mp blocks with state | state <;>
    rw [course.state_fate (by simp [state, StepState.isTerminal]), state] at succeeded <;>
    cases succeeded

/-- A change of one record keeps the course if it leaves that record blank or as it has to
end. -/
theorem changed (course : OnCourse graph acyclic outcome parallelism progress)
    (orderly : Orderly graph parallelism next) (unstopped : next.stopped = false)
    {subject : String}
    (others : ∀ name, name ≠ subject →
      next.ledger.result name = progress.ledger.result name)
    (ended : (next.ledger.state subject).isTerminal = true →
      (next.ledger.result subject).verdict = graph.fate acyclic outcome subject)
    (blank : (next.ledger.state subject).isTerminal = false →
      (next.ledger.result subject).reason = ""
        ∧ (next.ledger.result subject).category = "") :
    OnCourse graph acyclic outcome parallelism next := by
  refine ⟨orderly, unstopped, fun name => ?_, fun name => ?_⟩
  · by_cases here : name = subject
    · exact here ▸ ended
    · rw [Ledger.state, others name here]
      exact course.ended name
  · by_cases here : name = subject
    · exact here ▸ blank
    · rw [Ledger.state, others name here]
      exact course.blank name

theorem skipped (course : OnCourse graph acyclic outcome parallelism progress)
    (wellFormed : graph.WellFormed) {step : Step κ ρ} (ordered : step ∈ graph.orderedSteps)
    (pending : progress.ledger.state step.name = .pending)
    (blocked : blockers graph progress.ledger step.name ≠ []) :
    OnCourse graph acyclic outcome parallelism
      (env.finish step.name .skipped
        (some (Error.ofFailure (blockedFailure graph progress.ledger step))) progress) := by
  have acts : env.Acts graph parallelism (.skip step) progress _ :=
    .skip ordered pending blocked
  obtain ⟨_, before, edge, blocks⟩ := isStuck_iff.mp ⟨pending, blocked⟩
  have present := course.orderly.present wellFormed ordered
  have found := (StepGraph.step?_eq_some_iff wellFormed).mpr
    ⟨((StepGraph.mem_orderedSteps_iff wellFormed).mp ordered).1, rfl⟩
  have valid := course.orderly.valid_of_isWaiting ordered (by simp [pending])
  have self := result_finish_self env .skipped
    (some (Error.ofFailure (blockedFailure graph progress.ledger step))) present
  refine course.changed (course.orderly.acts wellFormed acts) course.unstopped
    (fun name ne => result_finish_of_ne env _ _ _ ne) (fun _ => ?_) fun waiting => ?_
  · rw [self, blockedFailure, skippedBecause,
      StepResult.verdict_skipped
        (course.blank _ (by simp [pending, StepState.isTerminal])).2 _ (by decide),
      StepGraph.fate_eq_due acyclic outcome found, course.not_spared_of_blocked edge blocks,
      Verdict.due_of_blocked valid]
  · rw [Ledger.state, self] at waiting
    cases waiting

theorem landed (course : OnCourse graph acyclic outcome parallelism progress)
    (wellFormed : graph.WellFormed) {completion : Completion}
    (flying : completion.name ∈ progress.inFlight)
    (fixed : completion.outcome = outcome completion.name) :
    OnCourse graph acyclic outcome parallelism (env.record progress completion) := by
  have acts : env.Acts graph parallelism (.land completion) progress _ := .land flying
  have member := course.orderly.tidy.mem_names_of_flying flying
  have running := (course.orderly.running_iff _).mpr flying
  obtain ⟨step, found, named⟩ := StepGraph.step?_isSome wellFormed member
  have ordered : step ∈ graph.orderedSteps :=
    StepGraph.mem_orderedSteps_of_acyclic wellFormed acyclic
      ((StepGraph.step?_eq_some_iff wellFormed).mp found).1
  have valid : step.invalid = none := by
    by_contra invalid
    have failed := (course.orderly.rejected step ordered invalid).1
    rw [named, running] at failed
    cases failed
  have spared := course.spared_of_free
    (course.orderly.free _ (Or.inr (course.orderly.launched _ flying)))
  obtain ⟨moment, self⟩ := result_record_self env flying
    (by rw [course.orderly.recorded]; exact member)
  have terminal : (stateOf completion.outcome).isTerminal = true := by
    cases completion.outcome <;> rfl
  refine course.changed (course.orderly.acts wellFormed acts)
    ((stopped_record env _ _).trans course.unstopped)
    (fun name ne => result_record_of_ne env _ ne) (fun _ => ?_) fun waiting => ?_
  · rw [self,
      StepResult.verdict_landed (course.blank _ (by simp [running, StepState.isTerminal])),
      StepGraph.fate_eq_due acyclic outcome found, spared, Verdict.due_of_free valid, fixed]
  · rw [Ledger.state, self, StepResult.state_ended, terminal] at waiting
    cases waiting

theorem acts (course : OnCourse graph acyclic outcome parallelism progress)
    (wellFormed : graph.WellFormed) {action : Action κ ρ}
    (ordinary : IsOrdinary outcome action)
    (acts : env.Acts graph parallelism action progress next) :
    OnCourse graph acyclic outcome parallelism next := by
  have orderly := course.orderly.acts wellFormed acts
  cases acts with
  | stop | sweep => cases ordinary
  | skip ordered pending blocked => exact course.skipped wellFormed ordered pending blocked
  | @ready _ step ordered _ ready =>
      have present := course.orderly.present wellFormed ordered
      have waiting := StepState.isTerminal_of_isWaiting (isReady_iff.mp ready).1
      have self := Ledger.result_ready_self present
      refine course.changed orderly course.unstopped
        (fun name ne => Ledger.result_ready_of_ne _ ne) (fun terminal => ?_) fun _ => ?_
      · rw [Ledger.state, self] at terminal
        cases terminal
      · rw [self]
        exact course.blank _ waiting
  | @start _ step ordered _ ready _ =>
      have present := course.orderly.present wellFormed ordered
      have waiting := StepState.isTerminal_of_isWaiting (isReady_iff.mp ready).1
      have self := result_start_self env present
      refine course.changed orderly course.unstopped
        (fun name ne => result_start_of_ne env _ ne) (fun terminal => ?_) fun _ => ?_
      · rw [Ledger.state, self] at terminal
        cases terminal
      · rw [self]
        exact course.blank _ waiting
  | pause => exact ⟨orderly, course.unstopped, course.ended, course.blank⟩
  | land flying => exact course.landed wellFormed flying ordinary

theorem reaches (course : OnCourse graph acyclic outcome parallelism progress)
    (wellFormed : graph.WellFormed) {allowed : Action κ ρ → Prop}
    (reaches : env.Reaches graph parallelism allowed progress next)
    (ordinary : ∀ action, allowed action → IsOrdinary outcome action) :
    OnCourse graph acyclic outcome parallelism next :=
  reaches.preserves _
    (fun permitted acts course => course.acts wellFormed (ordinary _ permitted) acts) course

end OnCourse

theorem onCourse_entry (env : Environment κ ρ σ) (wellFormed : graph.WellFormed)
    (acyclic : graph.Acyclic) (outcome : String → Except Error Unit) (parallelism : Nat)
    (register : Register ρ) (world : σ) :
    OnCourse graph acyclic outcome parallelism (env.entry graph register world) := by
  have orderly := orderly_entry env wellFormed parallelism register world
  have known : ∀ name,
      ((env.entry graph register world).ledger.result name = { name })
        ∨ ((env.entry graph register world).ledger.result name).verdict =
            graph.fate acyclic outcome name
          ∧ (env.entry graph register world).ledger.state name = .failed := by
    intro name
    by_cases listed : name ∈ graph.order
    · rw [← StepGraph.names_orderedSteps wellFormed] at listed
      obtain ⟨step, ordered, rfl⟩ := List.mem_map.mp listed
      obtain ⟨moment, result⟩ := result_entry env wellFormed register world ordered
      have found := (StepGraph.step?_eq_some_iff wellFormed).mpr
        ⟨((StepGraph.mem_orderedSteps_iff wellFormed).mp ordered).1, rfl⟩
      rw [Ledger.state, result, checked]
      cases invalid : step.invalid with
      | none => exact Or.inl rfl
      | some error =>
          refine Or.inr ⟨?_, rfl⟩
          rw [StepGraph.fate_eq_due acyclic outcome found, Verdict.due_of_invalid invalid]
          exact StepResult.verdict_failed _ _ _
    · exact Or.inl (result_entry_of_not_mem env wellFormed register world listed)
  refine ⟨orderly, (entry_eq env wellFormed register world).2.2.1, fun name terminal => ?_,
    fun name waiting => ?_⟩
  · rcases known name with result | ⟨verdict, _⟩
    · rw [Ledger.state, result] at terminal
      cases terminal
    · exact verdict
  · rcases known name with result | ⟨_, failed⟩
    · rw [result]
      exact ⟨rfl, rfl⟩
    · rw [failed] at waiting
      cases waiting

end Environment

end BuildPipeline
