import BuildPipeline.Proofs.Execution.Entry
import BuildPipeline.Proofs.Execution.Turn
import BuildPipeline.Proofs.Graph.Coverage

namespace BuildPipeline

variable {κ ρ σ : Type}

namespace Environment

variable {env : Environment κ ρ σ} {graph : StepGraph κ ρ} {parallelism : Nat}
  {first progress next : Progress ρ σ} {action : Action κ ρ} {name : String}

theorem mem_distinctNames : name ∈ graph.distinctNames ↔ name ∈ graph.names :=
  List.mem_eraseDups

theorem present_of_anchored (anchored : graph.Anchored) :
    ∀ step ∈ graph.orderedSteps, step.name ∈ graph.distinctNames :=
  fun _ ordered => mem_distinctNames.mpr (StepGraph.mem_orderedSteps_name anchored ordered)

def IsUnsaid (progress : Progress ρ σ) (name : String) : Prop :=
  (progress.ledger.state name).isTerminal = false →
    (progress.ledger.result name).reason = "" ∧ (progress.ledger.result name).category = ""

theorem isUnsaid_acts (tidy : Tidy graph.distinctNames progress) (anchored : graph.Anchored)
    (acts : env.Acts graph parallelism action progress next)
    (unsaid : IsUnsaid progress name) :
    IsUnsaid next name := by
  have present : ∀ step ∈ graph.orderedSteps, step.name ∈ progress.ledger.recorded :=
    tidy.recorded ▸ present_of_anchored anchored
  by_cases subject : action.subject? = some name
  · have before := unsaid (tidy.isTerminal_subject acts subject)
    cases acts with
    | stop | pause => cases subject
    | ready ordered =>
        cases subject
        intro _
        rw [Ledger.result_ready_self (present _ ordered)]
        exact before
    | start ordered =>
        cases subject
        intro _
        rw [result_start_self env (present _ ordered)]
        exact before
    | skip ordered | sweep ordered =>
        cases subject
        intro waiting
        rw [Ledger.state, result_finish_self env _ _ (present _ ordered)] at waiting
        cases waiting
    | @land _ completion flying =>
        cases subject
        intro waiting
        have recorded : completion.name ∈ progress.ledger.recorded :=
          tidy.recorded ▸ tidy.mem_names_of_flying flying
        obtain ⟨moment, self⟩ := result_record_self env flying recorded
        rw [Ledger.state, self, StepResult.state_ended] at waiting
        cases outcome : completion.outcome <;>
          simp [outcome, stateOf, StepState.isTerminal] at waiting
  · have same := acts.result_of_ne subject
    rw [IsUnsaid, Ledger.state, same]
    exact unsaid

/-- What every point of the loop has in common. -/
structure UnderWay (graph : StepGraph κ ρ) (progress : Progress ρ σ) : Prop where
  tidy : Tidy graph.distinctNames progress
  unsaid : ∀ name, IsUnsaid progress name

namespace UnderWay

theorem present (underWay : UnderWay graph progress) (anchored : graph.Anchored)
    {step : Step κ ρ} (ordered : step ∈ graph.orderedSteps) :
    step.name ∈ progress.ledger.recorded :=
  underWay.tidy.recorded ▸ present_of_anchored anchored step ordered

theorem acts (underWay : UnderWay graph progress) (anchored : graph.Anchored)
    (acts : env.Acts graph parallelism action progress next) : UnderWay graph next where
  tidy := underWay.tidy.acts (present_of_anchored anchored) acts
  unsaid name := isUnsaid_acts underWay.tidy anchored acts (underWay.unsaid name)

theorem reaches {allowed : Action κ ρ → Prop} (underWay : UnderWay graph first)
    (anchored : graph.Anchored)
    (reaches : env.Reaches graph parallelism allowed first progress) :
    UnderWay graph progress :=
  reaches.preserves (UnderWay graph) (fun _ acts underWay =>
    underWay.acts anchored acts) underWay

theorem preserves {allowed : Action κ ρ → Prop} (underWay : UnderWay graph first)
    (anchored : graph.Anchored)
    (reaches : env.Reaches graph parallelism allowed first progress)
    (holds : Progress ρ σ → Prop)
    (step : ∀ {action progress next}, allowed action → UnderWay graph progress →
      env.Acts graph parallelism action progress next → holds progress → holds next)
    (start : holds first) : holds progress :=
  (reaches.preserves (fun later => UnderWay graph later ∧ holds later)
    (fun permitted acts kept =>
      ⟨kept.1.acts anchored acts, step permitted kept.1 acts kept.2⟩) ⟨underWay, start⟩).2

end UnderWay

theorem finish_failed_cases (env : Environment κ ρ σ) (subject : String)
    (error : Option Error) (progress : Progress ρ σ) (name : String) :
    (env.finish subject .failed error progress).ledger.result name =
      progress.ledger.result name
      ∨ (env.finish subject .failed error progress).ledger.state name = .failed := by
  by_cases here : name = subject
  · subst here
    by_cases present : name ∈ progress.ledger.recorded
    · exact Or.inr (congrArg StepResult.state (result_finish_self env _ _ present))
    · left
      rw [Ledger.result_of_not_mem present, Ledger.result_of_not_mem
        (by simpa using present)]
  · exact Or.inl (result_finish_of_ne env _ _ _ here)

theorem preflight_cases (env : Environment κ ρ σ) (steps : List (Step κ ρ))
    (progress : Progress ρ σ) (name : String) :
    (steps.foldl env.preflight progress).ledger.result name = progress.ledger.result name
      ∨ (steps.foldl env.preflight progress).ledger.state name = .failed := by
  induction steps generalizing progress with
  | nil => exact Or.inl rfl
  | cons step rest ih =>
      rw [List.foldl_cons]
      have checked : (env.preflight progress step).ledger.result name =
          progress.ledger.result name
          ∨ (env.preflight progress step).ledger.state name = .failed := by
        unfold preflight
        split
        · exact finish_failed_cases env _ _ progress name
        · exact Or.inl rfl
      rcases ih (env.preflight progress step) with same | failed
      · rw [Ledger.state, same]
        exact checked
      · exact Or.inr failed

theorem entry_cases (env : Environment κ ρ σ) (graph : StepGraph κ ρ)
    (register : Register ρ) (world : σ) (name : String) :
    (env.entry graph register world).ledger.result name = { name }
      ∨ (env.entry graph register world).ledger.state name = .failed := by
  have checked := preflight_cases env graph.orderedSteps
    (env.tell (.pipelineStart graph.names) (opening graph register world)) name
  rwa [ledger_tell, result_opening] at checked

theorem entry_fresh (env : Environment κ ρ σ) (graph : StepGraph κ ρ)
    (register : Register ρ) (world : σ) :
    (env.entry graph register world).inFlight = []
      ∧ (env.entry graph register world).dispatched = []
      ∧ (env.entry graph register world).stopped = false
      ∧ (env.entry graph register world).ledger.recorded = graph.distinctNames := by
  obtain ⟨inFlight, dispatched, stopped, recorded⟩ :=
    foldl_preflight_eq env graph.orderedSteps
    (env.tell (.pipelineStart graph.names) (opening graph register world))
  refine ⟨inFlight, dispatched, stopped, recorded.trans ?_⟩
  simp [opening, Ledger.recorded, Function.comp_def]

theorem underWay_entry (env : Environment κ ρ σ) (graph : StepGraph κ ρ)
    (register : Register ρ) (world : σ) :
    UnderWay graph (env.entry graph register world) := by
  obtain ⟨inFlight, dispatched, _, recorded⟩ := entry_fresh env graph register world
  refine
    { tidy :=
        { recorded
          running_iff := fun name => ?_
          inFlight_nodup := by simp [inFlight]
          started := by simp [dispatched]
          launched := by simp [inFlight] }
      unsaid := fun name waiting => ?_ }
  · rcases entry_cases env graph register world name with blank | failed
    · simp [Ledger.state, blank, inFlight]
    · simp [failed, inFlight]
  · rcases entry_cases env graph register world name with blank | failed
    · simp [blank]
    · rw [failed] at waiting
      cases waiting

theorem fill_launches (env : Environment κ ρ σ) (steps : List (Step κ ρ))
    (running : progress.stopped = false)
    (ready : ∀ step ∈ steps, step ∈ graph.orderedSteps
      ∧ (isReady graph progress.ledger step = true ∨ step.name ∈ progress.dispatched)) :
    env.Reaches graph parallelism IsLaunch progress
      (env.fill parallelism steps progress).2 := by
  induction steps generalizing progress with
  | nil => exact .refl progress
  | cons step rest ih =>
      obtain ⟨ordered, own⟩ := ready step List.mem_cons_self
      rw [fill]
      by_cases room : progress.inFlight.length < parallelism
      · rw [if_pos room]
        by_cases again : step.name ∈ progress.dispatched
        · rw [if_pos again]
          exact .refl progress
        · rw [if_neg again]
          have hready := own.resolve_right again
          have acts : env.Acts graph parallelism (.start step) progress
              (env.start progress step) :=
            .start ordered running hready room
          refine (Reaches.single acts trivial).trans (ih running fun other member => ?_)
          obtain ⟨hother, still | old⟩ := ready other (List.mem_cons_of_mem _ member)
          · refine ⟨hother, ?_⟩
            by_cases same : other.name = step.name
            · exact Or.inr (by simp [same])
            · exact Or.inl (isReady_started env hready same still)
          · exact ⟨hother, Or.inr (by simp [old])⟩
      · rw [if_neg room]
        exact .refl progress

theorem startReady_launches (env : Environment κ ρ σ) (parallelism : Nat)
    (anchored : graph.Anchored) (underWay : UnderWay graph progress) :
    env.Reaches graph parallelism IsLaunch progress
      (env.startReady graph parallelism progress).2 := by
  by_cases stopped : progress.stopped = true
  · rw [startReady, if_pos stopped]
    exact .refl progress
  · obtain ⟨marked, eq, marking, _, running, ready⟩ := startReady_marks env parallelism
      (fun _ ordered => underWay.present anchored ordered) (by simpa using stopped)
    rw [eq]
    refine (marking.weaken fun _ => IsMark.isLaunch).trans
      (fill_launches env _ running fun step member => ?_)
    exact ⟨(ready step member).1, Or.inl (ready step member).2⟩

theorem waiting_decides (env : Environment κ ρ σ) (parallelism : Nat)
    (anchored : graph.Anchored) (underWay : UnderWay graph progress) :
    env.Reaches graph parallelism IsDecision progress
      (env.waiting graph parallelism progress) := by
  have skipping := propagateSkips_reaches env graph parallelism progress
  have halting := noticeCancellation_reaches env graph parallelism
    (env.propagateSkips graph progress)
  have launching := startReady_launches env parallelism anchored
    ((underWay.reaches anchored skipping).reaches anchored halting)
  exact (skipping.weaken fun _ => Or.inl).trans
    ((halting.weaken fun _ halt => Or.inr (Or.inl halt)).trans
      (launching.weaken fun _ launch => Or.inr (Or.inr launch)))

def IsReturn : Action κ ρ → Prop
  | .pause | .land _ => True
  | _ => False

def InLoop (action : Action κ ρ) : Prop :=
  IsDecision action ∨ IsReturn action

theorem IsEnding.isReturn {completions : List Completion}
    (ending : IsEnding completions action) :
    IsReturn action := by
  cases action with
  | pause | land => trivial
  | skip | stop | sweep | ready | start => cases ending

theorem turn_reaches (env : Environment κ ρ σ) (parallelism : Nat)
    (anchored : graph.Anchored) (underWay : UnderWay graph progress) :
    env.Reaches graph parallelism InLoop progress
      (env.turn graph parallelism progress).2 := by
  have waits : env.Reaches graph parallelism InLoop progress
      (env.waiting graph parallelism progress) :=
    (waiting_decides env parallelism anchored underWay).weaken fun _ => .inl
  rcases turn_cases env graph parallelism progress with ⟨_, eq⟩ | ⟨_, eq⟩ | ⟨flying, eq⟩
  · rw [eq]
    exact waits
  · rw [eq]
    exact waits
  · rw [eq]
    exact waits.trans ((collect_reaches env graph parallelism flying).weaken
      fun _ ending => .inr ending.isReturn)

theorem drain_passes (env : Environment κ ρ σ) (parallelism : Nat)
    (anchored : graph.Anchored) (underWay : UnderWay graph progress) (turns : Nat) :
    env.Reaches graph parallelism InLoop progress
      (env.drain graph parallelism turns progress).2 := by
  induction turns generalizing progress with
  | zero => exact .refl progress
  | succ turns ih =>
      have reaches := turn_reaches env parallelism anchored underWay
      rw [drain]
      rcases taken : env.turn graph parallelism progress with ⟨_ | _ | failure, stand⟩
      · rw [taken] at reaches
        exact reaches.trans (ih (underWay.reaches anchored reaches))
      · rw [taken] at reaches
        exact reaches
      · rw [taken] at reaches
        exact reaches

theorem top_reaches {register : Register ρ} {world : σ} {turns : Nat}
    (anchored : graph.Anchored)
    (again : env.drain graph parallelism turns (env.entry graph register world) =
      (.again, progress)) :
    env.Reaches graph parallelism InLoop (env.entry graph register world) progress := by
  have passes :=
    drain_passes env parallelism anchored (underWay_entry env graph register world) turns
  rwa [again] at passes

theorem underWay_top {register : Register ρ} {world : σ} {turns : Nat}
    (anchored : graph.Anchored)
    (again : env.drain graph parallelism turns (env.entry graph register world) =
      (.again, progress)) : UnderWay graph progress :=
  (underWay_entry env graph register world).reaches anchored (top_reaches anchored again)

end Environment

end BuildPipeline
