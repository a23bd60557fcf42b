import BuildPipeline.Proofs.Execution.Course
import BuildPipeline.Proofs.Execution.Passage
import BuildPipeline.Proofs.Execution.Publication

namespace BuildPipeline

variable {κ ρ σ : Type}

namespace Environment

variable {env : Environment κ ρ σ} {graph : StepGraph κ ρ} {parallelism : Nat}
  {first progress next : Progress ρ σ} {action : Action κ ρ} {allowed : Action κ ρ → Prop}
  {name : String}

/-- What flies goes on flying until it lands, and then its own outcome is on record for
good. -/
structure Landed (progress : Progress ρ σ) (completion : Completion) : Prop where
  verdict : (progress.ledger.result completion.name).verdict = .ofOutcome completion.outcome
  marked : completion.outcome = .ok () →
    completion.name ∈ progress.ledger.register.succeeded

theorem Landed.state_eq {completion : Completion} (landed : Landed progress completion) :
    progress.ledger.state completion.name = stateOf completion.outcome :=
  (congrArg Verdict.state landed.verdict).trans (Verdict.state_ofOutcome _)

theorem register_grows (acts : env.Acts graph parallelism action progress next) :
    progress.ledger.register.succeeded ⊆ next.ledger.register.succeeded
      ∧ next.ledger.register.declared = progress.ledger.register.declared := by
  by_cases lands : ∃ name, action = .land ⟨name, .ok ()⟩
  · obtain ⟨landed, rfl⟩ := lands
    cases acts with
    | land flying =>
        rw [register_record_ok flying]
        exact ⟨List.subset_cons_self _ _, rfl⟩
  · rw [not_exists] at lands
    rw [register_of_acts acts lands]
    exact ⟨fun _ => id, rfl⟩

theorem declared_of_reaches
    (reaches : env.Reaches graph parallelism allowed first progress) :
    progress.ledger.register.declared = first.ledger.register.declared :=
  reaches.preserves
    (fun later => later.ledger.register.declared = first.ledger.register.declared)
    (fun _ acts same => (register_grows acts).2.trans same) rfl

namespace UnderWay

theorem landed_record (underWay : UnderWay graph progress) {completion : Completion}
    (flying : completion.name ∈ progress.inFlight) :
    Landed (env.record progress completion) completion := by
  have recorded : completion.name ∈ progress.ledger.recorded :=
    underWay.tidy.recorded ▸ underWay.tidy.mem_names_of_flying flying
  have running := (underWay.tidy.running_iff _).mpr flying
  obtain ⟨moment, self⟩ := result_record_self env flying recorded
  refine ⟨?_, fun succeeded => ?_⟩
  · rw [self]
    exact StepResult.verdict_landed
      (underWay.unsaid _ (by simp [running, StepState.isTerminal])) moment _
  · obtain ⟨name, outcome⟩ := completion
    cases succeeded
    rw [register_record_ok flying]
    exact List.mem_cons_self

theorem landed_acts (underWay : UnderWay graph progress)
    (acts : env.Acts graph parallelism action progress next) {completion : Completion}
    (landed : Landed progress completion) : Landed next completion := by
  have terminal : (progress.ledger.state completion.name).isTerminal = true := by
    rw [landed.state_eq]
    cases completion.outcome <;> rfl
  refine ⟨?_, fun succeeded => (register_grows acts).1 (landed.marked succeeded)⟩
  rw [underWay.tidy.result_of_isTerminal acts terminal]
  exact landed.verdict

theorem flies_or_landed (underWay : UnderWay graph progress)
    (acts : env.Acts graph parallelism action progress next)
    (flying : name ∈ progress.inFlight) :
    name ∈ next.inFlight
      ∨ ∃ completion, action = .land completion ∧ completion.name = name
        ∧ Landed next completion := by
  cases acts with
  | skip | stop | sweep | ready | pause => exact .inl flying
  | start => exact .inl (List.mem_append_left _ flying)
  | @land _ completion aloft =>
      by_cases here : completion.name = name
      · exact .inr ⟨completion, rfl, here, underWay.landed_record aloft⟩
      · left
        rw [inFlight_record env aloft]
        exact (List.mem_erase_of_ne (Ne.symm here)).mpr flying

theorem flies_or_landed_of_reaches (underWay : UnderWay graph first)
    (anchored : graph.Anchored)
    (reaches : env.Reaches graph parallelism allowed first progress)
    (flying : name ∈ first.inFlight) :
    name ∈ progress.inFlight
      ∨ ∃ completion, allowed (.land completion) ∧ completion.name = name
        ∧ Landed progress completion := by
  refine underWay.preserves anchored reaches (fun later => name ∈ later.inFlight
    ∨ ∃ completion, allowed (.land completion) ∧ completion.name = name
      ∧ Landed later completion) ?_ (.inl flying)
  rintro action before after permitted underWay acts
    (aloft | ⟨completion, own, same, landed⟩)
  · rcases underWay.flies_or_landed acts aloft with still | ⟨completion, rfl, same, landed⟩
    · exact .inl still
    · exact .inr ⟨completion, permitted, same, landed⟩
  · exact .inr ⟨completion, own, same, underWay.landed_acts acts landed⟩

theorem result_of_reaches (underWay : UnderWay graph first) (anchored : graph.Anchored)
    (reaches : env.Reaches graph parallelism allowed first progress)
    (terminal : (first.ledger.state name).isTerminal = true) :
    progress.ledger.result name = first.ledger.result name := by
  refine underWay.preserves anchored reaches
    (fun later => later.ledger.result name = first.ledger.result name) ?_ rfl
  intro action before after _ underWay acts same
  refine (underWay.tidy.result_of_isTerminal acts ?_).trans same
  rwa [Ledger.state, same]

theorem waits_or_left (underWay : UnderWay graph progress) (anchored : graph.Anchored)
    (acts : env.Acts graph parallelism action progress next)
    (waiting : (progress.ledger.state name).isWaiting = true) :
    (next.ledger.state name).isWaiting = true ∨ next.ledger.state name = .skipped
      ∨ name ∈ next.dispatched := by
  by_cases subject : action.subject? = some name
  · cases underWay.tidy.change (present_of_anchored anchored) acts subject with
    | skipped _ _ _ state => exact .inr (.inl state)
    | readied _ _ _ _ state => exact .inl (by simp [state])
    | begun _ _ _ _ dispatched => exact .inr (.inr (by simp [dispatched]))
    | landed flying =>
        rw [(underWay.tidy.running_iff name).mpr flying] at waiting
        cases waiting
  · rw [acts.state_of_ne subject]
    exact .inl waiting

theorem waits_or_left_of_reaches (underWay : UnderWay graph first)
    (anchored : graph.Anchored)
    (reaches : env.Reaches graph parallelism allowed first progress)
    (waiting : (first.ledger.state name).isWaiting = true) :
    (progress.ledger.state name).isWaiting = true ∨ progress.ledger.state name = .skipped
      ∨ name ∈ progress.dispatched := by
  refine underWay.preserves anchored reaches (fun later =>
    (later.ledger.state name).isWaiting = true ∨ later.ledger.state name = .skipped
      ∨ name ∈ later.dispatched) ?_ (.inl waiting)
  rintro action before after - underWay acts (waits | skipped | started)
  · exact underWay.waits_or_left anchored acts waits
  · right; left
    rw [underWay.tidy.state_of_isTerminal acts
      (by simp [skipped, StepState.isTerminal]), skipped]
  · exact .inr (.inr (acts.dispatched ▸ List.mem_append_right _ started))

end UnderWay

theorem Reaches.unstarted (reaches : env.Reaches graph parallelism allowed first progress)
    (still : ∀ action, allowed action → action.started? = none) :
    progress.dispatched = first.dispatched
      ∧ ∀ log, env.Logs log → log progress.world = log first.world := by
  obtain ⟨actions, trace, each⟩ := reaches
  have none_started : actions.filterMap Action.started? = [] :=
    List.filterMap_eq_nil_iff.mpr fun action member => still action (each action member)
  refine ⟨?_, fun log logs => ?_⟩
  · rw [trace.dispatched, none_started]
    rfl
  · rw [logs.trace trace, none_started]
    rfl

end Environment

end BuildPipeline
