import BuildPipeline.Proofs.Execution.Outcome
import BuildPipeline.Proofs.Execution.Tracking

namespace BuildPipeline

variable {κ ρ σ : Type}

def Verdict.cancelled : Verdict where
  state := .skipped
  reason := Reason.cancelled
  category := Category.cancelled.name

theorem StepResult.verdict_cancelled (result : StepResult) (moment : Instant) :
    (result.ended moment .skipped
      (some (Error.ofFailure Environment.runCancelled))).verdict = .cancelled := by
  simp [verdict, ended, tagged, categoryFor, Environment.runCancelled,
    Error.fullReason_reasoned, Verdict.cancelled]

namespace Environment

variable {env : Environment κ ρ σ} {graph : StepGraph κ ρ} {parallelism : Nat}
  {first top progress next : Progress ρ σ} {action : Action κ ρ}
  {allowed : Action κ ρ → Prop} {name : String}

/-- The coordinator has seen the cancellation and has given up all that waited. -/
structure Halted (graph : StepGraph κ ρ) (progress : Progress ρ σ) : Prop where
  stopped : progress.stopped = true
  idle : ∀ step ∈ graph.orderedSteps, (progress.ledger.state step.name).isWaiting = false

namespace Halted

theorem isReturn (halted : Halted graph progress)
    (acts : env.Acts graph parallelism action progress next) : IsReturn action := by
  cases acts with
  | pause | land => trivial
  | skip ordered pending =>
      have idle := halted.idle _ ordered
      rw [pending] at idle
      cases idle
  | sweep ordered waiting =>
      rw [halted.idle _ ordered] at waiting
      cases waiting
  | stop running | ready _ running | start _ running =>
      rw [halted.stopped] at running
      cases running

theorem acts (halted : Halted graph progress) (underWay : UnderWay graph progress)
    (anchored : graph.Anchored) (acts : env.Acts graph parallelism action progress next) :
    Halted graph next := by
  have returns := halted.isReturn acts
  refine ⟨?_, fun step ordered => ?_⟩
  · cases acts with
    | pause => exact halted.stopped
    | land => exact (stopped_record env _ _).trans halted.stopped
    | skip | stop | sweep | ready | start => cases returns
  · by_cases subject : action.subject? = some step.name
    · cases underWay.tidy.change (present_of_anchored anchored) acts subject with
      | skipped waiting | readied waiting | begun waiting =>
          rw [halted.idle step ordered] at waiting
          cases waiting
      | landed _ _ _ state => rcases state with state | state <;> rw [state] <;> rfl
    · rw [acts.state_of_ne subject]
      exact halted.idle step ordered

theorem reaches (halted : Halted graph first) (underWay : UnderWay graph first)
    (anchored : graph.Anchored)
    (reaches : env.Reaches graph parallelism allowed first progress) :
    Halted graph progress :=
  underWay.preserves anchored reaches (Halted graph)
    (fun _ underWay acts halted => halted.acts underWay anchored acts) halted

theorem eq_of_reaches (halted : Halted graph first)
    (reaches : env.Reaches graph parallelism allowed first progress)
    (still : ∀ action, allowed action → ¬ IsReturn action) : progress = first := by
  refine reaches.preserves (· = first) ?_ rfl
  rintro action before after permitted acts rfl
  exact absurd (halted.isReturn acts) (still action permitted)

theorem waiting_eq (halted : Halted graph progress) (underWay : UnderWay graph progress)
    (anchored : graph.Anchored) : env.waiting graph parallelism progress = progress := by
  refine halted.eq_of_reaches (waiting_decides env parallelism anchored underWay) ?_
  rintro action (skip | halt | launch) returns <;> cases action <;> trivial

theorem notice_eq (halted : Halted graph progress) :
    env.noticeCancellation graph (env.propagateSkips graph progress) = progress := by
  have propagated : env.propagateSkips graph progress = progress := by
    refine halted.eq_of_reaches (propagateSkips_reaches env graph 0 progress) ?_
    intro action skip returns
    cases action <;> trivial
  rw [propagated]
  refine halted.eq_of_reaches (noticeCancellation_reaches env graph 0 progress) ?_
  intro action halt returns
  cases action <;> trivial

theorem stopped_notice (halted : Halted graph progress) :
    (env.noticeCancellation graph (env.propagateSkips graph progress)).stopped = true := by
  rw [halted.notice_eq]
  exact halted.stopped

end Halted

/-- The first top of the loop at which the cancellation is seen. -/
structure Sees (env : Environment κ ρ σ) (graph : StepGraph κ ρ) (top : Progress ρ σ) :
    Prop where
  running : top.stopped = false
  cancelled : env.cancelled (env.propagateSkips graph top).world = true

theorem skipIfWaiting_idle_self (env : Environment κ ρ σ) (failure : Failure)
    {step : Step κ ρ} (present : step.name ∈ progress.ledger.recorded) :
    ((env.skipIfWaiting failure progress step).ledger.state step.name).isWaiting =
      false := by
  unfold skipIfWaiting
  split
  · rw [Ledger.state, result_finish_self env _ _ present]
    rfl
  · rename_i idle
    exact Bool.eq_false_iff.mpr idle

theorem skipIfWaiting_idle (env : Environment κ ρ σ) (failure : Failure) (step : Step κ ρ)
    (idle : (progress.ledger.state name).isWaiting = false) :
    ((env.skipIfWaiting failure progress step).ledger.state name).isWaiting = false := by
  unfold skipIfWaiting
  split
  · rename_i waiting
    have other : name ≠ step.name := by
      rintro rfl
      rw [idle] at waiting
      cases waiting
    rw [Ledger.state, result_finish_of_ne env _ _ _ other]
    exact idle
  · exact idle

theorem foldl_skipIfWaiting_idle {failure : Failure} {steps : List (Step κ ρ)}
    (present : ∀ step ∈ steps, step.name ∈ progress.ledger.recorded)
    (idle : name ∈ steps.map (·.name) ∨ (progress.ledger.state name).isWaiting = false) :
    ((steps.foldl (env.skipIfWaiting failure) progress).ledger.state name).isWaiting =
      false := by
  induction steps generalizing progress with
  | nil => exact idle.resolve_left (by simp)
  | cons step rest ih =>
      obtain ⟨own, later⟩ := List.forall_mem_cons.mp present
      have recorded : (env.skipIfWaiting failure progress step).ledger.recorded =
          progress.ledger.recorded := by
        unfold skipIfWaiting
        split
        · exact recorded_finish env _ _ _ _
        · rfl
      refine ih (fun other member => recorded ▸ later other member) ?_
      rw [List.map_cons, List.mem_cons, or_assoc] at idle
      rcases idle with rfl | behind | idle
      · exact .inr (skipIfWaiting_idle_self env failure own)
      · exact .inl behind
      · exact .inr (skipIfWaiting_idle env failure step idle)

theorem stopped_of_reaches (reaches : env.Reaches graph parallelism allowed first progress)
    (unstopping : ¬ allowed .stop) : progress.stopped = first.stopped := by
  refine reaches.preserves (fun later => later.stopped = first.stopped) ?_ rfl
  intro action before after permitted acts same
  cases acts with
  | stop => exact absurd permitted unstopping
  | land => exact (stopped_record env _ _).trans same
  | skip | sweep | ready | start | pause => exact same

theorem stopped_foldl_skipIfWaiting {failure : Failure} (steps : List (Step κ ρ)) :
    (steps.foldl (env.skipIfWaiting failure) progress).stopped = progress.stopped := by
  induction steps generalizing progress with
  | nil => rfl
  | cons step rest ih =>
      rw [List.foldl_cons, ih]
      unfold skipIfWaiting
      split <;> rfl

theorem waits_or_cancelled (underWay : UnderWay graph first) (anchored : graph.Anchored)
    (reaches : env.Reaches graph parallelism IsHalt first progress)
    (waiting : (first.ledger.state name).isWaiting = true) :
    (progress.ledger.state name).isWaiting = true
      ∨ (progress.ledger.result name).verdict = .cancelled := by
  refine underWay.preserves anchored reaches (fun later =>
    (later.ledger.state name).isWaiting = true
      ∨ (later.ledger.result name).verdict = .cancelled) ?_ (.inl waiting)
  intro action before after halt underWay acts fate
  by_cases subject : action.subject? = some name
  · cases acts with
    | sweep ordered =>
        cases subject
        cases halt
        right
        rw [result_finish_self env _ _ (underWay.present anchored ordered)]
        exact StepResult.verdict_cancelled _ _
    | stop => cases subject
    | skip | ready | start | pause | land => cases halt
  · rw [acts.state_of_ne subject, acts.result_of_ne subject]
    exact fate

namespace Sees

theorem running_check (sees : env.Sees graph top) :
    (env.propagateSkips graph top).stopped = false :=
  (stopped_of_reaches (propagateSkips_reaches env graph 0 top) id).trans sees.running

theorem notice_eq (sees : env.Sees graph top) :
    env.noticeCancellation graph (env.propagateSkips graph top) =
      env.skipWaiting graph runCancelled
        { env.propagateSkips graph top with stopped := true } := by
  simp [noticeCancellation, sees.running_check, sees.cancelled]

theorem stopped (sees : env.Sees graph top) :
    (env.noticeCancellation graph (env.propagateSkips graph top)).stopped = true := by
  rw [sees.notice_eq, skipWaiting, stopped_foldl_skipIfWaiting]

theorem waiting_eq (sees : env.Sees graph top) :
    env.waiting graph parallelism top =
      env.noticeCancellation graph (env.propagateSkips graph top) := by
  rw [waiting, startReady, if_pos sees.stopped]

theorem halts (sees : env.Sees graph top) :
    env.Reaches graph parallelism IsHalt (env.propagateSkips graph top)
      (env.waiting graph parallelism top) :=
  sees.waiting_eq ▸ noticeCancellation_reaches env graph parallelism _

theorem reaches_waiting (sees : env.Sees graph top) :
    env.Reaches graph parallelism (fun action => IsSkip action ∨ IsHalt action) top
      (env.waiting graph parallelism top) :=
  ((propagateSkips_reaches env graph parallelism top).weaken fun _ => .inl).trans
    (sees.halts.weaken fun _ => .inr)

theorem halted (sees : env.Sees graph top) (underWay : UnderWay graph top)
    (anchored : graph.Anchored) : Halted graph (env.waiting graph parallelism top) := by
  have propagated := underWay.reaches anchored
    (propagateSkips_reaches env graph parallelism top)
  rw [sees.waiting_eq]
  refine ⟨sees.stopped, fun step ordered => ?_⟩
  rw [sees.notice_eq]
  exact foldl_skipIfWaiting_idle (fun other => propagated.present anchored)
    (.inl (List.mem_map_of_mem ordered))

end Sees

def Delivers (env : Environment κ ρ σ) (graph : StepGraph κ ρ) (parallelism : Nat)
    (first : Progress ρ σ) (since before : Nat) (completion : Completion) : Prop :=
  ∃ turn stop, since ≤ turn ∧ turn < before
    ∧ env.drain graph parallelism turn first = (.again, stop)
    ∧ completion ∈ (env.await (env.waiting graph parallelism stop).ledger
        (env.waiting graph parallelism stop).inFlight
        (env.waiting graph parallelism stop).world).1

def IsArrival (env : Environment κ ρ σ) (graph : StepGraph κ ρ) (parallelism : Nat)
    (first : Progress ρ σ) (since before : Nat) : Action κ ρ → Prop
  | .pause => True
  | .land completion => env.Delivers graph parallelism first since before completion
  | _ => False

theorem turn_eq_of_stopped
    (stopped : (env.noticeCancellation graph (env.propagateSkips graph progress)).stopped =
      true) :
    env.turn graph parallelism progress =
      if (env.waiting graph parallelism progress).inFlight = [] then
        (.done, env.waiting graph parallelism progress)
      else (.again, env.collect (env.waiting graph parallelism progress)) := by
  simp [turn, waiting, startReady, stopped]

theorem turn_arrives {turns : Nat}
    (again : env.drain graph parallelism turns first = (.again, progress))
    (stopped : (env.noticeCancellation graph (env.propagateSkips graph progress)).stopped =
      true) :
    ∃ reached,
      env.Reaches graph parallelism
        (env.IsArrival graph parallelism first turns (turns + 1))
          (env.waiting graph parallelism progress) reached
        ∧ (env.drain graph parallelism (turns + 1) first = (.again, reached)
          ∨ env.drain graph parallelism (turns + 1) first = (.done, reached)
            ∧ reached.inFlight = []) := by
  have turned : env.turn graph parallelism progress = _ := turn_eq_of_stopped stopped
  rw [drain_add again]
  by_cases landed : (env.waiting graph parallelism progress).inFlight = []
  · rw [if_pos landed] at turned
    exact ⟨_, .refl _, .inr ⟨by rw [drain, turned], landed⟩⟩
  · rw [if_neg landed] at turned
    refine ⟨_, (collect_reaches env graph parallelism landed).weaken ?_,
      .inl (drain_one turned)⟩
    intro action ending
    cases action with
    | pause => trivial
    | land => exact ⟨turns, progress, le_rfl, Nat.lt_succ_self turns, again, ending⟩
    | skip | stop | sweep | ready | start => cases ending

theorem IsArrival.widen {since before earlier later : Nat} (from_earlier : earlier ≤ since)
    (till_later : before ≤ later)
    (arrival : env.IsArrival graph parallelism first since before action) :
    env.IsArrival graph parallelism first earlier later action := by
  cases action with
  | pause => trivial
  | land =>
      obtain ⟨turn, stop, after, early, rest⟩ := arrival
      exact ⟨turn, stop, from_earlier.trans after, early.trans_le till_later, rest⟩
  | skip | stop | sweep | ready | start => cases arrival

theorem IsArrival.isReturn {since before : Nat}
    (arrival : env.IsArrival graph parallelism first since before action) :
    IsReturn action := by
  cases action with
  | pause | land => trivial
  | skip | stop | sweep | ready | start => cases arrival

theorem IsArrival.started? {since before : Nat}
    (arrival : env.IsArrival graph parallelism first since before action) :
    action.started? = none := by
  cases action with
  | start => cases arrival
  | skip | stop | sweep | ready | pause | land => rfl

namespace Halted

theorem drain {turns : Nat} (halted : Halted graph progress)
    (underWay : UnderWay graph progress) (anchored : graph.Anchored)
    (again : env.drain graph parallelism turns first = (.again, progress)) (more : Nat) :
    ∃ reached, Halted graph reached ∧ UnderWay graph reached
      ∧ env.Reaches graph parallelism
          (env.IsArrival graph parallelism first turns (turns + more))
          progress reached
      ∧ (env.drain graph parallelism (turns + more) first = (.again, reached)
        ∨ env.drain graph parallelism (turns + more) first = (.done, reached)
          ∧ reached.inFlight = []) := by
  induction more with
  | zero => exact ⟨progress, halted, underWay, .refl progress, .inl again⟩
  | succ more ih =>
      obtain ⟨reached, halted, underWay, arrives, again | ⟨done, landed⟩⟩ := ih
      · obtain ⟨next, later, ends⟩ := turn_arrives again halted.stopped_notice
        rw [halted.waiting_eq underWay anchored] at later
        exact ⟨next, halted.reaches underWay anchored later,
          underWay.reaches anchored later,
          (arrives.weaken fun _ => .widen le_rfl (Nat.le_succ _)).trans
            (later.weaken fun _ => .widen (Nat.le_add_right _ _) le_rfl), ends⟩
      · exact ⟨reached, halted, underWay,
          arrives.weaken fun _ => .widen le_rfl (Nat.le_succ _),
          .inr ⟨drain_done_add done 1, landed⟩⟩

theorem inFlight_sublist (reaches : env.Reaches graph parallelism allowed first progress)
    (returns : ∀ action, allowed action → IsReturn action) :
    progress.inFlight.Sublist first.inFlight := by
  refine reaches.preserves (fun later => later.inFlight.Sublist first.inFlight) ?_ (.refl _)
  intro action before after permitted acts fewer
  cases acts with
  | pause => exact fewer
  | land flying =>
      rw [inFlight_record env flying]
      exact List.erase_sublist.trans fewer
  | skip | stop | sweep | ready | start => cases returns _ permitted

/-- In a fair world such a run ends, because ever fewer steps fly. -/
theorem drain_done {turns : Nat} (halted : Halted graph progress)
    (underWay : UnderWay graph progress) (anchored : graph.Anchored)
    (again : env.drain graph parallelism turns first = (.again, progress))
    (fair : env.Fair graph parallelism first) :
    ∃ turns reached, env.drain graph parallelism turns first = (.done, reached) := by
  induction size : progress.inFlight.length using Nat.strong_induction_on
    generalizing turns progress with
  | _ size ih =>
      by_cases landed : progress.inFlight = []
      · have turned : env.turn graph parallelism progress = _ :=
          turn_eq_of_stopped halted.stopped_notice
        rw [halted.waiting_eq underWay anchored, if_pos landed] at turned
        exact ⟨turns + 1, progress, by rw [drain_add again, Environment.drain, turned]⟩
      · obtain ⟨name, flying⟩ := List.exists_mem_of_ne_nil _ landed
        obtain ⟨more, gone⟩ := fair turns progress again name flying
        obtain ⟨reached, halted, onward, arrives, further | ⟨done, _⟩⟩ :=
          halted.drain underWay anchored again more
        · have fewer := inFlight_sublist arrives fun _ arrival => arrival.isReturn
          have less : reached.inFlight.length < progress.inFlight.length := by
            refine lt_of_le_of_ne fewer.length_le fun same => gone reached further ?_
            rw [fewer.eq_of_length same]
            exact flying
          exact ih _ (size ▸ less) halted onward further rfl
        · exact ⟨_, reached, done⟩

theorem conclude_eq (halted : Halted graph progress) (landed : progress.inFlight = []) :
    env.conclude graph progress =
      (⟨progress.ledger.results, false, Reason.cancelled⟩,
        env.tell (.pipelineEnd ⟨progress.ledger.results, false, Reason.cancelled⟩)
          progress) := by
  have swept : env.skipWaiting graph neverReached progress = progress := by
    have sweeps : env.Reaches graph 0 _ progress
        (env.skipWaiting graph neverReached progress) :=
      skipWaiting_reaches (.inr ⟨landed, rfl⟩)
    refine halted.eq_of_reaches sweeps ?_
    rintro _ ⟨step, rfl⟩ returns
    exact returns
  simp [conclude, swept, RunResult.ofSteps, halted.stopped]

end Halted

theorem Sees.drain {turns : Nat} (sees : env.Sees graph top) (underWay : UnderWay graph top)
    (anchored : graph.Anchored)
    (again : env.drain graph parallelism turns first = (.again, top)) (more : Nat) :
    ∃ reached, Halted graph reached ∧ UnderWay graph reached
      ∧ env.Reaches graph parallelism
          (env.IsArrival graph parallelism first turns (turns + 1 + more))
          (env.waiting graph parallelism top) reached
      ∧ (env.drain graph parallelism (turns + 1 + more) first = (.again, reached)
        ∨ env.drain graph parallelism (turns + 1 + more) first = (.done, reached)
          ∧ reached.inFlight = []) := by
  have goes : env.Reaches graph parallelism _ top _ := sees.reaches_waiting
  have waits := underWay.reaches anchored goes
  obtain ⟨next, arrives, ends⟩ := turn_arrives again sees.stopped
  have halted := (sees.halted underWay anchored).reaches waits anchored arrives
  have onward := waits.reaches anchored arrives
  rcases ends with again | ⟨done, landed⟩
  · obtain ⟨reached, halted, onward, later, ends⟩ := halted.drain onward anchored again more
    exact ⟨reached, halted, onward, (arrives.weaken fun _ => .widen le_rfl (by omega)).trans
      (later.weaken fun _ => .widen (by omega) le_rfl), ends⟩
  · exact ⟨next, halted, onward, arrives.weaken fun _ => .widen le_rfl (by omega),
      .inr ⟨drain_done_add done more, landed⟩⟩

end Environment

end BuildPipeline
