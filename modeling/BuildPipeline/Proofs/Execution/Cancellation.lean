import BuildPipeline.Proofs.Execution.WindingDown

namespace BuildPipeline

variable {κ ρ σ : Type}

def Verdict.skipped : Verdict where
  state := .skipped
  reason := Reason.skipped

namespace Environment

variable {env : Environment κ ρ σ} {graph : StepGraph κ ρ} {parallelism : Nat}
  {first top progress next : Progress ρ σ} {action : Action κ ρ} {name : String}

/-- A cancellation is not taken back. -/
structure Lasting (env : Environment κ ρ σ) : Prop where
  launch : ∀ step world, env.cancelled world = true →
    env.cancelled (env.launch step world) = true
  await : ∀ ledger inFlight world, env.cancelled world = true →
    env.cancelled (env.await ledger inFlight world).2 = true
  hook : ∀ ledger event world, env.cancelled world = true →
    env.cancelled (env.hook ledger event world).2 = true

namespace Lasting

theorem acts (lasting : env.Lasting)
    (acts : env.Acts graph parallelism action progress next)
    (cancelled : env.cancelled progress.world = true) :
    env.cancelled next.world = true := by
  cases acts with
  | stop | ready => exact cancelled
  | skip | sweep => exact lasting.hook _ _ _ cancelled
  | start => exact lasting.launch _ _ (lasting.hook _ _ _ cancelled)
  | pause => exact lasting.await _ _ _ cancelled
  | @land _ completion flying =>
      obtain ⟨name, outcome⟩ := completion
      simp only [record, if_pos flying]
      cases outcome with
      | ok => exact lasting.hook _ _ _ cancelled
      | error => exact lasting.hook _ _ _ (lasting.hook _ _ _ cancelled)

theorem reaches {allowed : Action κ ρ → Prop} (lasting : env.Lasting)
    (reaches : env.Reaches graph parallelism allowed first progress)
    (cancelled : env.cancelled first.world = true) : env.cancelled progress.world = true :=
  reaches.preserves (fun later => env.cancelled later.world = true)
    (fun _ acts cancelled => lasting.acts acts cancelled) cancelled

end Lasting

/-- As long as no cancellation is seen, only that is skipped which depends on something
that failed or was skipped itself. -/
def IsBlocked (graph : StepGraph κ ρ) (progress : Progress ρ σ) (name : String) : Prop :=
  (progress.ledger.result name).verdict = .skipped
    ∧ ∃ before, graph.Precedes before name
      ∧ (progress.ledger.state before).isBlocking = true

theorem isBlocking_of_acts (underWay : UnderWay graph progress)
    (acts : env.Acts graph parallelism action progress next)
    (blocking : (progress.ledger.state name).isBlocking = true) :
    (next.ledger.state name).isBlocking = true := by
  have terminal : (progress.ledger.state name).isTerminal = true := by
    rcases StepState.isBlocking_eq_true.mp blocking
      with state | state <;> rw [state] <;> rfl
  rw [underWay.tidy.state_of_isTerminal acts terminal]
  exact blocking

theorem IsBlocked.acts (underWay : UnderWay graph progress)
    (acts : env.Acts graph parallelism action progress next)
    (blocked : IsBlocked graph progress name) : IsBlocked graph next name := by
  obtain ⟨verdict, before, edge, blocking⟩ := blocked
  have skipped : progress.ledger.state name = .skipped := congrArg Verdict.state verdict
  have kept : next.ledger.result name = progress.ledger.result name :=
    underWay.tidy.result_of_isTerminal acts (by simp [skipped, StepState.isTerminal])
  exact ⟨kept ▸ verdict, before, edge, isBlocking_of_acts underWay acts blocking⟩

theorem isBlocked_of_skip (underWay : UnderWay graph progress) (anchored : graph.Anchored)
    {step : Step κ ρ} (acts : env.Acts graph parallelism (.skip step) progress next) :
    IsBlocked graph next step.name := by
  have kept : ∀ {before}, (progress.ledger.state before).isBlocking = true →
      (next.ledger.state before).isBlocking = true := isBlocking_of_acts underWay acts
  cases acts with
  | skip ordered pending blocked =>
      obtain ⟨before, member⟩ := List.exists_mem_of_ne_nil _ blocked
      obtain ⟨edge, blocking⟩ := mem_blockers.mp member
      refine ⟨?_, before, edge, kept blocking⟩
      rw [result_finish_self env _ _ (underWay.present anchored ordered)]
      exact StepResult.verdict_skipped
        (underWay.unsaid _ (by simp [pending, StepState.isTerminal])).2 _ (by decide) _

theorem isBlocked_of_acts (underWay : UnderWay graph progress) (anchored : graph.Anchored)
    (inLoop : InLoop action) (acts : env.Acts graph parallelism action progress next)
    (running : progress.stopped = false)
    (blocked : progress.ledger.state name = .skipped → IsBlocked graph progress name)
    (skipped : next.ledger.state name = .skipped) : IsBlocked graph next name := by
  -- Only an action about the step itself can have skipped it.
  by_cases subject : action.subject? = some name
  · cases acts with
    | skip ordered pending blockers =>
        cases subject
        have skips : env.Acts graph parallelism (.skip _) progress _ :=
          .skip ordered pending blockers
        exact isBlocked_of_skip underWay anchored skips
    | sweep ordered waiting allowed =>
        rcases inLoop with (skip | rfl | launch) | returns
        · cases skip
        · rcases allowed with ⟨stopped, _⟩ | ⟨_, same⟩
          · rw [running] at stopped
            cases stopped
          · simp [runCancelled, neverReached, Reason.cancelled, Reason.skipped] at same
        · cases launch
        · cases returns
    | ready ordered =>
        cases subject
        rw [Ledger.state, Ledger.result_ready_self
          (underWay.present anchored ordered)] at skipped
        cases skipped
    | start ordered =>
        cases subject
        rw [Ledger.state, result_start_self env
          (underWay.present anchored ordered)] at skipped
        cases skipped
    | @land _ completion flying =>
        cases subject
        have landed : Landed (env.record progress completion) completion :=
          underWay.landed_record flying
        rw [landed.state_eq] at skipped
        cases outcome : completion.outcome <;> rw [outcome] at skipped <;> cases skipped
    | stop | pause => cases subject
  · rw [acts.state_of_ne subject] at skipped
    exact (blocked skipped).acts underWay acts

theorem isBlocked_of_reaches (anchored : graph.Anchored) {register : Register ρ} {world : σ}
    (reaches : env.Reaches graph parallelism InLoop
      (env.entry graph register world) progress)
    (running : progress.stopped = false) (skipped : progress.ledger.state name = .skipped) :
    IsBlocked graph progress name := by
  refine (underWay_entry env graph register world).preserves anchored reaches
    (fun later => later.stopped = false → later.ledger.state name = .skipped →
      IsBlocked graph later name) ?_ (fun _ skipped => ?_) running skipped
  · intro action before after inLoop underWay acts blocked running skipped
    have before := running_of_acts acts running
    exact isBlocked_of_acts underWay anchored inLoop acts before (blocked before) skipped
  · rcases entry_cases env graph register world name with blank | failed
    · rw [Ledger.state, blank] at skipped
      cases skipped
    · rw [failed] at skipped
      cases skipped

section AfterCheck

variable {register : Register ρ} {world : σ} {turns : Nat}

theorem not_skipped_of_dispatched {allowed : Action κ ρ → Prop}
    (underWay : UnderWay graph first) (anchored : graph.Anchored)
    (reaches : env.Reaches graph parallelism allowed first progress)
    (started : name ∈ first.dispatched) : progress.ledger.state name ≠ .skipped := by
  have later := mem_dispatched_of_reaches reaches started
  rcases (underWay.reaches anchored reaches).tidy.started name later
    with state | state | state <;>
    simp [state]

theorem check_reaches (anchored : graph.Anchored)
    (again : env.drain graph parallelism turns (env.entry graph register world) =
      (.again, top)) :
    env.Reaches graph parallelism InLoop (env.entry graph register world)
      (env.propagateSkips graph top) :=
  (top_reaches anchored again).trans
    ((propagateSkips_reaches env graph parallelism top).weaken fun _ skip =>
      .inl (.inl skip))

theorem Sees.onward (sees : env.Sees graph top) {allowed : Action κ ρ → Prop}
    (reaches : env.Reaches graph parallelism allowed
      (env.waiting graph parallelism top) progress) :
    env.Reaches graph parallelism (fun _ => True) (env.propagateSkips graph top) progress :=
  (sees.halts.weaken fun _ _ => trivial).trans (reaches.weaken fun _ _ => trivial)

theorem verdict_cancelled_iff (sees : env.Sees graph top) (anchored : graph.Anchored)
    (acyclic : graph.Acyclic)
    (again : env.drain graph parallelism turns
      (env.entry graph register world) = (.again, top))
    {allowed : Action κ ρ → Prop}
    (reaches : env.Reaches graph parallelism allowed
      (env.waiting graph parallelism top) progress)
    (member : name ∈ graph.names) :
    (progress.ledger.result name).verdict = .cancelled
      ↔ ((env.propagateSkips graph top).ledger.state name).isWaiting = true := by
  have passes := check_reaches anchored again
  have underWay := (underWay_entry env graph register world).reaches anchored passes
  have onward := sees.onward reaches
  constructor
  · intro cancelled
    have skipped : progress.ledger.state name = .skipped := congrArg Verdict.state cancelled
    rcases StepState.isTerminal_or_isWaiting_or_running
      ((env.propagateSkips graph top).ledger.state name) with terminal | waiting | running
    · have kept := underWay.result_of_reaches anchored onward terminal
      rw [Ledger.state, kept] at skipped
      rw [kept, (isBlocked_of_reaches anchored passes sees.running_check
        skipped).1] at cancelled
      exact absurd cancelled (by decide)
    · exact waiting
    · have flying := (underWay.tidy.running_iff name).mp running
      exact absurd skipped
        (not_skipped_of_dispatched underWay anchored onward
          (underWay.tidy.launched name flying))
  · exact fun waiting =>
      sees.labelled (underWay_top anchored again) anchored acyclic member waiting reaches

/-- What waits at a moment before the check is either still there to be cancelled, or it
was started in between, or it was given up for something that failed. -/
theorem verdict_cases (sees : env.Sees graph top) (anchored : graph.Anchored)
    (acyclic : graph.Acyclic)
    (again : env.drain graph parallelism turns
      (env.entry graph register world) = (.again, top))
    {moment : Progress ρ σ}
    (before : env.Reaches graph parallelism InLoop (env.entry graph register world) moment)
    (after : env.Reaches graph parallelism InLoop moment (env.propagateSkips graph top))
    {allowed : Action κ ρ → Prop}
    (reaches : env.Reaches graph parallelism allowed
      (env.waiting graph parallelism top) progress)
    (member : name ∈ graph.names) (waiting : (moment.ledger.state name).isWaiting = true) :
    (progress.ledger.result name).verdict = .cancelled
      ∨ name ∉ moment.dispatched ∧ name ∈ top.dispatched
          ∧ progress.ledger.state name ≠ .skipped
      ∨ (progress.ledger.result name).verdict = .skipped
        ∧ ∃ before, graph.Precedes before name
          ∧ ((env.propagateSkips graph top).ledger.state before).isBlocking = true := by
  have midway := (underWay_entry env graph register world).reaches anchored before
  have underWay := midway.reaches anchored after
  have onward := sees.onward reaches
  rcases midway.waits_or_left_of_reaches anchored after waiting
    with waits | skipped | started
  · exact .inl
      ((verdict_cancelled_iff sees anchored acyclic again reaches member).mpr waits)
  · obtain ⟨verdict, blocking⟩ :=
      isBlocked_of_reaches anchored (before.trans after) sees.running_check skipped
    rw [underWay.result_of_reaches anchored onward
      (by simp [skipped, StepState.isTerminal])]
    exact .inr (.inr ⟨verdict, blocking⟩)
  · have skips := propagateSkips_reaches env graph parallelism top
    have same : (env.propagateSkips graph top).dispatched = top.dispatched :=
      (skips.unstarted fun action skip => by cases action <;> trivial).1
    exact .inr (.inl ⟨midway.tidy.not_dispatched_of_isWaiting waiting, same ▸ started,
      not_skipped_of_dispatched underWay anchored onward started⟩)

end AfterCheck

/-- A run is cancelled at some moment, and the first check after it sees that, because a
cancellation is not taken back.  However the run goes on, a step ends as cancelled exactly
if it still waits at that check.  Of the steps that waited at the moment itself the others
were started before the check, or were given up because something they depend on had
failed by then.  If no step stays in flight for ever the run ends. -/
theorem run_gives_up (env : Environment κ ρ σ) (lasting : env.Lasting)
    (anchored : graph.Anchored) (acyclic : graph.Acyclic) {limit : Int} (least : 1 ≤ limit)
    {register declared : Register ρ} {world : σ}
    (accepted : declareAll register graph.steps = (declared, none)) {turns : Nat}
    (again : env.drain graph limit.toNat turns
      (env.entry graph declared world) = (.again, top))
    (running : top.stopped = false) {moment : Progress ρ σ}
    (before : env.Reaches graph limit.toNat InLoop (env.entry graph declared world) moment)
    (cancelled : env.cancelled moment.world = true)
    (after : env.Reaches graph limit.toNat InLoop moment (env.propagateSkips graph top)) :
    (∀ more, turns < more → ∃ ending stand, env.run graph limit more register world =
      (ending, stand)
        ∧ ∀ name ∈ graph.names,
          ((stand.ledger.result name).verdict = .cancelled
            ↔ ((env.propagateSkips graph top).ledger.state name).isWaiting = true)
          ∧ ((moment.ledger.state name).isWaiting = true →
            (stand.ledger.result name).verdict = .cancelled
              ∨ name ∉ moment.dispatched ∧ name ∈ top.dispatched
                ∧ stand.ledger.state name ≠ .skipped
              ∨ (stand.ledger.result name).verdict = .skipped
                ∧ ∃ before, graph.Precedes before name
                  ∧ ((env.propagateSkips graph top).ledger.state before).isBlocking = true))
      ∧ (env.Fair graph limit.toNat (env.entry graph declared world) →
          ∃ enough, ∀ more, enough ≤ more → ∃ result stand,
            env.run graph limit more register world = (.finished result, stand)) := by
  have sees : env.Sees graph top := ⟨running, lasting.reaches after cancelled⟩
  refine ⟨fun more later => ?_, sees.run_finishes anchored least accepted again⟩
  obtain ⟨ending, stand, reached, ran, ends, arrives⟩ :=
    sees.run_stands anchored least accepted again later
  have ledger : stand.ledger = reached.ledger := by
    rcases ends with ⟨_, rfl⟩ | ⟨_, _, rfl⟩ <;> rfl
  refine ⟨ending, stand, ran, fun name member => ?_⟩
  rw [ledger]
  exact ⟨verdict_cancelled_iff sees anchored acyclic again arrives member,
    verdict_cases sees anchored acyclic again before after arrives member⟩

theorem interrupted_lasting (idle : Nat) (outcome : String → Except Error Unit) :
    (interrupted idle outcome).Lasting where
  launch _ _ cancelled := cancelled
  await _ _ _ _ := by simp [interrupted]
  hook _ _ _ cancelled := cancelled

theorem interrupted_gives_up :
    imaged.WellFormed
      ∧ (((interrupted 1 fun _ => .ok ()).run imaged 1 3 {} 0).2.ledger.result
          "e2e").verdict = .cancelled := by
  have wellFormed : imaged.WellFormed := by decide
  obtain ⟨gives_up, _⟩ :=
    run_gives_up (interrupted 1 fun _ => .ok ()) (interrupted_lasting 1 _)
    wellFormed.anchored imaged_acyclic (by decide : (1 : Int) ≤ 1)
    (Prod.ext rfl rfl : declareAll {} imaged.steps = (_, none)) imaged_again
    (by decide +kernel) (top_reaches wellFormed.anchored imaged_again) (by decide +kernel)
    ((propagateSkips_reaches _ imaged 1 _).weaken fun _ skip => .inl (.inl skip))
  obtain ⟨_, stand, ran, fates⟩ := gives_up 3 (by decide)
  refine ⟨wellFormed, ?_⟩
  rw [ran]
  exact (fates "e2e" (.tail _ (.head _))).1.mpr (by decide +kernel)

def imageFails (name : String) : Except Error Unit :=
  if name = "cli" then .error (.ofFailure (.cancelled "pipeline run was cancelled"))
  else .ok ()

/-- The run is cancelled during the wait in which the image fails.  The test waits before
and after, and is not given up as cancelled. -/
theorem interrupted_blames_image :
    imaged.WellFormed ∧ (interrupted 0 imageFails).Lasting
      ∧ ∃ wait, wait = (interrupted 0 imageFails).waiting imaged 1
          ((interrupted 0 imageFails).entry imaged (declareAll {} imaged.steps).1 0)
        ∧ (interrupted 0 imageFails).cancelled wait.world = false
        ∧ (interrupted 0 imageFails).cancelled
            ((interrupted 0 imageFails).collect wait).world = true
        ∧ wait.ledger.state "e2e" = .pending
        ∧ ((interrupted 0 imageFails).collect wait).ledger.state "e2e" = .pending
        ∧ "e2e" ∉ ((interrupted 0 imageFails).run imaged 1 3 {} 0).2.dispatched
        ∧ ((interrupted 0 imageFails).run imaged 1 3 {} 0).2.stopped = true
        ∧ (((interrupted 0 imageFails).run imaged 1 3 {} 0).2.ledger.result "e2e").verdict
            = .skipped := by
  refine ⟨by decide, interrupted_lasting 0 _, _, rfl, ?_⟩
  decide +kernel

end Environment

end BuildPipeline
