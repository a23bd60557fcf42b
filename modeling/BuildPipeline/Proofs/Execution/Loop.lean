import BuildPipeline.Proofs.Execution.Entry
import BuildPipeline.Proofs.Execution.Turn
import BuildPipeline.Proofs.Parameter.Declaration

namespace BuildPipeline

variable {κ ρ σ : Type}

namespace Environment

variable {env : Environment κ ρ σ} {graph : StepGraph κ ρ} {parallelism : Nat}
  {first progress next : Progress ρ σ}

theorem reaches_waiting (env : Environment κ ρ σ) (wellFormed : graph.WellFormed)
    (orderly : Orderly graph parallelism progress) :
    env.Reaches graph parallelism (fun _ => True) progress
      (env.waiting graph parallelism progress) :=
  (waiting_reaches wellFormed orderly).weaken fun _ _ => trivial

theorem reaches_collect (wellFormed : graph.WellFormed)
    (orderly : Orderly graph parallelism progress)
    (flying : (env.waiting graph parallelism progress).inFlight ≠ []) :
    env.Reaches graph parallelism (fun _ => True) progress
      (env.collect (env.waiting graph parallelism progress)) :=
  (reaches_waiting env wellFormed orderly).trans
    ((collect_reaches env graph parallelism flying).weaken fun _ _ => trivial)

/-- However many turns are taken, the coordinator has come where it is by actions, and it
is either at the top of its loop or done. -/
theorem drain_reaches (env : Environment κ ρ σ) (wellFormed : graph.WellFormed)
    (orderly : Orderly graph parallelism progress) (turns : Nat) :
    env.Reaches graph parallelism (fun _ => True) progress
        (env.drain graph parallelism turns progress).2
      ∧ ((env.drain graph parallelism turns progress).1 = .again
        ∨ (env.drain graph parallelism turns progress).1 = .done) := by
  induction turns generalizing progress with
  | zero => exact ⟨.refl progress, Or.inl rfl⟩
  | succ turns ih =>
      rw [drain, turn_eq wellFormed orderly]
      by_cases landed : (env.waiting graph parallelism progress).inFlight = []
      · rw [if_pos landed]
        exact ⟨reaches_waiting env wellFormed orderly, Or.inr rfl⟩
      · rw [if_neg landed]
        have reaches := reaches_collect wellFormed orderly landed
        obtain ⟨later, ending⟩ := ih (reaches.orderly wellFormed orderly)
        exact ⟨reaches.trans later, ending⟩

theorem Trace.dispatched {actions : List (Action κ ρ)}
    (trace : env.Trace graph parallelism first actions progress) :
    progress.dispatched = (actions.filterMap Action.started?).reverse
      ++ first.dispatched := by
  induction trace with
  | nil => rfl
  | @snoc actions action progress next _ acts ih =>
      rw [acts.dispatched, ih, List.filterMap_append, List.reverse_append,
        List.append_assoc]
      cases starts : action.started? <;> simp [starts]

/-- A log kept by the world: one entry for every step that is launched, and none for
anything else. -/
structure Logs (env : Environment κ ρ σ) (log : σ → List String) : Prop where
  launch : ∀ step world, log (env.launch step world) = step.name :: log world
  await : ∀ ledger inFlight world, log (env.await ledger inFlight world).2 = log world
  hook : ∀ ledger event world, log (env.hook ledger event world).2 = log world

namespace Logs

variable {log : σ → List String}

theorem start (logs : env.Logs log) (progress : Progress ρ σ) (step : Step κ ρ) :
    log (env.start progress step).world = step.name :: log progress.world := by
  rw [Environment.start, logs.launch]
  exact congrArg _ (logs.hook _ _ _)

theorem acts (logs : env.Logs log) {action : Action κ ρ}
    (acts : env.Acts graph parallelism action progress next) :
    log next.world = action.started?.toList ++ log progress.world := by
  cases acts with
  | skip | sweep => exact view_finish logs.hook _ _ _ _
  | land => exact view_record logs.hook _ _
  | start => exact logs.start _ _
  | pause => exact logs.await _ _ _
  | stop | ready => rfl

theorem trace (logs : env.Logs log) {actions : List (Action κ ρ)}
    (trace : env.Trace graph parallelism first actions progress) :
    log progress.world = (actions.filterMap Action.started?).reverse
      ++ log first.world := by
  induction trace with
  | nil => rfl
  | @snoc actions action progress next _ acts ih =>
      rw [logs.acts acts, ih, List.filterMap_append, List.reverse_append, List.append_assoc]
      cases starts : action.started? <;> simp [starts]

end Logs

theorem conclude_reaches (env : Environment κ ρ σ) (parallelism : Nat)
    (landed : progress.inFlight = []) :
    ∃ swept, env.Reaches graph parallelism (fun _ => True) progress swept
      ∧ env.conclude graph progress =
          (RunResult.ofSteps swept.ledger.results swept.stopped,
            env.tell (.pipelineEnd (RunResult.ofSteps swept.ledger.results swept.stopped))
              swept) :=
  ⟨env.skipWaiting graph neverReached progress,
    (skipWaiting_reaches (Or.inr ⟨landed, rfl⟩)).weaken fun _ _ => trivial, rfl⟩

theorem drain_landed {turns : Nat}
    (done : env.drain graph parallelism turns progress = (.done, next)) :
    next.inFlight = [] := by
  induction turns generalizing progress with
  | zero => cases done
  | succ turns ih =>
      rw [drain] at done
      rcases turn_cases env graph parallelism progress with ⟨_, eq⟩ | ⟨landed, eq⟩ | ⟨_, eq⟩
      · rw [eq] at done
        cases done
      · rw [eq] at done
        cases done
        exact landed
      · rw [eq] at done
        exact ih done

theorem run_stands (env : Environment κ ρ σ) (wellFormed : graph.WellFormed)
    (parallelism : Int) (turns : Nat) (register : Register ρ) (world : σ) :
    (∃ failure declared,
        (failure = noParallelism
            ∨ declareAll register graph.steps = (declared, some failure))
          ∧ env.run graph parallelism turns register world =
              (.broken failure, opening graph declared world))
      ∨ ∃ declared, declareAll register graph.steps = (declared, none) ∧ ∃ reached,
          env.drain graph parallelism.toNat turns (env.entry graph declared world) =
                (.again, reached)
              ∧ env.run graph parallelism turns register world = (.unfinished, reached)
            ∨ env.drain graph parallelism.toNat turns (env.entry graph declared world) =
                (.done, reached)
              ∧ env.run graph parallelism turns register world =
                  (.finished (env.conclude graph reached).1,
                    (env.conclude graph reached).2) := by
  unfold run
  by_cases least : parallelism < 1
  · rw [if_pos least]
    exact Or.inl ⟨noParallelism, register, Or.inl rfl, rfl⟩
  · rw [if_neg least]
    rcases answer : declareAll register graph.steps with ⟨declared, _ | failure⟩
    · have orderly := orderly_entry env wellFormed parallelism.toNat declared world
      have ending := (drain_reaches env wellFormed orderly turns).2
      refine Or.inr ⟨declared, rfl, ?_⟩
      dsimp only
      rw [← entry]
      generalize env.drain graph parallelism.toNat turns
        (env.entry graph declared world) = stand
        at ending
      obtain ⟨ended, reached⟩ := stand
      rcases ending with rfl | rfl
      · exact ⟨reached, Or.inl ⟨rfl, rfl⟩⟩
      · exact ⟨reached, Or.inr ⟨rfl, rfl⟩⟩
    · exact Or.inl ⟨failure, declared, Or.inr rfl, rfl⟩

theorem run_cases (env : Environment κ ρ σ) (wellFormed : graph.WellFormed)
    (parallelism : Int) (turns : Nat) (register : Register ρ) (world : σ) :
    (∃ failure declared,
        (failure = noParallelism
            ∨ declareAll register graph.steps = (declared, some failure))
          ∧ env.run graph parallelism turns register world =
              (.broken failure, opening graph declared world))
      ∨ ∃ declared, declareAll register graph.steps = (declared, none) ∧ ∃ reached,
          env.Reaches graph parallelism.toNat (fun _ => True)
            (env.entry graph declared world) reached
            ∧ (env.run graph parallelism turns register world = (.unfinished, reached)
              ∨ ∃ result, env.run graph parallelism turns register world =
                  (.finished result, env.tell (.pipelineEnd result) reached)) := by
  refine (run_stands env wellFormed parallelism turns register world).imp_right ?_
  rintro ⟨declared, answer, reached, stands⟩
  have orderly := orderly_entry env wellFormed parallelism.toNat declared world
  have reaches := (drain_reaches env wellFormed orderly turns).1
  refine ⟨declared, answer, ?_⟩
  rcases stands with ⟨again, eq⟩ | ⟨done, eq⟩
  · rw [again] at reaches
    exact ⟨reached, reaches, Or.inl eq⟩
  · rw [done] at reaches
    obtain ⟨swept, sweeping, concluded⟩ :=
      conclude_reaches env parallelism.toNat (drain_landed done)
    rw [concluded] at eq
    exact ⟨swept, reaches.trans sweeping, Or.inr ⟨_, eq⟩⟩

theorem run_ne_dispatchedTwice (env : Environment κ ρ σ) (wellFormed : graph.WellFormed)
    (parallelism : Int) (turns : Nat) (register : Register ρ) (world : σ) (name : String) :
    (env.run graph parallelism turns register world).1 ≠
      .broken (dispatchedTwice name) := by
  rcases run_cases env wellFormed parallelism turns register world with
    ⟨failure, declared, cause, eq⟩ | ⟨_, _, _, _, eq | ⟨_, eq⟩⟩
  · rw [eq]
    rintro ⟨⟩
    rcases cause with least | refused
    · cases least
    · obtain ⟨_, _, _, _, conflicting⟩ := declareAll_eq_some (congrArg Prod.snd refused)
      cases conflicting
  · simp [eq]
  · simp [eq]

theorem Logs.run {log : σ → List String} (logs : env.Logs log)
    (wellFormed : graph.WellFormed) (parallelism : Int) (turns : Nat)
    (register : Register ρ) (world : σ) :
    log (env.run graph parallelism turns register world).2.world = log world
      ∨ ∃ declared actions reached,
          env.Trace graph parallelism.toNat (env.entry graph declared world) actions reached
            ∧ log (env.run graph parallelism turns register world).2.world =
                (actions.filterMap Action.started?).reverse ++ log world
            ∧ (env.run graph parallelism turns register world).2.ledger =
                reached.ledger := by
  rcases run_cases env wellFormed parallelism turns register world with
    ⟨_, _, _, eq⟩ | ⟨declared, _, reached, ⟨actions, trace, _⟩, ending⟩
  · rw [eq]
    exact .inl rfl
  · have logged := logs.trace trace
    rw [view_entry logs.hook] at logged
    refine .inr ⟨declared, actions, reached, trace, ?_⟩
    rcases ending with eq | ⟨result, eq⟩
    · rw [eq]
      exact ⟨logged, rfl⟩
    · rw [eq]
      exact ⟨(logs.hook _ _ _).trans logged, rfl⟩

theorem started_nodup (wellFormed : graph.WellFormed) {register : Register ρ} {world : σ}
    {actions : List (Action κ ρ)}
    (trace : env.Trace graph parallelism (env.entry graph register world)
      actions progress) :
    (actions.filterMap Action.started?).Nodup := by
  have nodup := ((orderly_entry env wellFormed parallelism register world).trace wellFormed
    trace).dispatched_nodup
  rw [trace.dispatched, (entry_eq env wellFormed register world).2.1,
    List.append_nil] at nodup
  exact List.nodup_reverse.mp nodup

theorem start_allowed (wellFormed : graph.WellFormed)
    (orderly : Orderly graph parallelism progress) {step : Step κ ρ}
    (acts : env.Acts graph parallelism (.start step) progress next) :
    step ∈ graph.steps ∧ step.invalid = none
      ∧ ∀ dependency ∈ graph.dependencies step.name,
          progress.ledger.state dependency = .succeeded := by
  cases acts with
  | start ordered _ ready _ =>
      obtain ⟨waiting, free⟩ := isReady_iff.mp ready
      exact ⟨((StepGraph.mem_orderedSteps_iff wellFormed).mp ordered).1,
        orderly.valid_of_isWaiting ordered waiting, free⟩

/-- The discipline of a run, for every world: whatever it delivers at a wait, and whenever
it cancels. At every point of a run no step was started twice, and the steps recorded as
running are those in flight, never more than there is room for.  A step is started only if
it is valid and all steps it depends on are recorded as succeeded.  The tops of the loop
and the waits are such points, and the check against starting a step twice never fails. -/
theorem run_disciplined (env : Environment κ ρ σ) (wellFormed : graph.WellFormed)
    (parallelism : Int) (register : Register ρ) (world : σ) :
    (∀ actions progress,
        env.Trace graph parallelism.toNat (env.entry graph register world)
          actions progress →
          (actions.filterMap Action.started?).Nodup
            ∧ (∀ name, progress.ledger.state name = .running ↔ name ∈ progress.inFlight)
            ∧ progress.inFlight.Nodup ∧ progress.inFlight.length ≤ parallelism.toNat)
      ∧ (∀ actions progress step next,
          env.Trace graph parallelism.toNat (env.entry graph register world)
            actions progress →
          env.Acts graph parallelism.toNat (.start step) progress next →
            step.name ∉ actions.filterMap Action.started? ∧ step ∈ graph.steps
              ∧ step.invalid = none
              ∧ ∀ dependency ∈ graph.dependencies step.name,
                  progress.ledger.state dependency = .succeeded)
      ∧ (∀ turns top,
          env.drain graph parallelism.toNat turns (env.entry graph register world) =
            (.again, top) →
            ∃ actions decisions,
              env.Trace graph parallelism.toNat (env.entry graph register world) actions top
                ∧ env.Trace graph parallelism.toNat top decisions
                    (env.waiting graph parallelism.toNat top))
      ∧ (∀ log, env.Logs log → ∀ turns, ∃ started,
          log (env.run graph parallelism turns register world).2.world =
            started ++ log world
            ∧ started.Nodup)
      ∧ ∀ turns name,
          (env.run graph parallelism turns register world).1 ≠
            .broken (dispatchedTwice name) := by
  have orderly := orderly_entry env wellFormed parallelism.toNat register world
  refine ⟨fun actions progress trace => ?_, fun actions progress step next trace acts => ?_,
    fun turns top drained => ?_, fun log logs turns => ?_,
    fun turns => run_ne_dispatchedTwice env wellFormed parallelism turns register world⟩
  · have now := orderly.trace wellFormed trace
    exact ⟨started_nodup wellFormed trace, now.running_iff, now.inFlight_nodup, now.room⟩
  · refine ⟨fun before => ?_,
      start_allowed wellFormed (orderly.trace wellFormed trace) acts⟩
    have nodup := started_nodup wellFormed (trace.snoc acts)
    rw [List.filterMap_append, List.nodup_append] at nodup
    exact nodup.2.2 _ before _ List.mem_cons_self rfl
  · obtain ⟨⟨actions, trace, _⟩, _⟩ := drain_reaches env wellFormed orderly turns
    rw [drained] at trace
    obtain ⟨decisions, deciding, _⟩ :=
      reaches_waiting env wellFormed (orderly.trace wellFormed trace)
    exact ⟨actions, decisions, trace, deciding⟩
  · rcases logs.run wellFormed parallelism turns register world with
      unchanged | ⟨declared, actions, reached, trace, logged, _⟩
    · exact ⟨[], unchanged, List.nodup_nil⟩
    · exact ⟨_, logged, List.nodup_reverse.mpr (started_nodup wellFormed trace)⟩

/-- The simplest world: every wait ends all that is in flight, each step as it is told to,
and what was launched is kept as a list. -/
def steady (outcome : String → Except Error Unit) : Environment κ ρ (List String) where
  cancelled _ := false
  now _ := default
  launch step launched := step.name :: launched
  await _ inFlight launched := (inFlight.map fun name => ⟨name, outcome name⟩, launched)
  hook _ _ launched := (.ok (), launched)

theorem steady_logs (outcome : String → Except Error Unit) :
    (steady (κ := κ) (ρ := ρ) outcome).Logs fun launched => launched :=
  ⟨fun _ _ => rfl, fun _ _ _ => rfl, fun _ _ _ => rfl⟩

theorem inFlight_foldl_record (env : Environment κ ρ σ)
    (outcome : String → Except Error Unit) {names : List String}
    (flying : progress.inFlight = names) :
    ((names.map fun name => ⟨name, outcome name⟩).foldl env.record progress).inFlight =
      [] := by
  induction names generalizing progress with
  | nil => exact flying
  | cons name rest ih =>
      refine ih ?_
      rw [inFlight_record env (by simp [flying]), flying, List.erase_cons_head]

theorem inFlight_drain_steady {outcome : String → Except Error Unit}
    {first top : Progress ρ (List String)} (landed : first.inFlight = []) {turns : Nat}
    (drained : (steady (κ := κ) outcome).drain graph parallelism turns first =
      (.again, top)) :
    top.inFlight = [] := by
  induction turns generalizing first with
  | zero =>
      cases drained
      exact landed
  | succ turns ih =>
      rw [drain, turn] at drained
      rcases filling : (steady outcome).startReady graph parallelism
        ((steady outcome).noticeCancellation graph
          ((steady outcome).propagateSkips graph first))
        with ⟨_ | failure, filled⟩
      · rw [filling] at drained
        by_cases idle : filled.inFlight.isEmpty = true
        · simp [idle] at drained
        · simp only [idle] at drained
          exact ih (inFlight_foldl_record _ outcome rfl) drained
      · simp [filling] at drained

def twoImages : StepGraph Unit Unit where
  steps := ["cli", "api", "e2e", "probe"].map fun name => { name, work := () }
  edges := [("cli", "e2e"), ("api", "probe")]

/-- The tests start once both images are built, and in the order of the graph.  The world
lists the latest start first. -/
theorem twoImages_launches :
    twoImages.WellFormed
      ∧ ((steady fun _ => .ok ()).run twoImages 2 5 {} []).2.world =
          ["probe", "e2e", "api", "cli"]
      ∧ ((steady fun _ => .ok ()).run twoImages 2 5 {} []).2.world.Nodup := by
  have wellFormed : twoImages.WellFormed := by decide
  obtain ⟨_, _, _, logged, _⟩ := run_disciplined (steady fun _ => .ok ()) wellFormed 2 {} []
  obtain ⟨started, launched, nodup⟩ := logged _ (steady_logs _) 5
  rw [List.append_nil] at launched
  exact ⟨wellFormed, by decide +kernel, launched ▸ nodup⟩

end Environment

end BuildPipeline
