import BuildPipeline.Proofs.Execution.Discipline

namespace BuildPipeline

variable {κ ρ σ : Type}

namespace Environment

variable {env : Environment κ ρ σ} {graph : StepGraph κ ρ} {parallelism : Nat}
  {first progress next : Progress ρ σ}

/-- A progress that comes of another by actions of some kind only. -/
def Reaches (env : Environment κ ρ σ) (graph : StepGraph κ ρ) (parallelism : Nat)
    (allowed : Action κ ρ → Prop) (first progress : Progress ρ σ) : Prop :=
  ∃ actions, env.Trace graph parallelism first actions progress
    ∧ ∀ action ∈ actions, allowed action

namespace Reaches

variable {allowed other : Action κ ρ → Prop}

theorem refl (progress : Progress ρ σ) :
    env.Reaches graph parallelism allowed progress progress :=
  ⟨[], .nil, by simp⟩

theorem trans (reaches : env.Reaches graph parallelism allowed first progress)
    (rest : env.Reaches graph parallelism allowed progress next) :
    env.Reaches graph parallelism allowed first next := by
  obtain ⟨actions, trace, each⟩ := reaches
  obtain ⟨more, later, eachLater⟩ := rest
  refine ⟨actions ++ more, trace.append later, fun action member => ?_⟩
  rcases List.mem_append.mp member with member | member
  · exact each action member
  · exact eachLater action member

theorem single {action : Action κ ρ}
    (acts : env.Acts graph parallelism action progress next) (permitted : allowed action) :
    env.Reaches graph parallelism allowed progress next :=
  ⟨[action], .snoc .nil acts, by simpa using permitted⟩

theorem weaken (reaches : env.Reaches graph parallelism allowed first progress)
    (implies : ∀ action, allowed action → other action) :
    env.Reaches graph parallelism other first progress := by
  obtain ⟨actions, trace, each⟩ := reaches
  exact ⟨actions, trace, fun action member => implies action (each action member)⟩

theorem orderly (reaches : env.Reaches graph parallelism allowed first progress)
    (wellFormed : graph.WellFormed) (orderly : Orderly graph parallelism first) :
    Orderly graph parallelism progress := by
  obtain ⟨actions, trace, _⟩ := reaches
  exact orderly.trace wellFormed trace

theorem preserves (reaches : env.Reaches graph parallelism allowed first progress)
    (holds : Progress ρ σ → Prop)
    (step : ∀ {action progress next}, allowed action →
      env.Acts graph parallelism action progress next → holds progress → holds next)
    (start : holds first) : holds progress := by
  obtain ⟨actions, trace, each⟩ := reaches
  induction trace with
  | nil => exact start
  | snoc trace acts ih =>
      exact step (each _ (by simp)) acts
        (ih fun action member => each action (List.mem_append_left _ member))

end Reaches

theorem running_of_acts {action : Action κ ρ}
    (acts : env.Acts graph parallelism action progress next)
    (running : next.stopped = false) : progress.stopped = false := by
  cases acts with
  | stop => cases running
  | land => exact (stopped_record env _ _).symm.trans running
  | skip | sweep | ready | start | pause => exact running

theorem Reaches.running {allowed : Action κ ρ → Prop}
    (reaches : env.Reaches graph parallelism allowed first progress)
    (running : progress.stopped = false) : first.stopped = false := by
  refine reaches.preserves (fun later => later.stopped = false → first.stopped = false) ?_
    id running
  exact fun _ acts earlier running => earlier (running_of_acts acts running)

/-- A fold each of whose stages is made of actions, for as long as a condition on the
progress lasts. -/
theorem reaches_foldl {α : Type} {allowed : Action κ ρ → Prop} (holds : Progress ρ σ → Prop)
    {operate : Progress ρ σ → α → Progress ρ σ} {items : List α}
    (each : ∀ {progress item}, holds progress → item ∈ items →
      env.Reaches graph parallelism allowed progress (operate progress item)
        ∧ holds (operate progress item))
    {progress : Progress ρ σ} (start : holds progress) :
    env.Reaches graph parallelism allowed progress (items.foldl operate progress)
      ∧ holds (items.foldl operate progress) := by
  induction items generalizing progress with
  | nil => exact ⟨.refl progress, start⟩
  | cons item rest ih =>
      obtain ⟨reaches, kept⟩ := each start List.mem_cons_self
      obtain ⟨later, last⟩ :=
        ih (fun holds member => each holds (List.mem_cons_of_mem _ member)) kept
      exact ⟨reaches.trans later, last⟩

def IsSkip : Action κ ρ → Prop
  | .skip _ => True
  | _ => False

def IsHalt : Action κ ρ → Prop
  | .stop => True
  | .sweep _ failure => failure = runCancelled
  | _ => False

def IsMark : Action κ ρ → Prop
  | .ready _ => True
  | _ => False

def IsLaunch : Action κ ρ → Prop
  | .ready _ => True
  | .start _ => True
  | _ => False

theorem IsMark.isLaunch {action : Action κ ρ} (mark : IsMark action) : IsLaunch action := by
  cases action with
  | ready => trivial
  | skip | stop | sweep | start | pause | land => cases mark

def IsEnding (completions : List Completion) : Action κ ρ → Prop
  | .pause => True
  | .land completion => completion ∈ completions
  | _ => False

theorem propagateSkips_reaches (env : Environment κ ρ σ) (graph : StepGraph κ ρ)
    (parallelism : Nat) (progress : Progress ρ σ) :
    env.Reaches graph parallelism IsSkip progress (env.propagateSkips graph progress) := by
  refine (reaches_foldl (fun _ => True) ?_ trivial).1
  intro progress step _ ordered
  refine ⟨?_, trivial⟩
  simp only [skipIfBlocked]
  split
  · rename_i blocked
    exact .single (.skip ordered blocked.1 blocked.2) trivial
  · exact .refl progress

theorem skipWaiting_reaches {failure : Failure}
    (allowed : progress.stopped = true ∧ failure = runCancelled
      ∨ progress.inFlight = [] ∧ failure = neverReached) :
    env.Reaches graph parallelism
      (fun action => ∃ step, action = .sweep step failure) progress
      (env.skipWaiting graph failure progress) := by
  refine (reaches_foldl (fun progress => progress.stopped = true ∧ failure = runCancelled
    ∨ progress.inFlight = [] ∧ failure = neverReached) ?_ allowed).1
  intro progress step allowed ordered
  simp only [skipIfWaiting]
  split
  · rename_i waiting
    exact ⟨.single (.sweep ordered waiting allowed) ⟨step, rfl⟩, allowed⟩
  · exact ⟨.refl progress, allowed⟩

theorem noticeCancellation_reaches (env : Environment κ ρ σ) (graph : StepGraph κ ρ)
    (parallelism : Nat) (progress : Progress ρ σ) :
    env.Reaches graph parallelism IsHalt progress
      (env.noticeCancellation graph progress) := by
  unfold noticeCancellation
  split
  · rename_i noticed
    simp only [Bool.and_eq_true, Bool.not_eq_eq_eq_not, Bool.not_true] at noticed
    refine (Reaches.single (.stop noticed.1 noticed.2) trivial).trans ?_
    refine (skipWaiting_reaches (Or.inl ⟨rfl, rfl⟩)).weaken ?_
    rintro action ⟨step, rfl⟩
    rfl
  · exact .refl progress

theorem noticeCancellation_of_running
    (running : (env.noticeCancellation graph progress).stopped = false) :
    env.noticeCancellation graph progress = progress := by
  unfold noticeCancellation at running ⊢
  split at running
  · have sweeps : env.Reaches graph 0 _ { progress with stopped := true }
        (env.skipWaiting graph runCancelled { progress with stopped := true }) :=
      skipWaiting_reaches (Or.inl ⟨rfl, rfl⟩)
    cases sweeps.running running
  · rename_i unseen
    rw [if_neg unseen]

/-- Filling the pool.  What is marked or started was waiting before, so it is nothing that
a ready step depends on. -/
theorem isReady_of_changed {ledger next : Ledger ρ} {changed : String}
    (waiting : (ledger.state changed).isWaiting = true)
    (others : ∀ name, name ≠ changed → next.state name = ledger.state name)
    {step : Step κ ρ} (own : step.name = changed → (next.state changed).isWaiting = true)
    (ready : isReady graph ledger step = true) : isReady graph next step = true := by
  obtain ⟨still, free⟩ := isReady_iff.mp ready
  refine isReady_iff.mpr ⟨?_, fun dependency member => ?_⟩
  · by_cases same : step.name = changed
    · rw [same]
      exact own same
    · rw [others _ same]
      exact still
  · have succeeded := free dependency member
    rw [others dependency ?_]
    · exact succeeded
    · rintro rfl
      rw [succeeded] at waiting
      cases waiting

theorem isReady_marked {ledger : Ledger ρ} {marked : Step κ ρ}
    (present : marked.name ∈ ledger.recorded) (hmarked : isReady graph ledger marked = true)
    {step : Step κ ρ} (ready : isReady graph ledger step = true) :
    isReady graph (ledger.ready marked.name) step = true := by
  refine isReady_of_changed (isReady_iff.mp hmarked).1
    (fun name ne => congrArg StepResult.state (Ledger.result_ready_of_ne ledger ne))
    (fun _ => ?_) ready
  rw [Ledger.state, Ledger.result_ready_self present]
  rfl

theorem isReady_started (env : Environment κ ρ σ) {started step : Step κ ρ}
    (hstarted : isReady graph progress.ledger started = true)
    (ne : step.name ≠ started.name) (ready : isReady graph progress.ledger step = true) :
    isReady graph (env.start progress started).ledger step = true :=
  isReady_of_changed (isReady_iff.mp hstarted).1
    (fun _ ne => congrArg StepResult.state (result_start_of_ne env progress ne))
    (fun same => absurd same ne) ready

theorem markReady_reaches (env : Environment κ ρ σ) (parallelism : Nat)
    (present : ∀ step ∈ graph.orderedSteps, step.name ∈ progress.ledger.recorded)
    (running : progress.stopped = false) (steps : List (Step κ ρ))
    (ready : ∀ step ∈ steps,
      step ∈ graph.orderedSteps ∧ isReady graph progress.ledger step = true) :
    env.Reaches graph parallelism IsMark progress
        { progress with ledger := markReady progress.ledger steps }
      ∧ ∀ step, isReady graph progress.ledger step = true →
          isReady graph (markReady progress.ledger steps) step = true := by
  induction steps generalizing progress with
  | nil => exact ⟨.refl progress, fun _ ready => ready⟩
  | cons marked rest ih =>
      obtain ⟨ordered, hmarked⟩ := ready marked List.mem_cons_self
      have acts : env.Acts graph parallelism (.ready marked) progress _ :=
        .ready ordered running hmarked
      have still : ∀ step, isReady graph progress.ledger step = true →
          isReady graph (progress.ledger.ready marked.name) step = true :=
        fun _ ready => isReady_marked (present marked ordered) hmarked ready
      obtain ⟨reaches, kept⟩ :=
        @ih { progress with ledger := progress.ledger.ready marked.name }
        (fun step member => by simpa using present step member) running fun step member =>
          ⟨(ready step (List.mem_cons_of_mem _ member)).1,
            still step (ready step (List.mem_cons_of_mem _ member)).2⟩
      exact ⟨(Reaches.single acts trivial).trans reaches, fun step ready =>
        kept step (still step ready)⟩

theorem mem_inFlight_of_launch {action : Action κ ρ} {name : String}
    (launch : IsLaunch action) (acts : env.Acts graph parallelism action progress next)
    (flying : name ∈ progress.inFlight) :
    name ∈ next.inFlight := by
  cases acts with
  | ready => exact flying
  | start => exact List.mem_append_left _ flying
  | skip | stop | sweep | pause | land => cases launch

theorem fill_reaches (env : Environment κ ρ σ) (wellFormed : graph.WellFormed)
    {steps : List (Step κ ρ)} (nodup : (steps.map (·.name)).Nodup)
    (orderly : Orderly graph parallelism progress) (running : progress.stopped = false)
    (ready : ∀ step ∈ steps,
      step ∈ graph.orderedSteps ∧ isReady graph progress.ledger step = true) :
    ∃ filled, env.fill parallelism steps progress = (none, filled)
      ∧ env.Reaches graph parallelism IsLaunch progress filled
      ∧ (0 < parallelism → filled.inFlight = [] → steps = []) := by
  induction steps generalizing progress with
  | nil => exact ⟨progress, rfl, .refl progress, fun _ _ => rfl⟩
  | cons step rest ih =>
      obtain ⟨ordered, hready⟩ := ready step List.mem_cons_self
      have fresh := orderly.tidy.not_dispatched_of_isWaiting (isReady_iff.mp hready).1
      rw [fill]
      by_cases room : progress.inFlight.length < parallelism
      · have acts : env.Acts graph parallelism (.start step) progress
            (env.start progress step) :=
          .start ordered running hready room
        obtain ⟨distinct, nodup⟩ := List.nodup_cons.mp nodup
        -- The start of one step leaves the others ready.
        obtain ⟨filled, eq, reaches, _⟩ := ih nodup (orderly.acts wellFormed acts) running
          fun other member => by
            obtain ⟨hother, still⟩ := ready other (List.mem_cons_of_mem _ member)
            refine ⟨hother, isReady_started env hready (fun same => ?_) still⟩
            exact distinct (List.mem_map.mpr ⟨other, member, same⟩)
        rw [if_pos room, if_neg fresh]
        refine ⟨filled, eq, (Reaches.single acts trivial).trans reaches, fun _ idle => ?_⟩
        have flying : step.name ∈ filled.inFlight :=
          reaches.preserves (fun later => step.name ∈ later.inFlight)
            (fun launch acts => mem_inFlight_of_launch launch acts) (by simp)
        simp [idle] at flying
      · rw [if_neg room]
        refine ⟨progress, rfl, .refl progress, fun positive idle => ?_⟩
        rw [idle] at room
        exact absurd positive room

theorem mem_readySteps {ledger : Ledger ρ} {step : Step κ ρ} :
    step ∈ readySteps graph ledger ↔ step ∈ graph.orderedSteps
      ∧ isReady graph ledger step = true :=
  List.mem_filter

theorem readySteps_nodup (wellFormed : graph.WellFormed) (ledger : Ledger ρ) :
    ((readySteps graph ledger).map (·.name)).Nodup :=
  (StepGraph.orderedSteps_nodup wellFormed).sublist (List.filter_sublist.map _)

/-- What is ready is marked before the pool is filled, and is still ready then. -/
theorem startReady_marks (env : Environment κ ρ σ) (parallelism : Nat)
    (present : ∀ step ∈ graph.orderedSteps, step.name ∈ progress.ledger.recorded)
    (running : progress.stopped = false) :
    ∃ marked, env.startReady graph parallelism progress =
        env.fill parallelism (readySteps graph progress.ledger) marked
      ∧ env.Reaches graph parallelism IsMark progress marked
      ∧ marked.inFlight = progress.inFlight ∧ marked.stopped = false
      ∧ ∀ step ∈ readySteps graph progress.ledger,
          step ∈ graph.orderedSteps ∧ isReady graph marked.ledger step = true := by
  obtain ⟨marking, kept⟩ := markReady_reaches env parallelism present running
    (readySteps graph progress.ledger) fun step member => mem_readySteps.mp member
  refine ⟨_, if_neg (by simp [running]), marking, rfl, running, fun step member => ?_⟩
  obtain ⟨ordered, ready⟩ := mem_readySteps.mp member
  exact ⟨ordered, kept step ready⟩

theorem startReady_reaches (env : Environment κ ρ σ) (wellFormed : graph.WellFormed)
    (orderly : Orderly graph parallelism progress) :
    ∃ filled, env.startReady graph parallelism progress = (none, filled)
      ∧ env.Reaches graph parallelism IsLaunch progress filled
      ∧ (0 < parallelism → filled.inFlight = [] →
          progress.stopped = true ∨ readySteps graph progress.ledger = []) := by
  by_cases stopped : progress.stopped = true
  · rw [startReady, if_pos stopped]
    exact ⟨progress, rfl, .refl progress, fun _ _ => Or.inl stopped⟩
  · obtain ⟨marked, eq, marking, _, running, ready⟩ := startReady_marks env parallelism
      (fun _ ordered => orderly.present wellFormed ordered) (by simpa using stopped)
    obtain ⟨filled, filling, launching, idle⟩ := fill_reaches env wellFormed
      (readySteps_nodup wellFormed progress.ledger)
      (marking.orderly wellFormed orderly) running ready
    exact ⟨filled, eq.trans filling,
      (marking.weaken fun _ => IsMark.isLaunch).trans launching,
      fun positive none => Or.inr (idle positive none)⟩

theorem collect_reaches (env : Environment κ ρ σ) (graph : StepGraph κ ρ)
    (parallelism : Nat) (flying : progress.inFlight ≠ []) :
    env.Reaches graph parallelism
      (IsEnding (env.await progress.ledger progress.inFlight progress.world).1) progress
      (env.collect progress) := by
  unfold collect
  generalize awaited : env.await progress.ledger progress.inFlight progress.world = answer
  obtain ⟨completions, world⟩ := answer
  have paused : env.Reaches graph parallelism (IsEnding completions) progress
      { progress with world } := by
    have acts : env.Acts graph parallelism .pause progress _ := .pause flying
    rw [awaited] at acts
    exact .single acts trivial
  refine paused.trans (reaches_foldl (fun _ => True) ?_ trivial).1
  intro progress completion _ delivered
  refine ⟨?_, trivial⟩
  by_cases flying : completion.name ∈ progress.inFlight
  · exact .single (.land flying) delivered
  · simp only [record, if_neg flying]
    exact .refl progress

/-- Where the coordinator waits in the turn that begins with a progress. -/
def waiting (env : Environment κ ρ σ) (graph : StepGraph κ ρ) (parallelism : Nat)
    (progress : Progress ρ σ) : Progress ρ σ :=
  (env.startReady graph parallelism
    (env.noticeCancellation graph (env.propagateSkips graph progress))).2

def IsDecision (action : Action κ ρ) : Prop :=
  IsSkip action ∨ IsHalt action ∨ IsLaunch action

theorem waiting_reaches (wellFormed : graph.WellFormed)
    (orderly : Orderly graph parallelism progress) :
    env.Reaches graph parallelism IsDecision progress
      (env.waiting graph parallelism progress) := by
  have skipping := propagateSkips_reaches env graph parallelism progress
  have halting := noticeCancellation_reaches env graph parallelism
    (env.propagateSkips graph progress)
  obtain ⟨filled, eq, filling, _⟩ := startReady_reaches env wellFormed
    (halting.orderly wellFormed (skipping.orderly wellFormed orderly))
  rw [waiting, eq]
  exact (skipping.weaken fun _ => Or.inl).trans
    ((halting.weaken fun _ halt => Or.inr (Or.inl halt)).trans
      (filling.weaken fun _ launch => Or.inr (Or.inr launch)))

theorem mem_inFlight_of_decision {action : Action κ ρ} {name : String}
    (decision : IsDecision action) (acts : env.Acts graph parallelism action progress next)
    (flying : name ∈ progress.inFlight) : name ∈ next.inFlight := by
  cases acts with
  | skip | stop | sweep | ready => exact flying
  | start => exact List.mem_append_left _ flying
  | pause => exact flying
  | land => rcases decision with skip | halt | launch <;> contradiction

theorem mem_inFlight_waiting (wellFormed : graph.WellFormed)
    (orderly : Orderly graph parallelism progress) {name : String}
    (flying : name ∈ progress.inFlight) :
    name ∈ (env.waiting graph parallelism progress).inFlight :=
  (waiting_reaches wellFormed orderly).preserves (fun later => name ∈ later.inFlight)
    mem_inFlight_of_decision flying

theorem turn_cases (env : Environment κ ρ σ) (graph : StepGraph κ ρ) (parallelism : Nat)
    (progress : Progress ρ σ) :
    (∃ failure, env.turn graph parallelism progress
        = (.broken failure, env.waiting graph parallelism progress))
      ∨ (env.waiting graph parallelism progress).inFlight = []
        ∧ env.turn graph parallelism progress =
            (.done, env.waiting graph parallelism progress)
      ∨ (env.waiting graph parallelism progress).inFlight ≠ []
        ∧ env.turn graph parallelism progress
          = (.again, env.collect (env.waiting graph parallelism progress)) := by
  unfold turn waiting
  generalize env.startReady graph parallelism
    (env.noticeCancellation graph (env.propagateSkips graph progress)) = answer
  obtain ⟨_ | failure, stand⟩ := answer
  · by_cases landed : stand.inFlight = []
    · exact Or.inr (Or.inl ⟨landed, by simp [landed]⟩)
    · exact Or.inr (Or.inr ⟨landed, by simp [landed]⟩)
  · exact Or.inl ⟨failure, rfl⟩

/-- A turn is done where nothing flies, and otherwise goes on with what the wait delivers.
It never breaks off. -/
theorem turn_eq (wellFormed : graph.WellFormed)
    (orderly : Orderly graph parallelism progress) :
    env.turn graph parallelism progress =
      if (env.waiting graph parallelism progress).inFlight = [] then
        (.done, env.waiting graph parallelism progress)
      else (.again, env.collect (env.waiting graph parallelism progress)) := by
  have skipping := propagateSkips_reaches env graph parallelism progress
  have halting := noticeCancellation_reaches env graph parallelism
    (env.propagateSkips graph progress)
  obtain ⟨filled, eq, _⟩ := startReady_reaches env wellFormed
    (halting.orderly wellFormed (skipping.orderly wellFormed orderly))
  simp [turn, waiting, eq]

end Environment

end BuildPipeline
