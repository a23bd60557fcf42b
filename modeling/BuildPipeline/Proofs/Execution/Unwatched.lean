import BuildPipeline.Proofs.Execution.Cancellation

namespace BuildPipeline

variable {κ ρ σ α : Type}

/-- What a run came to, without the times at which its steps began and ended. -/
def StepResult.untimed (result : StepResult) : StepResult :=
  { result with started := none, finished := none }

namespace StepResult

@[simp] theorem name_untimed (result : StepResult) :
    result.untimed.name = result.name := rfl

theorem untimed_ended (result : StepResult) (moment : Instant) (state : StepState)
    (error : Option Error) :
    (result.ended moment state error).untimed =
      { result.untimed.tagged state error with state } := by
  cases error <;> rfl

theorem untimed_begun (result : StepResult) (moment : Instant) :
    (result.begun moment).untimed = { result.untimed with state := .running } := rfl

theorem untimed_readied (result : StepResult) :
    result.readied.untimed = result.untimed.readied := rfl

end StepResult

def RunResult.untimed (result : RunResult) : RunResult :=
  { result with steps := result.steps.map StepResult.untimed }

theorem RunResult.untimed_ofSteps (steps : List StepResult) (cancelled : Bool) :
    (ofSteps steps cancelled).untimed = ofSteps
      (steps.map StepResult.untimed) cancelled := by
  have failed : RunResult.failed { steps := steps.map StepResult.untimed }
      = RunResult.failed { steps } := by
    simp only [RunResult.failed, inState, List.filter_map, List.map_map]
    rfl
  unfold ofSteps
  rw [failed]
  split
  · rfl
  · split <;> rfl

def Environment.Ending.untimed : Environment.Ending → Environment.Ending
  | .finished result => .finished result.untimed
  | .broken failure => .broken failure
  | .unfinished => .unfinished

structure Ledger.Alike (first second : Ledger ρ) : Prop where
  register : first.register = second.register
  results : first.results.map StepResult.untimed = second.results.map StepResult.untimed

namespace Ledger

variable {first second : Ledger ρ}

theorem map_result? (ledger : Ledger ρ) (name : String) :
    (ledger.result? name).map StepResult.untimed =
      (ledger.results.map StepResult.untimed).find? (·.name == name) := by
  rw [List.find?_map]
  rfl

theorem results_update (ledger : Ledger ρ) (name : String)
    {change plain : StepResult → StepResult}
    (like : ∀ result, (change result).untimed = plain result.untimed) :
    (ledger.update name change).results.map StepResult.untimed =
      (ledger.results.map StepResult.untimed).map fun result =>
        if result.name == name then plain result else result := by
  simp only [update, List.map_map]
  apply List.map_congr_left
  intro result _
  by_cases here : result.name = name
  · simp [here, like]
  · simp [here]

namespace Alike

theorem refl (ledger : Ledger ρ) : ledger.Alike ledger := ⟨rfl, rfl⟩

theorem result (alike : first.Alike second) (name : String) :
    (first.result name).untimed = (second.result name).untimed := by
  have found : (first.result? name).map StepResult.untimed =
      (second.result? name).map StepResult.untimed := by
    rw [map_result?, map_result?, alike.results]
  simpa [Ledger.result, Option.getD_map] using
    congrArg (fun entry => entry.getD (StepResult.untimed { name })) found

theorem state (alike : first.Alike second) : first.state = second.state := by
  funext name
  have same := congrArg StepResult.state (alike.result name)
  exact same

theorem update (alike : first.Alike second) (name : String)
    {change other : StepResult → StepResult} (plain : StepResult → StepResult)
    (like : ∀ result, (change result).untimed = plain result.untimed)
    (alsoLike : ∀ result, (other result).untimed = plain result.untimed) :
    (first.update name change).Alike (second.update name other) where
  register := alike.register
  results := by
    rw [results_update first name like, results_update second name alsoLike, alike.results]

theorem ended (alike : first.Alike second) (name : String) (moment later : Instant)
    (state : StepState) (error : Option Error) :
    (first.update name (·.ended moment state error)).Alike
      (second.update name (·.ended later state error)) :=
  alike.update name (fun result => { result.tagged state error with state })
    (fun result => result.untimed_ended moment state error)
    fun result => result.untimed_ended later state error

theorem begun (alike : first.Alike second) (name : String) (moment later : Instant) :
    (first.update name (·.begun moment)).Alike (second.update name (·.begun later)) :=
  alike.update name (fun result => { result with state := .running })
    (fun result => result.untimed_begun moment) fun result => result.untimed_begun later

theorem ready (alike : first.Alike second) (name : String) :
    (first.ready name).Alike (second.ready name) :=
  alike.update name StepResult.readied StepResult.untimed_readied StepResult.untimed_readied

theorem marked (alike : first.Alike second) (name : String) :
    Alike { first with register := first.register.markSucceeded name }
      { second with register := second.register.markSucceeded name } where
  register := by rw [alike.register]
  results := alike.results

end Alike

end Ledger

namespace Environment

variable {env : Environment κ ρ σ} {graph : StepGraph κ ρ} {parallelism : Nat}
  {view : σ → α} {watched alone : Progress ρ σ}

/-- A world as it is with nobody watching the run. -/
def unwatched (env : Environment κ ρ σ) : Environment κ ρ σ :=
  { env with hook := fun _ _ world => (.ok (), world) }

/-- A hook that stands aloof of what goes on: there is a view of the world that it never
changes, and the schedule depends on nothing else.  What the hook keeps for itself, how
often it fails, and the time that it takes are left open. -/
structure Aloof (env : Environment κ ρ σ) (view : σ → α) : Prop where
  hook : ∀ ledger event world, view (env.hook ledger event world).2 = view world
  cancelled : ∀ {first second}, view first = view second →
    env.cancelled first = env.cancelled second
  launch : ∀ step {first second}, view first = view second →
    view (env.launch step first) = view (env.launch step second)
  await : ∀ {first second : Ledger ρ} inFlight {here there}, first.Alike second →
    view here = view there →
      (env.await first inFlight here).1 = (env.await second inFlight there).1
        ∧ view (env.await first inFlight here).2 = view (env.await second inFlight there).2

structure Tallies (view : σ → α) (watched alone : Progress ρ σ) : Prop where
  ledger : watched.ledger.Alike alone.ledger
  inFlight : watched.inFlight = alone.inFlight
  dispatched : watched.dispatched = alone.dispatched
  stopped : watched.stopped = alone.stopped
  world : view watched.world = view alone.world

namespace Tallies

theorem refl (view : σ → α) (progress : Progress ρ σ) : Tallies view progress progress :=
  ⟨.refl _, rfl, rfl, rfl, rfl⟩

theorem readySteps (tallies : Tallies view watched alone) :
    readySteps graph watched.ledger = readySteps graph alone.ledger := by
  simp only [Environment.readySteps, funext fun step : Step κ ρ => show
    isReady graph watched.ledger step = isReady graph alone.ledger step by
      rw [isReady, isReady, tallies.ledger.state]]

section Watched

variable (aloof : env.Aloof view)

include aloof

theorem tell (tallies : Tallies view watched alone) (event : Event) :
    Tallies view (env.tell event watched) alone :=
  { tallies with world := (aloof.hook _ _ _).trans tallies.world }

theorem finish (tallies : Tallies view watched alone) (name : String) (state : StepState)
    (error : Option Error) :
    Tallies view (env.finish name state error watched)
      (env.unwatched.finish name state error alone) := by
  apply tell aloof
  exact { tallies with ledger := tallies.ledger.ended name _ _ state error }

theorem preflight (tallies : Tallies view watched alone) (step : Step κ ρ) :
    Tallies view (env.preflight watched step) (env.unwatched.preflight alone step) := by
  unfold Environment.preflight
  cases step.invalid with
  | none => exact tallies
  | some error => exact tallies.finish aloof _ _ _

theorem begin (tallies : Tallies view watched alone) (graph : StepGraph κ ρ) :
    Tallies view (env.begin graph watched) (env.unwatched.begin graph alone) := by
  apply List.foldl_rel (tallies.tell aloof _)
  intro step _ _ _ tallies
  exact tallies.preflight aloof step

theorem skipIfBlocked (tallies : Tallies view watched alone) (step : Step κ ρ) :
    Tallies view (env.skipIfBlocked graph watched step)
      (env.unwatched.skipIfBlocked graph alone step) := by
  have blocking : blockers graph watched.ledger step.name =
      blockers graph alone.ledger step.name := by
    rw [blockers, blockers, tallies.ledger.state]
  simp only [Environment.skipIfBlocked, blocking, tallies.ledger.state]
  split
  · exact tallies.finish aloof _ _ _
  · exact tallies

theorem propagateSkips (tallies : Tallies view watched alone) (graph : StepGraph κ ρ) :
    Tallies view (env.propagateSkips graph watched)
      (env.unwatched.propagateSkips graph alone) := by
  apply List.foldl_rel tallies
  intro step _ _ _ tallies
  exact tallies.skipIfBlocked aloof step

theorem skipWaiting (tallies : Tallies view watched alone) (graph : StepGraph κ ρ)
    (failure : Failure) :
    Tallies view (env.skipWaiting graph failure watched)
      (env.unwatched.skipWaiting graph failure alone) := by
  apply List.foldl_rel tallies
  intro step _ _ _ tallies
  unfold skipIfWaiting
  rw [tallies.ledger.state]
  split
  · exact tallies.finish aloof _ _ _
  · exact tallies

theorem noticeCancellation (tallies : Tallies view watched alone) (graph : StepGraph κ ρ) :
    Tallies view (env.noticeCancellation graph watched)
      (env.unwatched.noticeCancellation graph alone) := by
  have cancelled : env.cancelled watched.world = env.unwatched.cancelled alone.world :=
    aloof.cancelled tallies.world
  unfold Environment.noticeCancellation
  rw [tallies.stopped, cancelled]
  split
  · apply skipWaiting aloof
    exact { tallies with stopped := rfl }
  · exact tallies

theorem start (tallies : Tallies view watched alone) (step : Step κ ρ) :
    Tallies view (env.start watched step) (env.unwatched.start alone step) where
  ledger := tallies.ledger.begun step.name _ _
  inFlight := congrArg (· ++ [step.name]) tallies.inFlight
  dispatched := congrArg (step.name :: ·) tallies.dispatched
  stopped := tallies.stopped
  world := aloof.launch step ((aloof.hook _ _ _).trans tallies.world)

theorem record (tallies : Tallies view watched alone) (completion : Completion) :
    Tallies view (env.record watched completion)
      (env.unwatched.record alone completion) := by
  unfold Environment.record
  rw [tallies.inFlight]
  split
  · cases completion.outcome with
    | ok =>
        apply finish aloof
        exact { tallies with
          ledger := tallies.ledger.marked completion.name
          inFlight := rfl }
    | error =>
        apply finish aloof
        apply tell aloof
        exact { tallies with inFlight := rfl }
  · exact tallies

theorem collect (tallies : Tallies view watched alone) :
    Tallies view (env.collect watched) (env.unwatched.collect alone) := by
  have await := aloof.await watched.inFlight tallies.ledger tallies.world
  rw [tallies.inFlight] at await
  unfold Environment.collect
  dsimp only
  rw [tallies.inFlight, await.1]
  apply List.foldl_rel
  · exact { tallies with
      inFlight := rfl
      world := await.2 }
  · intro completion _ _ _ tallies
    exact tallies.record aloof completion

end Watched

end Tallies

def Agree {τ : Type} (view : σ → α) (watched alone : τ × Progress ρ σ) : Prop :=
  watched.1 = alone.1 ∧ Tallies view watched.2 alone.2

namespace Tallies

section Watched

variable (aloof : env.Aloof view)

include aloof

theorem fill (tallies : Tallies view watched alone) (steps : List (Step κ ρ)) :
    Agree view (env.fill parallelism steps watched)
      (env.unwatched.fill parallelism steps alone) := by
  induction steps generalizing watched alone with
  | nil => exact ⟨rfl, tallies⟩
  | cons step rest ih =>
      simp only [Environment.fill, tallies.inFlight, tallies.dispatched]
      split
      · split
        · exact ⟨rfl, tallies⟩
        · exact ih (tallies.start aloof step)
      · exact ⟨rfl, tallies⟩

theorem startReady (tallies : Tallies view watched alone) (graph : StepGraph κ ρ)
    (parallelism : Nat) :
    Agree view (env.startReady graph parallelism watched)
      (env.unwatched.startReady graph parallelism alone) := by
  unfold Environment.startReady
  rw [tallies.stopped, tallies.readySteps]
  split
  · exact ⟨rfl, tallies⟩
  · apply fill aloof
    exact { tallies with
      stopped := rfl
      ledger :=
        List.foldl_rel tallies.ledger fun step _ _ _ alike => alike.ready step.name }

theorem turn (tallies : Tallies view watched alone) (graph : StepGraph κ ρ)
    (parallelism : Nat) :
    Agree view (env.turn graph parallelism watched)
      (env.unwatched.turn graph parallelism alone) := by
  have noticed := (tallies.propagateSkips aloof graph).noticeCancellation aloof graph
  have filled := noticed.startReady aloof graph parallelism
  unfold Environment.turn
  generalize env.startReady graph parallelism _ = here at filled
  generalize env.unwatched.startReady graph parallelism _ = there at filled
  obtain ⟨failure, watched⟩ := here
  obtain ⟨_, alone⟩ := there
  obtain ⟨rfl, tallies⟩ := filled
  cases failure with
  | some failure => exact ⟨rfl, tallies⟩
  | none =>
      dsimp only at tallies ⊢
      rw [tallies.inFlight]
      split
      · exact ⟨rfl, tallies⟩
      · exact ⟨rfl, tallies.collect aloof⟩

theorem drain (tallies : Tallies view watched alone) (graph : StepGraph κ ρ)
    (parallelism turns : Nat) :
    Agree view (env.drain graph parallelism turns watched)
      (env.unwatched.drain graph parallelism turns alone) := by
  induction turns generalizing watched alone with
  | zero => exact ⟨rfl, tallies⟩
  | succ turns ih =>
      have turned := tallies.turn aloof graph parallelism
      unfold Environment.drain
      generalize env.turn graph parallelism watched = here at turned
      generalize env.unwatched.turn graph parallelism alone = there at turned
      obtain ⟨turn, watched⟩ := here
      obtain ⟨_, alone⟩ := there
      obtain ⟨rfl, tallies⟩ := turned
      cases turn with
      | again => exact ih tallies
      | done => exact ⟨rfl, tallies⟩
      | broken failure => exact ⟨rfl, tallies⟩

theorem conclude (tallies : Tallies view watched alone) (graph : StepGraph κ ρ) :
    (env.conclude graph watched).1.untimed = (env.unwatched.conclude graph alone).1.untimed
      ∧ Tallies view (env.conclude graph watched).2
          (env.unwatched.conclude graph alone).2 := by
  have swept := tallies.skipWaiting aloof graph neverReached
  refine ⟨?_, swept.tell aloof _⟩
  unfold Environment.conclude
  rw [RunResult.untimed_ofSteps, RunResult.untimed_ofSteps,
    swept.ledger.results, swept.stopped]

end Watched

end Tallies

/-- A hook that stands aloof changes nothing about a run.  Whatever it is told and
whichever of its calls fail, the run starts the same steps in the same order, ends with
the same result but for the times, and leaves the same register behind as it does with no
hook at all. -/
theorem run_unwatched (aloof : env.Aloof view) (graph : StepGraph κ ρ) (limit : Int)
    (turns : Nat) (register : Register ρ) (world : σ) :
    (env.run graph limit turns register world).1.untimed =
        (env.unwatched.run graph limit turns register world).1.untimed
      ∧ Tallies view (env.run graph limit turns register world).2
          (env.unwatched.run graph limit turns register world).2 := by
  unfold run
  split
  · exact ⟨rfl, .refl _ _⟩
  · rcases declareAll register graph.steps with ⟨declared, _ | failure⟩
    · have begun := (Tallies.refl view (opening graph declared world)).begin aloof graph
      have drained := begun.drain aloof graph limit.toNat turns
      dsimp only
      generalize env.drain graph limit.toNat turns _ = here at drained
      generalize env.unwatched.drain graph limit.toNat turns _ = there at drained
      obtain ⟨turn, watched⟩ := here
      obtain ⟨_, alone⟩ := there
      obtain ⟨rfl, tallies⟩ := drained
      cases turn with
      | again => exact ⟨rfl, tallies⟩
      | broken failure => exact ⟨rfl, tallies⟩
      | done =>
          obtain ⟨same, concluded⟩ := tallies.conclude aloof graph
          exact ⟨congrArg Ending.finished same, concluded⟩
    · exact ⟨rfl, .refl _ _⟩

/-- A hook that counts its calls, fails at every second one, and takes time. -/
def counted (outcome : String → Except Error Unit) :
    Environment κ ρ (List String × Nat) where
  cancelled _ := false
  now world := ⟨world.2⟩
  launch step world := (step.name :: world.1, world.2)
  await _ inFlight world := (inFlight.map fun name => ⟨name, outcome name⟩, world)
  hook _ _ world :=
    (if world.2 % 2 = 0 then .ok () else .error (.ofFailure (.runtime "out of reach")),
      (world.1, world.2 + 1))

theorem counted_aloof (outcome : String → Except Error Unit) :
    (counted (κ := κ) (ρ := ρ) outcome).Aloof Prod.fst where
  hook _ _ _ := rfl
  cancelled _ := rfl
  launch step _ _ same := congrArg (step.name :: ·) same
  await _ _ _ _ same := ⟨rfl, same⟩

theorem counted_unwatched :
    (counted (κ := Unit) (ρ := Unit) imageFails).Aloof Prod.fst
      ∧ ((counted imageFails).run imaged 1 5 {} ([], 0)).2.world = (["cli"], 6)
      ∧ ((counted imageFails).run imaged 1 5 {} ([], 0)).1.untimed =
          ((counted imageFails).unwatched.run imaged 1 5 {} ([], 0)).1.untimed
      ∧ Tallies Prod.fst ((counted imageFails).run imaged 1 5 {} ([], 0)).2
          ((counted imageFails).unwatched.run imaged 1 5 {} ([], 0)).2 :=
  ⟨counted_aloof _, by decide +kernel, run_unwatched
    (counted_aloof _) imaged 1 5 {} ([], 0)⟩

end Environment

end BuildPipeline
