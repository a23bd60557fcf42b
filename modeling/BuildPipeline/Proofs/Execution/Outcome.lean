import BuildPipeline.Proofs.Execution.Course
import BuildPipeline.Proofs.Execution.Loop

namespace BuildPipeline

variable {κ ρ σ : Type}

namespace Environment

variable {env : Environment κ ρ σ} {graph : StepGraph κ ρ} {acyclic : graph.Acyclic}
  {outcome : String → Except Error Unit} {parallelism turns : Nat}
  {first progress next : Progress ρ σ}

theorem drain_add (again : env.drain graph parallelism turns first = (.again, progress))
    (more : Nat) :
    env.drain graph parallelism (turns + more) first =
      env.drain graph parallelism more progress := by
  induction turns generalizing first with
  | zero =>
      cases again
      rw [Nat.zero_add]
  | succ turns ih =>
      rw [Nat.succ_add]
      rw [drain] at again ⊢
      rcases taken : env.turn graph parallelism first with ⟨_ | _ | failure, stand⟩
      · simp only [taken] at again ⊢
        exact ih again
      · simp [taken] at again
      · simp [taken] at again

theorem drain_done_add (done : env.drain graph parallelism turns first = (.done, progress))
    (more : Nat) :
    env.drain graph parallelism (turns + more) first = (.done, progress) := by
  induction turns generalizing first with
  | zero => cases done
  | succ turns ih =>
      rw [Nat.succ_add]
      rw [drain] at done ⊢
      rcases taken : env.turn graph parallelism first with ⟨_ | _ | failure, stand⟩
      · simp only [taken] at done ⊢
        exact ih done
      · simpa only [taken] using done
      · simp [taken] at done

/-- What the world has to leave alone: no top of the loop finds the run cancelled, and a
wait delivers every step with its own outcome.  How many steps a wait delivers, and which,
is left open.  A world is fair if no step stays in flight for ever. -/
structure Undisturbed (env : Environment κ ρ σ) (graph : StepGraph κ ρ) (parallelism : Nat)
    (outcome : String → Except Error Unit) (first : Progress ρ σ) : Prop where
  uncancelled : ∀ turns top, env.drain graph parallelism turns first = (.again, top) →
    env.cancelled (env.propagateSkips graph top).world = false
  delivered : ∀ turns top, env.drain graph parallelism turns first = (.again, top) →
    ∀ completion ∈ (env.await (env.waiting graph parallelism top).ledger
        (env.waiting graph parallelism top).inFlight
        (env.waiting graph parallelism top).world).1,
      completion.name ∈ (env.waiting graph parallelism top).inFlight →
        completion.outcome = outcome completion.name

def Fair (env : Environment κ ρ σ) (graph : StepGraph κ ρ) (parallelism : Nat)
    (first : Progress ρ σ) : Prop :=
  ∀ turns top, env.drain graph parallelism turns first = (.again, top) →
    ∀ name ∈ top.inFlight, ∃ more, ∀ later,
      env.drain graph parallelism (turns + more) first = (.again, later) →
        name ∉ later.inFlight

theorem Undisturbed.after (undisturbed : env.Undisturbed graph parallelism outcome first)
    (again : env.drain graph parallelism turns first = (.again, progress)) :
    env.Undisturbed graph parallelism outcome progress where
  uncancelled more top drained :=
    undisturbed.uncancelled _ top ((drain_add again more).trans drained)
  delivered more top drained :=
    undisturbed.delivered _ top ((drain_add again more).trans drained)

theorem Fair.after (fair : env.Fair graph parallelism first)
    (again : env.drain graph parallelism turns first = (.again, progress)) :
    env.Fair graph parallelism progress := by
  intro more top drained name flying
  obtain ⟨further, gone⟩ := fair _ top ((drain_add again more).trans drained) name flying
  refine ⟨further, fun later drained => gone later ?_⟩
  rw [Nat.add_assoc, drain_add again]
  exact drained

theorem noticeCancellation_of_uncancelled
    (uncancelled : env.cancelled progress.world = false) :
    env.noticeCancellation graph progress = progress := by
  simp [noticeCancellation, uncancelled]

theorem OnCourse.propagated (env : Environment κ ρ σ)
    (course : OnCourse graph acyclic outcome parallelism progress)
    (wellFormed : graph.WellFormed) :
    OnCourse graph acyclic outcome parallelism (env.propagateSkips graph progress) := by
  refine course.reaches wellFormed
    (propagateSkips_reaches env graph parallelism progress) ?_
  intro action skip
  cases action with
  | skip => trivial
  | _ => cases skip

theorem OnCourse.waiting (course : OnCourse graph acyclic outcome parallelism progress)
    (wellFormed : graph.WellFormed)
    (uncancelled : env.cancelled (env.propagateSkips graph progress).world = false) :
    OnCourse graph acyclic outcome parallelism
      (env.waiting graph parallelism progress) := by
  have skipping := course.propagated env wellFormed
  obtain ⟨filled, eq, filling, _⟩ := startReady_reaches env wellFormed skipping.orderly
  rw [Environment.waiting, noticeCancellation_of_uncancelled uncancelled, eq]
  refine skipping.reaches wellFormed filling fun action launch => ?_
  cases action with
  | ready | start => trivial
  | _ => cases launch

theorem mem_inFlight_of_land {action : Action κ ρ} {completions : List Completion}
    (ending : IsEnding completions action)
    (acts : env.Acts graph parallelism action progress next) :
    next.inFlight ⊆ progress.inFlight := by
  cases acts with
  | pause => exact fun _ member => member
  | land flying =>
      rw [inFlight_record env flying]
      exact List.erase_subset
  | skip | stop | sweep | ready | start => cases ending

/-- Whatever a wait delivers, and in whatever order, leaves the run on its course. -/
theorem OnCourse.collect (course : OnCourse graph acyclic outcome parallelism progress)
    (wellFormed : graph.WellFormed) (flying : progress.inFlight ≠ [])
    (delivered :
      ∀ completion ∈ (env.await progress.ledger progress.inFlight progress.world).1,
      completion.name ∈ progress.inFlight → completion.outcome = outcome completion.name) :
    OnCourse graph acyclic outcome parallelism (env.collect progress) := by
  have reaches := collect_reaches env graph parallelism flying
  refine (reaches.preserves (fun later =>
    OnCourse graph acyclic outcome parallelism later ∧ later.inFlight ⊆ progress.inFlight)
    ?_ ⟨course, fun _ member => member⟩).1
  intro action before after ending acts ⟨course, within⟩
  refine ⟨course.acts wellFormed ?_ acts,
    List.Subset.trans (mem_inFlight_of_land ending acts) within⟩
  cases acts with
  | pause => trivial
  | land flying => exact delivered _ ending (within flying)
  | skip | stop | sweep | ready | start => cases ending

theorem startReady_of_none_ready (none_ready : readySteps graph progress.ledger = []) :
    env.startReady graph parallelism progress = (none, progress) := by
  unfold startReady
  split
  · rfl
  · rw [none_ready]
    rfl

theorem isTerminal_of_resting (orderly : Orderly graph parallelism progress)
    {step : Step κ ρ} (grounded : step.name ∉ progress.inFlight)
    (unready : isReady graph progress.ledger step = false)
    (unstuck : ¬ IsStuck graph progress.ledger step.name)
    (before : ∀ before, graph.Precedes before step.name →
      (progress.ledger.state before).isTerminal = true) :
    (progress.ledger.state step.name).isTerminal = true := by
  -- A step that waits and is not ready has a dependency that has not succeeded.
  have free_of_succeeded (waiting : (progress.ledger.state step.name).isWaiting = true) :
      ∃ earlier, graph.Precedes earlier step.name
        ∧ progress.ledger.state earlier ≠ .succeeded := by
    by_contra free
    push Not at free
    have ready := isReady_iff.mpr ⟨waiting, fun dependency member =>
      free dependency (StepGraph.mem_dependencies_iff_precedes.mp member)⟩
    rw [unready] at ready
    cases ready
  cases state : progress.ledger.state step.name with
  | succeeded | failed | skipped => rfl
  | running => exact absurd ((orderly.running_iff _).mp state) grounded
  | runnable =>
      obtain ⟨earlier, edge, unsuccessful⟩ := free_of_succeeded (by simp [state])
      exact absurd (orderly.free _ (Or.inl state) earlier
        (StepGraph.mem_dependencies_iff_precedes.mpr edge)) unsuccessful
  | pending =>
      obtain ⟨earlier, edge, unsuccessful⟩ := free_of_succeeded (by simp [state])
      refine absurd (isStuck_iff.mpr ⟨state, earlier, edge, ?_⟩) unstuck
      have ended := before earlier edge
      cases earlierState : progress.ledger.state earlier with
      | failed | skipped => rfl
      | succeeded => exact absurd earlierState unsuccessful
      | pending | runnable | running => simp [earlierState, StepState.isTerminal] at ended

def HasSettled (graph : StepGraph κ ρ) (progress : Progress ρ σ) : Prop :=
  ∀ name ∈ graph.names, (progress.ledger.state name).isTerminal = true

/-- Where nothing is left to wait for, and no cancellation was seen, every step has come
to its end. -/
theorem hasSettled_of_landed (wellFormed : graph.WellFormed) (acyclic : graph.Acyclic)
    (orderly : Orderly graph parallelism progress) (positive : 0 < parallelism)
    (running : (env.waiting graph parallelism progress).stopped = false)
    (landed : (env.waiting graph parallelism progress).inFlight = []) :
    HasSettled graph (env.waiting graph parallelism progress) := by
  have skipped :=
    (propagateSkips_reaches env graph parallelism progress).orderly wellFormed orderly
  have halting :=
    noticeCancellation_reaches env graph parallelism (env.propagateSkips graph progress)
  obtain ⟨filled, filling, launches, idle⟩ :=
    startReady_reaches env wellFormed (halting.orderly wellFormed skipped)
  rw [Environment.waiting, filling] at running landed ⊢
  have unseen := noticeCancellation_of_running (launches.running running)
  rw [unseen] at filling launches idle
  -- With room for a step and none in flight, no step can have been ready.
  have none_ready : readySteps graph (env.propagateSkips graph progress).ledger = [] :=
    (idle positive landed).resolve_left (by simp [launches.running running])
  rw [startReady_of_none_ready none_ready] at filling
  cases filling
  have grounded : (env.propagateSkips graph progress).inFlight = [] := landed
  intro name member
  induction name using acyclic.wellFounded.induction with
  | _ name ih =>
      obtain ⟨step, found, rfl⟩ := StepGraph.step?_isSome wellFormed member
      have ordered := StepGraph.mem_orderedSteps_of_acyclic wellFormed acyclic
        ((StepGraph.step?_eq_some_iff wellFormed).mp found).1
      refine isTerminal_of_resting skipped (by simp [grounded]) ?_
        (not_isStuck_propagateSkips env wellFormed orderly.recorded ordered)
        fun before edge => ih before edge (wellFormed.before_mem edge)
      by_contra ready
      have listed := mem_readySteps.mpr ⟨ordered, by simpa using ready⟩
      rw [none_ready] at listed
      cases listed

theorem drain_settled (wellFormed : graph.WellFormed) (acyclic : graph.Acyclic)
    (orderly : Orderly graph parallelism first) (positive : 0 < parallelism)
    (done : env.drain graph parallelism turns first = (.done, progress))
    (running : progress.stopped = false) : HasSettled graph progress := by
  induction turns generalizing first with
  | zero => cases done
  | succ turns ih =>
      rw [drain, turn_eq wellFormed orderly] at done
      by_cases landed : (env.waiting graph parallelism first).inFlight = []
      · rw [if_pos landed] at done
        cases done
        exact hasSettled_of_landed wellFormed acyclic orderly positive running landed
      · rw [if_neg landed] at done
        exact ih ((reaches_collect wellFormed orderly landed).orderly wellFormed orderly)
          done

theorem turn_onCourse (course : OnCourse graph acyclic outcome parallelism first)
    (wellFormed : graph.WellFormed) (positive : 0 < parallelism)
    (undisturbed : env.Undisturbed graph parallelism outcome first) :
    ∃ next, OnCourse graph acyclic outcome parallelism next
      ∧ (env.turn graph parallelism first = (.again, next)
        ∨ env.turn graph parallelism first = (.done, next) ∧ HasSettled graph next) := by
  have uncancelled := undisturbed.uncancelled 0 first rfl
  have waiting := course.waiting wellFormed uncancelled
  rw [turn_eq wellFormed course.orderly]
  by_cases landed : (env.waiting graph parallelism first).inFlight = []
  · rw [if_pos landed]
    exact ⟨_, waiting, Or.inr ⟨rfl,
      hasSettled_of_landed wellFormed acyclic course.orderly positive
        waiting.unstopped landed⟩⟩
  · rw [if_neg landed]
    exact ⟨_, waiting.collect wellFormed landed (undisturbed.delivered 0 first rfl),
      Or.inl rfl⟩

theorem drain_one (again : env.turn graph parallelism first = (.again, next)) :
    env.drain graph parallelism 1 first = (.again, next) := by
  rw [drain, again]
  rfl

theorem drain_onCourse (course : OnCourse graph acyclic outcome parallelism first)
    (wellFormed : graph.WellFormed) (positive : 0 < parallelism)
    (undisturbed : env.Undisturbed graph parallelism outcome first) (turns : Nat) :
    ∃ reached, OnCourse graph acyclic outcome parallelism reached
      ∧ (env.drain graph parallelism turns first = (.again, reached)
        ∨ env.drain graph parallelism turns first = (.done, reached)
            ∧ HasSettled graph reached) := by
  induction turns generalizing first with
  | zero => exact ⟨first, course, Or.inl rfl⟩
  | succ turns ih =>
      obtain ⟨next, coming, again | ⟨done, settled⟩⟩ :=
        turn_onCourse course wellFormed positive undisturbed
      · rw [Nat.add_comm, drain_add (drain_one again)]
        exact ih coming (undisturbed.after (drain_one again))
      · rw [drain, done]
        exact ⟨next, coming, Or.inr ⟨rfl, settled⟩⟩

/-- The run ends because the steps that are not at their end get fewer. -/
def unsettled (graph : StepGraph κ ρ) (progress : Progress ρ σ) : List String :=
  graph.names.filter fun name => !(progress.ledger.state name).isTerminal

theorem isTerminal_of_reaches {allowed : Action κ ρ → Prop} (wellFormed : graph.WellFormed)
    (orderly : Orderly graph parallelism progress)
    (reaches : env.Reaches graph parallelism allowed progress next) {name : String}
    (terminal : (progress.ledger.state name).isTerminal = true) :
    (next.ledger.state name).isTerminal = true := by
  refine (reaches.preserves (fun later =>
    Orderly graph parallelism later ∧ (later.ledger.state name).isTerminal = true)
    ?_ ⟨orderly, terminal⟩).2
  intro action before after _ acts ⟨orderly, terminal⟩
  exact ⟨orderly.acts wellFormed acts,
    (orderly.tidy.state_of_isTerminal acts terminal) ▸ terminal⟩

theorem mem_dispatched_of_reaches {allowed : Action κ ρ → Prop}
    (reaches : env.Reaches graph parallelism allowed progress next) {name : String}
    (started : name ∈ progress.dispatched) : name ∈ next.dispatched := by
  refine reaches.preserves (fun later => name ∈ later.dispatched)
    (fun _ acts started => ?_) started
  rw [acts.dispatched]
  exact List.mem_append_right _ started

theorem length_unsettled_lt {allowed : Action κ ρ → Prop} (wellFormed : graph.WellFormed)
    (orderly : Orderly graph parallelism first)
    (reaches : env.Reaches graph parallelism allowed first next) {name : String}
    (member : name ∈ graph.names) (ahead : (first.ledger.state name).isTerminal = false)
    (started : name ∈ next.dispatched) (gone : name ∉ next.inFlight) :
    (unsettled graph next).length < (unsettled graph first).length := by
  have later := reaches.orderly wellFormed orderly
  have ended : (next.ledger.state name).isTerminal = true := by
    rcases later.started name started with running | succeeded | failed
    · exact absurd ((later.running_iff name).mp running) gone
    · simp [succeeded, StepState.isTerminal]
    · simp [failed, StepState.isTerminal]
  have fewer : (unsettled graph next).Sublist (unsettled graph first) := by
    refine List.monotone_filter_right _ fun other unended => ?_
    rw [Bool.not_eq_true'] at unended ⊢
    by_contra terminal
    rw [isTerminal_of_reaches wellFormed orderly reaches
      (by simpa using terminal)] at unended
    cases unended
  refine lt_of_le_of_ne fewer.length_le fun same => ?_
  have listed : name ∈ unsettled graph first :=
    List.mem_filter.mpr ⟨member, by simp [ahead]⟩
  rw [← fewer.eq_of_length same, unsettled, List.mem_filter, ended] at listed
  cases listed.2

theorem Fair.lands_after (fair : env.Fair graph parallelism first)
    (again : env.drain graph parallelism turns first = (.again, progress)) (name : String) :
    ∃ more, ∀ later, env.drain graph parallelism (turns + more) first = (.again, later) →
      name ∉ later.inFlight := by
  by_cases flying : name ∈ progress.inFlight
  · exact fair turns progress again name flying
  · refine ⟨0, fun later drained => ?_⟩
    rw [Nat.add_zero, again] at drained
    cases drained
    exact flying

/-- Whatever becomes of its steps, a run in a fair world is done after some turns. -/
theorem drain_done (wellFormed : graph.WellFormed)
    (orderly : Orderly graph parallelism first) (fair : env.Fair graph parallelism first) :
    ∃ turns reached, env.drain graph parallelism turns first = (.done, reached) := by
  -- Some step in flight lands within finitely many turns, which leaves fewer unsettled.
  induction size : (unsettled graph first).length using Nat.strong_induction_on
    generalizing first with
  | _ size ih =>
      by_cases landed : (env.waiting graph parallelism first).inFlight = []
      · refine ⟨1, env.waiting graph parallelism first, ?_⟩
        rw [drain, turn_eq wellFormed orderly, if_pos landed]
      · obtain ⟨name, flying⟩ := List.exists_mem_of_ne_nil _ landed
        have turned : env.turn graph parallelism first =
            (.again, env.collect (env.waiting graph parallelism first)) := by
          rw [turn_eq wellFormed orderly, if_neg landed]
        obtain ⟨more, gone⟩ := fair.lands_after (drain_one turned) name
        obtain ⟨far, ending⟩ := drain_reaches env wellFormed orderly (1 + more)
        rcases drained : env.drain graph parallelism (1 + more) first with ⟨turn, reached⟩
        rw [drained] at far ending
        rcases ending with rfl | rfl
        · have waits := reaches_waiting env wellFormed orderly
          have held := waits.orderly wellFormed orderly
          have running := (held.running_iff name).mpr flying
          have ahead : (first.ledger.state name).isTerminal = false := by
            by_contra terminal
            have ended :=
              isTerminal_of_reaches wellFormed orderly waits (by simpa using terminal)
            rw [running] at ended
            cases ended
          have collects := (collect_reaches env graph parallelism landed).weaken
            fun _ _ => trivial
          have goes := (drain_reaches env wellFormed
            (collects.orderly wellFormed held) more).1
          rw [← drain_add (drain_one turned), drained] at goes
          have started :=
            mem_dispatched_of_reaches (collects.trans goes) (held.launched name flying)
          have fewer := length_unsettled_lt wellFormed orderly far
            (held.tidy.mem_names_of_flying flying) ahead started (gone reached drained)
          obtain ⟨turns, ended, done⟩ :=
            ih _ (size ▸ fewer) (far.orderly wellFormed orderly) (fair.after drained) rfl
          exact ⟨1 + more + turns, ended, (drain_add drained turns).trans done⟩
        · exact ⟨1 + more, reached, drained⟩

theorem skipWaiting_of_hasSettled (env : Environment κ ρ σ) (wellFormed : graph.WellFormed)
    (settled : HasSettled graph progress) :
    env.skipWaiting graph neverReached progress = progress := by
  unfold skipWaiting
  refine List.foldlRecOn graph.orderedSteps _ (motive := (· = progress)) rfl ?_
  rintro before rfl step ordered
  refine if_neg fun waiting => ?_
  have ended := settled step.name (name_mem_names wellFormed ordered)
  rw [StepState.isTerminal_of_isWaiting waiting] at ended
  cases ended

theorem conclude_of_hasSettled (env : Environment κ ρ σ) (wellFormed : graph.WellFormed)
    (settled : HasSettled graph progress) :
    env.conclude graph progress =
      (RunResult.ofSteps progress.ledger.results progress.stopped,
        env.tell (.pipelineEnd (RunResult.ofSteps progress.ledger.results progress.stopped))
          progress) := by
  simp only [conclude, skipWaiting_of_hasSettled env wellFormed settled]

theorem run_of_drain {limit : Int} (least : 1 ≤ limit) {register declared : Register ρ}
    {world : σ} (accepted : declareAll register graph.steps = (declared, none))
    (turns : Nat) :
    env.run graph limit turns register world =
      match env.drain graph limit.toNat turns (env.entry graph declared world) with
      | (.again, progress) => (.unfinished, progress)
      | (.broken failure, progress) => (.broken failure, progress)
      | (.done, progress) =>
          (.finished (env.conclude graph progress).1, (env.conclude graph progress).2) := by
  rw [run, if_neg (by omega), accepted]
  rfl

theorem run_ends (env : Environment κ ρ σ) (wellFormed : graph.WellFormed) {limit : Int}
    (least : 1 ≤ limit) {register declared : Register ρ}
    (accepted : declareAll register graph.steps = (declared, none)) (world : σ)
    (turns : Nat) :
    ∃ stand, (∃ result, env.run graph limit turns register world =
      (.finished result, stand))
      ∨ env.run graph limit turns register world = (.unfinished, stand) := by
  have orderly := orderly_entry env wellFormed limit.toNat declared world
  have ending := (drain_reaches env wellFormed orderly turns).2
  rw [run_of_drain least accepted]
  rcases drained : env.drain graph limit.toNat turns (env.entry graph declared world)
    with ⟨turn, stand⟩
  rw [drained] at ending
  rcases ending with rfl | rfl
  · exact ⟨stand, .inr rfl⟩
  · exact ⟨_, .inl ⟨_, rfl⟩⟩

theorem run_of_done {limit : Int} (least : 1 ≤ limit) {register declared : Register ρ}
    {world : σ} (accepted : declareAll register graph.steps = (declared, none))
    {enough : Nat}
    (done : env.drain graph limit.toNat enough (env.entry graph declared world) =
      (.done, progress)) :
    ∀ turns, enough ≤ turns → ∃ result reached,
      env.run graph limit turns register world = (.finished result, reached) := by
  intro turns more
  have drained := drain_done_add done (turns - enough)
  rw [Nat.add_sub_cancel' more] at drained
  rw [run_of_drain least accepted, drained]
  exact ⟨_, _, rfl⟩

theorem run_finishes (env : Environment κ ρ σ) (wellFormed : graph.WellFormed) {limit : Int}
    (least : 1 ≤ limit) {register declared : Register ρ} {world : σ}
    (accepted : declareAll register graph.steps = (declared, none))
    (fair : env.Fair graph limit.toNat (env.entry graph declared world)) :
    ∃ enough, ∀ turns, enough ≤ turns → ∃ result reached,
      env.run graph limit turns register world = (.finished result, reached) := by
  obtain ⟨enough, reached, done⟩ :=
    drain_done wellFormed (orderly_entry env wellFormed limit.toNat declared world) fair
  exact ⟨enough, run_of_done least accepted done⟩

theorem run_disputed (env : Environment κ ρ σ) {limit : Int} (least : 1 ≤ limit)
    {register : Register ρ} (world : σ) (disputed : ¬ Undisputed register graph.steps) :
    ∃ name first second, Disputes register graph.steps name first second
      ∧ ∀ turns, env.run graph limit turns register world =
          (.broken (Register.conflict name first second),
            opening graph (declareAll register graph.steps).1 world) := by
  rcases answer : declareAll register graph.steps with ⟨declared, _ | failure⟩
  · exact absurd ((declareAll_eq_none_iff _ _).mp (congrArg Prod.snd answer)) disputed
  · obtain ⟨name, first, second, disputes, rfl⟩ :=
      declareAll_eq_some (congrArg Prod.snd answer)
    refine ⟨name, first, second, disputes, fun turns => ?_⟩
    rw [run, if_neg (by omega), answer]

theorem results_of_hasSettled (course : OnCourse graph acyclic outcome parallelism progress)
    (wellFormed : graph.WellFormed) (settled : HasSettled graph progress) :
    progress.ledger.results.map (·.name) = graph.names
      ∧ ∀ result ∈ progress.ledger.results,
          result.verdict = graph.fate acyclic outcome result.name := by
  have recorded := course.orderly.recorded
  have nodup : progress.ledger.recorded.Nodup := recorded ▸ wellFormed.names_nodup
  refine ⟨recorded, fun result member => ?_⟩
  rw [Ledger.results_eq_map nodup, recorded] at member
  obtain ⟨name, listed, rfl⟩ := List.mem_map.mp member
  rw [Ledger.name_result]
  exact course.ended name (settled name listed)

theorem run_meets_fates (env : Environment κ ρ σ) (wellFormed : graph.WellFormed)
    (acyclic : graph.Acyclic) (outcome : String → Except Error Unit) {limit : Int}
    (least : 1 ≤ limit) {register declared : Register ρ} {world : σ}
    (accepted : declareAll register graph.steps = (declared, none))
    (undisturbed :
      env.Undisturbed graph limit.toNat outcome (env.entry graph declared world)) :
    (env.Fair graph limit.toNat (env.entry graph declared world) →
        ∃ enough, ∀ turns, enough ≤ turns → ∃ result reached,
          env.run graph limit turns register world = (.finished result, reached))
      ∧ ∀ turns result reached,
          env.run graph limit turns register world = (.finished result, reached) →
            result.steps.map (·.name) = graph.names
              ∧ ∀ entry ∈ result.steps, entry.verdict =
                  graph.fate acyclic outcome entry.name := by
  have course := onCourse_entry env wellFormed acyclic outcome limit.toNat declared world
  have positive : 0 < limit.toNat := by omega
  constructor
  · exact run_finishes env wellFormed least accepted
  · intro turns result reached finished
    rw [run_of_drain least accepted] at finished
    obtain ⟨stand, coming, again | ⟨done, settled⟩⟩ :=
      drain_onCourse course wellFormed positive undisturbed turns
    · simp [again] at finished
    · simp only [done, conclude_of_hasSettled env wellFormed settled] at finished
      cases finished
      rw [RunResult.steps_ofSteps]
      exact results_of_hasSettled coming wellFormed settled

theorem steady_undisturbed (outcome : String → Except Error Unit)
    (first : Progress ρ (List String)) :
    (steady (κ := κ) outcome).Undisturbed graph parallelism outcome first where
  uncancelled _ _ _ := rfl
  delivered _ _ _ completion member _ := by
    obtain ⟨name, _, rfl⟩ := List.mem_map.mp member
    rfl

theorem steady_fair (outcome : String → Except Error Unit)
    {first : Progress ρ (List String)} (landed : first.inFlight = []) :
    (steady (κ := κ) outcome).Fair graph parallelism first := by
  intro turns top drained name flying
  rw [inFlight_drain_steady landed drained] at flying
  cases flying

def diamond : StepGraph Unit Unit where
  steps := ["src", "cli", "api", "done"].map fun name => { name, work := () }
  edges := [("src", "cli"), ("src", "api"), ("cli", "done"), ("api", "done")]

theorem diamond_acyclic : diamond.Acyclic :=
  StepGraph.acyclic_of_rank diamond.names.idxOf (by decide)

/-- The outcome of every run that nobody cancels.  If a parameter is disputed, by two
steps or by a step and somebody else before the run, the run breaks off with the first
such conflict before any step starts.  Otherwise it ends, if the steps in flight do, and
in the end every step has met its fate: an invalid step has failed, any other was skipped
if something it depends on did not succeed, and has else ended as it does by itself.  The
fates know nothing of the pool or of what the waits delivered, and a step has the same
fate wherever it and the steps that it depends on are the same. -/
theorem run_outcome (env : Environment κ ρ σ) (wellFormed : graph.WellFormed)
    (acyclic : graph.Acyclic) (outcome : String → Except Error Unit) {limit : Int}
    (least : 1 ≤ limit) (register : Register ρ) (world : σ)
    (undisturbed : ∀ declared, declareAll register graph.steps = (declared, none) →
      env.Undisturbed graph limit.toNat outcome (env.entry graph declared world)) :
    (¬ Undisputed register graph.steps →
        ∃ name one two, Disputes register graph.steps name one two
          ∧ ∀ turns, env.run graph limit turns register world =
              (.broken (Register.conflict name one two),
                opening graph (declareAll register graph.steps).1 world))
      ∧ (Undisputed register graph.steps → ∃ declared,
        declareAll register graph.steps = (declared, none)
          ∧ (env.Fair graph limit.toNat (env.entry graph declared world) →
            ∃ enough, ∀ turns, enough ≤ turns → ∃ result reached,
              env.run graph limit turns register world = (.finished result, reached))
          ∧ ∀ turns result reached,
              env.run graph limit turns register world = (.finished result, reached) →
                result.steps.map (·.name) = graph.names
                  ∧ ∀ entry ∈ result.steps,
                      entry.verdict = graph.fate acyclic outcome entry.name)
      ∧ (∀ step ∈ graph.steps,
        (∀ error, step.invalid = some error →
            graph.fate acyclic outcome step.name =
              .ofError (error.because Reason.validating))
          ∧ (step.invalid = none →
              ((∃ before, graph.Precedes before step.name
                  ∧ (graph.fate acyclic outcome before).state ≠ .succeeded) →
                graph.fate acyclic outcome step.name =
                  { state := .skipped, reason := Reason.skipped })
              ∧ ((∀ before, graph.Precedes before step.name →
                  (graph.fate acyclic outcome before).state = .succeeded) →
                graph.fate acyclic outcome step.name = .ofOutcome (outcome step.name))))
      ∧ ∀ (other : StepGraph κ ρ) (acyclic' : other.Acyclic)
          (outcome' : String → Except Error Unit) (name : String),
        (∀ before, Relation.ReflTransGen graph.Precedes before name →
          (∀ earlier, other.Precedes earlier before ↔ graph.Precedes earlier before)
            ∧ (other.step? before).map (·.invalid) = (graph.step? before).map (·.invalid)
            ∧ outcome' before = outcome before) →
          other.fate acyclic' outcome' name = graph.fate acyclic outcome name := by
  refine ⟨run_disputed env least world, fun undisputed => ?_, fun step member => ?_,
    fun other acyclic' outcome' name => StepGraph.fate_congr acyclic acyclic'⟩
  · obtain ⟨declared, accepted⟩ : ∃ declared, declareAll register graph.steps =
        (declared, none) :=
      ⟨_, Prod.ext rfl ((declareAll_eq_none_iff _ _).mpr undisputed)⟩
    exact ⟨declared, accepted, run_meets_fates env wellFormed acyclic outcome least accepted
      (undisturbed declared accepted)⟩
  · have found := (StepGraph.step?_eq_some_iff wellFormed).mpr ⟨member, rfl⟩
    have due := StepGraph.fate_eq_due acyclic outcome found
    refine ⟨fun error invalid => ?_, fun valid => ⟨?_, fun free => ?_⟩⟩
    · rw [due, Verdict.due_of_invalid invalid]
    · rintro ⟨before, edge, unsuccessful⟩
      have blocked : graph.spared acyclic outcome step.name = false := by
        rw [← Bool.not_eq_true, StepGraph.spared_iff]
        exact fun free => unsuccessful (free before edge)
      rw [due, blocked, Verdict.due_of_blocked valid]
    · rw [due, StepGraph.spared_iff.mpr free, Verdict.due_of_free valid]

def apiFails (name : String) : Except Error Unit :=
  if name = "api" then .error (.ofFailure (.runtime "no such base image")) else .ok ()

theorem diamond_outcome :
    diamond.WellFormed ∧ diamond.Acyclic ∧ ∃ enough, ∀ turns, enough ≤ turns →
      ∃ result reached, (steady apiFails).run diamond 2 turns {} [] =
        (.finished result, reached)
        ∧ ∀ entry ∈ result.steps,
            entry.verdict = diamond.fate diamond_acyclic apiFails entry.name := by
  have wellFormed : diamond.WellFormed := by decide
  have accepted : (declareAll {} diamond.steps).2 = none := rfl
  have landed := fun declared => (entry_eq (steady apiFails) wellFormed declared []).1
  obtain ⟨_, settles, _, _⟩ :=
    run_outcome (steady apiFails) wellFormed diamond_acyclic apiFails
    (by decide : (1 : Int) ≤ 2) {} [] fun declared _ => steady_undisturbed apiFails _
  obtain ⟨declared, _, ends, fates⟩ := settles ((declareAll_eq_none_iff _ _).mp accepted)
  obtain ⟨enough, ends⟩ := ends (steady_fair apiFails (landed declared))
  refine ⟨wellFormed, diamond_acyclic, enough, fun turns more => ?_⟩
  obtain ⟨result, reached, finished⟩ := ends turns more
  exact ⟨result, reached, finished, (fates turns result reached finished).2⟩

def disputed : StepGraph Unit Unit where
  steps :=
    ["amd64", "arm64"].map fun name => { name, provides := [("IMAGE", ())], work := () }
  edges := []

/-- The world in which every wait is given up before a step has ended. -/
def unheeded : Environment κ ρ (List String) :=
  { steady fun _ => .ok () with await := fun _ _ launched => ([], launched) }

theorem unheeded_undisturbed (outcome : String → Except Error Unit)
    (first : Progress ρ (List String)) :
    (unheeded (κ := κ)).Undisturbed graph parallelism outcome first where
  uncancelled _ _ _ := rfl
  delivered _ _ _ _ member _ := nomatch member

/-- Where no wait brings anything, a run that waits once waits for ever. -/
theorem drain_of_silent (wellFormed : graph.WellFormed)
    (silent : ∀ ledger inFlight world, (env.await ledger inFlight world).1 = [])
    (orderly : Orderly graph parallelism first)
    (flying : (env.waiting graph parallelism first).inFlight ≠ []) (turns : Nat) :
    ∃ top, env.drain graph parallelism turns first = (.again, top) := by
  induction turns generalizing first with
  | zero => exact ⟨first, rfl⟩
  | succ turns ih =>
      obtain ⟨name, member⟩ := List.exists_mem_of_ne_nil _ flying
      have collects :=
        (collect_reaches env graph parallelism flying).weaken fun _ _ => trivial
      have held := collects.orderly wellFormed
        ((waiting_reaches wellFormed orderly).orderly wellFormed orderly)
      have still : name ∈ (env.collect (env.waiting graph parallelism first)).inFlight := by
        simpa [collect, silent] using member
      rw [drain, turn_eq wellFormed orderly, if_neg flying]
      exact ih held (List.ne_nil_of_mem (mem_inFlight_waiting wellFormed held still))

/-- A run that nothing disturbs need not end with a result, for two reasons: a parameter
may be disputed, in a world as fair as any, or the world may let every wait end without a
step. -/
theorem undisturbed_never_finishes :
    (disputed.WellFormed ∧ disputed.Acyclic
      ∧ (∀ declared,
          (steady fun _ => .ok ()).Undisturbed disputed 1 (fun _ => .ok ())
              ((steady fun _ => .ok ()).entry disputed declared [])
            ∧ (steady fun _ => .ok ()).Fair disputed 1
                ((steady fun _ => .ok ()).entry disputed declared []))
      ∧ ∀ turns result reached,
          (steady fun _ => .ok ()).run disputed 1 turns {} [] ≠ (.finished result, reached))
      ∧ twoImages.WellFormed ∧ twoImages.Acyclic ∧ Undisputed {} twoImages.steps
      ∧ (∀ declared,
          unheeded.Undisturbed twoImages 1 (fun _ => .ok ())
            (unheeded.entry twoImages declared []))
      ∧ ∀ turns result reached,
          unheeded.run twoImages 1 turns {} [] ≠ (.finished result, reached) := by
  constructor
  · have wellFormed : disputed.WellFormed := by decide
    refine ⟨wellFormed, StepGraph.acyclic_of_rank (fun _ => 0) (by decide), fun declared =>
      ⟨steady_undisturbed _ _, steady_fair _ (entry_eq _ wellFormed declared []).1⟩, ?_⟩
    intro turns result reached finished
    cases finished
  · have wellFormed : twoImages.WellFormed := by decide
    have accepted : declareAll {} twoImages.steps = ({}, none) := rfl
    refine ⟨wellFormed, StepGraph.acyclic_of_rank twoImages.names.idxOf (by decide),
      (declareAll_eq_none_iff _ _).mp (congrArg Prod.snd accepted),
      fun declared => unheeded_undisturbed _ _, ?_⟩
    intro turns result reached finished
    have flying :
        (unheeded.waiting twoImages 1 (unheeded.entry twoImages {} [])).inFlight ≠ [] := by
      decide +kernel
    obtain ⟨top, again⟩ := drain_of_silent wellFormed (fun _ _ _ => rfl)
      (orderly_entry unheeded wellFormed 1 {} []) flying turns
    rw [run_of_drain (le_refl 1) accepted] at finished
    simp [again] at finished

end Environment

end BuildPipeline
