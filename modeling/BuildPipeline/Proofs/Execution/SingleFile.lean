import BuildPipeline.Proofs.Execution.Flight
import BuildPipeline.Proofs.Execution.Propagation

namespace BuildPipeline

variable {κ ρ σ : Type}

theorem StepState.isBlocking_of_ended {state : StepState}
    (unwaiting : state.isWaiting = false) (idle : state ≠ .running)
    (unsuccessful : state ≠ .succeeded) : state.isBlocking = true := by
  cases state with
  | failed | skipped => rfl
  | pending | runnable => cases unwaiting
  | running => exact absurd rfl idle
  | succeeded => exact absurd rfl unsuccessful

namespace Environment

variable {env : Environment κ ρ σ} {graph : StepGraph κ ρ} {parallelism : Nat}
  {progress next : Progress ρ σ} {action : Action κ ρ} {allowed : Action κ ρ → Prop}
  {behind ahead : List String}

theorem IsMark.started?_eq (mark : IsMark action) : action.started? = none := by
  cases action with
  | ready => rfl
  | skip | stop | sweep | start | pause | land => cases mark

theorem Orderly.isWaiting_of_acts (orderly : Orderly graph parallelism progress)
    (wellFormed : graph.WellFormed) (acts : env.Acts graph parallelism action progress next)
    {name : String} (waiting : (next.ledger.state name).isWaiting = true) :
    (progress.ledger.state name).isWaiting = true := by
  by_cases subject : action.subject? = some name
  · cases orderly.tidy.change (fun _ => name_mem_names wellFormed) acts subject with
    | skipped before => exact before
    | readied before => exact before
    | begun before => exact before
    | landed _ _ _ state => rcases state with state | state <;> simp [state] at waiting
  · rwa [acts.state_of_ne subject] at waiting

/-- How far a run has come in the order of the graph: all that it has started lies behind,
in this order, and nothing behind still waits. -/
structure Passed (graph : StepGraph κ ρ) (behind : List String) (progress : Progress ρ σ) :
    Prop where
  leading : behind <+: graph.order
  begun : progress.dispatched.reverse.Sublist behind
  idle : ∀ name ∈ behind, (progress.ledger.state name).isWaiting = false

namespace Passed

theorem nil (fresh : progress.dispatched = []) : Passed graph [] progress where
  leading := List.nil_prefix
  begun := by simp [fresh]
  idle := by simp

theorem acts (passed : Passed graph behind progress) (wellFormed : graph.WellFormed)
    (orderly : Orderly graph parallelism progress)
    (acts : env.Acts graph parallelism action progress next)
    (still : action.started? = none) :
    Passed graph behind next where
  leading := passed.leading
  begun := by
    rw [acts.dispatched, still]
    exact passed.begun
  idle := by
    intro name member
    have before := passed.idle name member
    rw [← Bool.not_eq_true] at before ⊢
    exact fun waiting => before (orderly.isWaiting_of_acts wellFormed acts waiting)

theorem reaches (passed : Passed graph behind progress) (wellFormed : graph.WellFormed)
    (orderly : Orderly graph parallelism progress)
    (reaches : env.Reaches graph parallelism allowed progress next)
    (still : ∀ action, allowed action → action.started? = none) :
    Passed graph behind next :=
  (reaches.preserves
    (fun later => Orderly graph parallelism later ∧ Passed graph behind later)
    (fun permitted acts kept =>
      ⟨kept.1.acts wellFormed acts, kept.2.acts wellFormed kept.1 acts (still _ permitted)⟩)
    ⟨orderly, passed⟩).2

theorem start (passed : Passed graph behind progress) (wellFormed : graph.WellFormed)
    (orderly : Orderly graph parallelism progress) {step : Step κ ρ}
    (acts : env.Acts graph parallelism (.start step) progress next)
    (split : graph.order = behind ++ step.name :: ahead) :
    Passed graph (behind ++ [step.name]) next where
  leading := ⟨ahead, by simp [split]⟩
  begun := by
    rw [acts.dispatched, List.reverse_append]
    exact passed.begun.append (List.Sublist.refl _)
  idle := by
    intro name member
    rw [← Bool.not_eq_true]
    rcases List.mem_append.mp member with member | self
    · intro waiting
      have before := orderly.isWaiting_of_acts wellFormed acts waiting
      rw [passed.idle name member] at before
      cases before
    · obtain rfl := List.mem_singleton.mp self
      cases orderly.tidy.change (fun _ => name_mem_names wellFormed) acts rfl with
      | begun _ _ _ _ _ state => simp [state]
      | skipped _ _ same | readied _ _ _ same | landed _ _ same =>
          have grown := acts.dispatched
          rw [same] at grown
          simp [Action.started?] at grown

/-- A place further on has been passed as well, if nothing before it waits, but what comes
next does. -/
theorem further (passed : Passed graph behind progress) {earlier : List String}
    {name : String} (split : graph.order = earlier ++ name :: ahead)
    (idle : ∀ name ∈ earlier, (progress.ledger.state name).isWaiting = false)
    (waiting : (progress.ledger.state name).isWaiting = true) :
    Passed graph earlier progress where
  leading := ⟨_, split.symm⟩
  begun := by
    have unpassed : name ∉ behind := by
      intro member
      rw [passed.idle name member] at waiting
      cases waiting
    have upTo : earlier ++ [name] <+: graph.order := ⟨ahead, by simp [split]⟩
    refine passed.begun.trans (List.IsPrefix.sublist ?_)
    rcases List.prefix_or_prefix_of_prefix passed.leading upTo with shorter | longer
    · rcases List.prefix_concat_iff.mp shorter with rfl | inside
      · simp at unpassed
      · exact inside
    · exact absurd (longer.subset (by simp)) unpassed
  idle := idle

end Passed

def InLine (graph : StepGraph κ ρ) (progress : Progress ρ σ) : Prop :=
  ∃ behind, Passed graph behind progress

theorem InLine.begun_order (inLine : InLine graph progress) :
    progress.dispatched.reverse.Sublist graph.order := by
  obtain ⟨behind, passed⟩ := inLine
  exact passed.begun.trans passed.leading.sublist

/-- Once all that a waiting step depends on has come to its end, the step is ready or
stuck. -/
theorem Orderly.isReady_of_ended (orderly : Orderly graph parallelism progress)
    {step : Step κ ρ} (unstuck : ¬ IsStuck graph progress.ledger step.name)
    (ended : ∀ dependency ∈ graph.dependencies step.name,
      (progress.ledger.state dependency).isWaiting = false
        ∧ progress.ledger.state dependency ≠ .running)
    (waiting : (progress.ledger.state step.name).isWaiting = true) :
    isReady graph progress.ledger step = true := by
  refine isReady_iff.mpr ⟨waiting, fun dependency needed => ?_⟩
  rcases StepState.isWaiting_eq_true.mp waiting with pending | runnable
  · by_contra unsuccessful
    obtain ⟨unwaiting, idle⟩ := ended dependency needed
    exact unstuck (isStuck_iff.mpr ⟨pending, dependency,
      StepGraph.mem_dependencies_iff_precedes.mp needed,
      StepState.isBlocking_of_ended unwaiting idle unsuccessful⟩)
  · exact orderly.free _ (Or.inl runnable) dependency needed

theorem passed_over (wellFormed : graph.WellFormed)
    (orderly : Orderly graph parallelism progress) (landed : progress.inFlight = [])
    (settled : ∀ step ∈ graph.orderedSteps, ¬ IsStuck graph progress.ledger step.name)
    {earlier later : List (Step κ ρ)} (split : graph.orderedSteps = earlier ++ later)
    (unready : ∀ step ∈ earlier, isReady graph progress.ledger step = false) :
    ∀ step ∈ earlier, (progress.ledger.state step.name).isWaiting = false := by
  induction earlier using List.reverseRecOn generalizing later with
  | nil => simp
  | append_singleton front last ih =>
      rw [List.append_assoc] at split
      have before :=
        ih split fun step member => unready step (List.mem_append_left _ member)
      have names := StepGraph.names_orderedSteps wellFormed
      rw [split, List.map_append] at names
      -- What the last step needs stands in front of it, and nothing is in flight.
      have ended : ∀ dependency ∈ graph.dependencies last.name,
          (progress.ledger.state dependency).isWaiting = false
            ∧ progress.ledger.state dependency ≠ .running := by
        intro dependency needed
        obtain ⟨step, earlier, rfl⟩ := List.mem_map.mp
          (StepGraph.dependencies_before wellFormed names.symm dependency needed)
        refine ⟨before step earlier, ?_⟩
        rw [Ne, orderly.running_iff, landed]
        exact List.not_mem_nil
      intro step member
      rcases List.mem_append.mp member with member | self
      · exact before step member
      · obtain rfl := List.mem_singleton.mp self
        rw [← Bool.not_eq_true]
        intro waiting
        have ready :=
          orderly.isReady_of_ended (settled step (by simp [split])) ended waiting
        rw [unready step member] at ready
        cases ready

theorem fill_of_full (env : Environment κ ρ σ) (steps : List (Step κ ρ))
    (full : parallelism ≤ progress.inFlight.length) :
    env.fill parallelism steps progress = (none, progress) := by
  cases steps with
  | nil => rfl
  | cons step rest => rw [fill, if_neg (by omega)]

theorem fill_single (env : Environment κ ρ σ) {step : Step κ ρ} (rest : List (Step κ ρ))
    (landed : progress.inFlight = []) (fresh : step.name ∉ progress.dispatched) :
    env.fill 1 (step :: rest) progress = (none, env.start progress step) := by
  rw [fill, if_pos (by simp [landed]), if_neg fresh]
  exact fill_of_full env rest (by simp)

theorem Passed.next_ready (passed : Passed graph behind progress)
    (wellFormed : graph.WellFormed) (orderly : Orderly graph parallelism progress)
    (landed : progress.inFlight = [])
    (settled : ∀ step ∈ graph.orderedSteps, ¬ IsStuck graph progress.ledger step.name)
    {step : Step κ ρ} {rest : List (Step κ ρ)}
    (ready : readySteps graph progress.ledger = step :: rest) :
    ∃ earlier ahead, graph.order = earlier ++ step.name :: ahead
      ∧ Passed graph earlier progress := by
  obtain ⟨earlier, later, split, unready, isReady, _⟩ := List.filter_eq_cons_iff.mp ready
  have names := StepGraph.names_orderedSteps wellFormed
  rw [split, List.map_append, List.map_cons] at names
  refine ⟨_, _, names.symm, passed.further names.symm ?_ (isReady_iff.mp isReady).1⟩
  have idle := passed_over wellFormed orderly landed settled split fun step member =>
    Bool.not_eq_true _ ▸ unready step member
  intro name member
  obtain ⟨step, earlier, rfl⟩ := List.mem_map.mp member
  exact idle step earlier

theorem startReady_inLine (wellFormed : graph.WellFormed)
    (orderly : Orderly graph 1 progress)
    (settled : progress.stopped = false →
      ∀ step ∈ graph.orderedSteps, ¬ IsStuck graph progress.ledger step.name)
    (inLine : InLine graph progress) : InLine graph
      (env.startReady graph 1 progress).2 := by
  obtain ⟨behind, passed⟩ := inLine
  by_cases stopped : progress.stopped = true
  · rw [startReady, if_pos stopped]
    exact ⟨behind, passed⟩
  have running : progress.stopped = false := by simpa using stopped
  obtain ⟨marked, eq, marking, inFlight, unstopped, still⟩ := startReady_marks env 1
    (fun _ ordered => orderly.present wellFormed ordered) running
  have calm := marking.orderly wellFormed orderly
  rw [eq]
  by_cases flying : 1 ≤ marked.inFlight.length
  · rw [fill_of_full env _ flying]
    exact ⟨behind, passed.reaches wellFormed orderly marking fun _ => IsMark.started?_eq⟩
  have landed : marked.inFlight = [] := List.eq_nil_of_length_eq_zero (by omega)
  rcases ready : readySteps graph progress.ledger with _ | ⟨step, rest⟩
  · exact ⟨behind, passed.reaches wellFormed orderly marking fun _ => IsMark.started?_eq⟩
  · obtain ⟨earlier, ahead, split, passed⟩ :=
      passed.next_ready wellFormed orderly (inFlight ▸ landed) (settled running) ready
    obtain ⟨ordered, readied⟩ := still step (by simp [ready])
    rw [fill_single env rest landed
      (calm.tidy.not_dispatched_of_isWaiting (isReady_iff.mp readied).1)]
    exact ⟨_, (passed.reaches wellFormed orderly marking fun _ => IsMark.started?_eq).start
      wellFormed calm (.start ordered unstopped readied (by simp [landed])) split⟩

theorem waiting_inLine (wellFormed : graph.WellFormed) (orderly : Orderly graph 1 progress)
    (inLine : InLine graph progress) : InLine graph (env.waiting graph 1 progress) := by
  obtain ⟨behind, passed⟩ := inLine
  have skipping := propagateSkips_reaches env graph 1 progress
  have halting := noticeCancellation_reaches env graph 1 (env.propagateSkips graph progress)
  have skipped := skipping.orderly wellFormed orderly
  refine startReady_inLine wellFormed (halting.orderly wellFormed skipped)
    (fun running => ?_)
    ⟨behind, (passed.reaches wellFormed orderly skipping ?_).reaches wellFormed
      skipped halting ?_⟩
  · rw [noticeCancellation_of_running running]
    exact fun step ordered =>
      not_isStuck_propagateSkips env wellFormed orderly.recorded ordered
  · intro action skip
    cases action <;> first | rfl | cases skip
  · intro action halt
    cases action <;> first | rfl | cases halt

theorem collect_inLine (wellFormed : graph.WellFormed) (orderly : Orderly graph 1 progress)
    (flying : progress.inFlight ≠ []) (inLine : InLine graph progress) :
    InLine graph (env.collect progress) := by
  obtain ⟨behind, passed⟩ := inLine
  refine ⟨behind, passed.reaches wellFormed orderly (collect_reaches env graph 1 flying) ?_⟩
  intro action ending
  cases action <;> first | rfl | cases ending

theorem conclude_inLine (wellFormed : graph.WellFormed) (orderly : Orderly graph 1 progress)
    (landed : progress.inFlight = []) (inLine : InLine graph progress) :
    InLine graph (env.conclude graph progress).2 := by
  obtain ⟨behind, passed⟩ := inLine
  have swept : Passed graph behind (env.skipWaiting graph neverReached progress) := by
    refine passed.reaches wellFormed orderly (skipWaiting_reaches (Or.inr ⟨landed, rfl⟩)) ?_
    rintro action ⟨step, rfl⟩
    rfl
  exact ⟨behind, { swept with }⟩

theorem run_inLine (env : Environment κ ρ σ) (wellFormed : graph.WellFormed) (turns : Nat)
    (register : Register ρ) (world : σ) :
    InLine graph (env.run graph 1 turns register world).2 := by
  rcases run_keeps (InLine graph) 1 (fun calm => waiting_inLine wellFormed calm)
    (fun calm => collect_inLine wellFormed calm)
    (fun calm => conclude_inLine wellFormed calm)
    wellFormed turns register world with ⟨declared, eq⟩ | ⟨declared, _, kept⟩
  · rw [eq]
    exact ⟨[], .nil rfl⟩
  · exact kept ⟨[], .nil (entry_eq env wellFormed declared world).2.1⟩

def Lone (progress : Progress ρ σ) : Prop :=
  ∀ one other, progress.ledger.state one = .running →
    progress.ledger.state other = .running → one = other

theorem Orderly.lone (orderly : Orderly graph 1 progress) : Lone progress := by
  intro one other first second
  rw [orderly.running_iff] at first second
  obtain ⟨name, alone⟩ := List.length_eq_one_iff.mp
    (Nat.le_antisymm orderly.room (List.length_pos_of_mem first))
  rw [alone, List.mem_singleton] at first second
  exact first.trans second.symm

/-- A run with room for one step, for every world: whichever steps are invalid or fail,
and whenever it is cancelled.  At every point of it, those between two actions of one turn
included, at most one step is recorded as running.  What it starts follows the order of
the graph, and so does a log of what is handed over.  In the chronicle of a run no step is
handed over before the one ahead of it has come back. -/
theorem run_single_file (env : Environment κ ρ σ) (wellFormed : graph.WellFormed)
    (register : Register ρ) (world : σ) :
    (∀ actions progress,
        env.Trace graph 1 (env.entry graph register world) actions progress → Lone progress)
      ∧ (∀ turns, ∃ actions decisions,
          env.Trace graph 1 (env.entry graph register world) actions
              (env.drain graph 1 turns (env.entry graph register world)).2
            ∧ env.Trace graph 1
                (env.drain graph 1 turns (env.entry graph register world)).2 decisions
                (env.waiting graph 1
                  (env.drain graph 1 turns (env.entry graph register world)).2))
      ∧ (∀ turns,
          (env.run graph 1 turns register world).2.dispatched.reverse.Sublist graph.order
          ∧ ∀ log, env.Logs log → log (env.run graph 1 turns register world).2.world =
              (env.run graph 1 turns register world).2.dispatched ++ log world)
      ∧ ∀ log, env.Chronicles log → log world = [] → ∀ turns,
          (launches (log (env.run graph 1 turns register world).2.world)).Sublist
            graph.order
            ∧ ∀ before, before <+: log (env.run graph 1 turns register world).2.world →
                (aloft before).length ≤ 1 := by
  have orderly := orderly_entry env wellFormed 1 register world
  have ordered := fun turns => (run_inLine env wellFormed turns register world).begun_order
  refine ⟨fun actions progress trace => (orderly.trace wellFormed trace).lone,
    fun turns => ?_, fun turns => ?_, fun log chronicles blank turns => ?_⟩
  · have reaches := (drain_reaches env wellFormed orderly turns).1
    obtain ⟨decisions, deciding, _⟩ :=
      reaches_waiting env wellFormed (reaches.orderly wellFormed orderly)
    obtain ⟨actions, trace, _⟩ := reaches
    exact ⟨actions, decisions, trace, deciding⟩
  · exact ⟨ordered turns, fun log logs =>
      logs.run_dispatched wellFormed 1 turns register world⟩
  · have charted := Charted.run chronicles wellFormed blank 1 turns register
    rw [charted.launched]
    exact ⟨ordered turns, charted.room⟩

/-- One image fails and its test is passed over; what starts does so in the order of the
graph. -/
theorem twoImages_single_file :
    twoImages.WellFormed ∧ (scribe (κ := Unit) (ρ := Unit) apiFails).Chronicles id
      ∧ launches ((scribe apiFails).run twoImages 1 5 {} []).2.world = ["cli", "api", "e2e"]
      ∧ (launches ((scribe apiFails).run twoImages 1 5 {} []).2.world).Sublist
          twoImages.order
      ∧ ∀ before, before <+: ((scribe apiFails).run twoImages 1 5 {} []).2.world →
          (aloft before).length ≤ 1 := by
  have wellFormed : twoImages.WellFormed := by decide
  have chronicles := scribe_chronicles (κ := Unit) (ρ := Unit) apiFails
  obtain ⟨_, _, _, chronicled⟩ := run_single_file (scribe apiFails) wellFormed {} []
  obtain ⟨ordered, single⟩ := chronicled id chronicles rfl 5
  exact ⟨wellFormed, chronicles, by decide +kernel, ordered, single⟩

end Environment

end BuildPipeline
