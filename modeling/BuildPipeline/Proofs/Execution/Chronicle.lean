import BuildPipeline.Proofs.Execution.Keeping
import BuildPipeline.Proofs.Execution.Leaving
import BuildPipeline.Proofs.Execution.Report
import BuildPipeline.Proofs.Execution.Story

namespace BuildPipeline

variable {κ ρ σ : Type}

namespace Environment

variable {env : Environment κ ρ σ} {graph : StepGraph κ ρ} {parallelism : Nat}
  {progress next : Progress ρ σ} {action : Action κ ρ} {landing landed : List Completion}
  {more : List Occurrence} {name : String}

/-- A world that writes a chronicle of what happens, in order.  A wait brings steps that
are in flight, each of them once. -/
structure Chronicles (env : Environment κ ρ σ) (log : σ → List Occurrence) : Prop where
  hook : ∀ ledger event world, log (env.hook ledger event world).2 =
    log world ++ [.told event]
  launch : ∀ step world, log (env.launch step world) = log world ++ [.launched step.name]
  await : ∀ ledger inFlight world,
    log (env.await ledger inFlight world).2 =
      log world ++ (env.await ledger inFlight world).1.map .delivered
  honest : ∀ ledger inFlight world,
    ((env.await ledger inFlight world).1.map (·.name)).Subperm inFlight

def Chronicled (graph : StepGraph κ ρ) (log : σ → List Occurrence)
    (landing : List Completion) (progress : Progress ρ σ) : Prop :=
  ∃ course, log progress.world = .told (.pipelineStart graph.names) :: course
    ∧ Recounts graph landing progress course

namespace Chronicled

variable {log : σ → List Occurrence}

theorem extend (chronicled : Chronicled graph log landing progress)
    (present : name ∈ graph.names) (logged : log next.world = log progress.world ++ more)
    (concern : ∀ occurrence ∈ more, occurrence.subject? = some name)
    (others : ∀ other, other ≠ name → next.ledger.result other =
      progress.ledger.result other)
    (returned : ∀ other, other ≠ name → returns other landed = returns other landing)
    (own : ∀ {story}, Account landing name (progress.ledger.result name) story →
      Account landed name (next.ledger.result name) (story ++ more))
    (free : .told (.stepStart name) ∈ more → ∀ dependency ∈ graph.dependencies name,
      progress.ledger.state dependency = .succeeded) :
        Chronicled graph log landed next := by
  obtain ⟨course, written, recounts⟩ := chronicled
  refine ⟨course ++ more, ?_, recounts.extend present concern others returned own free⟩
  rw [logged, written, List.cons_append]

variable (chronicles : env.Chronicles log)

include chronicles

theorem finish_log (name : String) (state : StepState) (error : Option Error)
    (progress : Progress ρ σ) :
    log (env.finish name state error progress).world =
      log progress.world ++ [.told
        (.stepEnd name ((env.finish name state error progress).ledger.result name))] :=
  chronicles.hook _ _ _

theorem given_up (chronicled : Chronicled graph log landing progress)
    (recorded : progress.ledger.recorded = graph.names) (present : name ∈ graph.names)
    (waiting : (progress.ledger.state name).isWaiting = true) {state : StepState}
    (ends : state = .failed ∨ state = .skipped) (error : Option Error) :
    Chronicled graph log landing (env.finish name state error progress) := by
  refine chronicled.extend present (finish_log chronicles name state error progress)
    (by simp [Occurrence.subject?, Event.scope?]) ?_ (fun _ _ => rfl) ?_ (by simp)
  · intro other ne
    exact result_finish_of_ne env _ _ _ ne
  · intro story account
    rw [account.eq_nil waiting]
    apply Account.unstarted
    rwa [result_finish_self env _ _ (recorded ▸ present), StepResult.state_ended]

theorem start_log (progress : Progress ρ σ) (step : Step κ ρ) :
    log (env.start progress step).world =
      log progress.world ++ [.told (.stepStart step.name), .launched step.name] := by
  rw [Environment.start, chronicles.launch]
  simp [tell, chronicles.hook]

theorem start (chronicled : Chronicled graph log [] progress)
    (recorded : progress.ledger.recorded = graph.names) {step : Step κ ρ}
    (present : step.name ∈ graph.names)
    (ready : isReady graph progress.ledger step = true) :
    Chronicled graph log [] (env.start progress step) := by
  obtain ⟨waiting, free⟩ := isReady_iff.mp ready
  refine chronicled.extend present (start_log chronicles progress step)
    (by simp [Occurrence.subject?, Event.scope?]) ?_ (fun _ _ => rfl) ?_ fun _ => free
  · intro other ne
    exact result_start_of_ne env _ ne
  · intro story account
    rw [account.eq_nil waiting]
    apply Account.running
    rw [result_start_self env (recorded ▸ present), StepResult.state_begun]

theorem decide (wellFormed : graph.WellFormed)
    (chronicled : Chronicled graph log [] progress)
    (orderly : Orderly graph parallelism progress) (quiet : IsQuiet action)
    (acts : env.Acts graph parallelism action progress next) :
    Chronicled graph log [] next := by
  cases acts with
  | skip ordered pending =>
      exact given_up chronicles chronicled orderly.recorded
        (name_mem_names wellFormed ordered) (by simp [pending]) (.inr rfl) _
  | sweep ordered waiting =>
      exact given_up chronicles chronicled orderly.recorded
        (name_mem_names wellFormed ordered) waiting (.inr rfl) _
  | start ordered _ ready =>
      exact start chronicles chronicled orderly.recorded
        (name_mem_names wellFormed ordered) ready
  | ready ordered _ ready =>
      have present := name_mem_names wellFormed ordered
      refine chronicled.extend present (List.append_nil _).symm (by simp) ?_
        (fun _ _ => rfl) ?_ (by simp)
      · intro other ne
        exact Ledger.result_ready_of_ne _ ne
      · intro story account
        rw [account.eq_nil (isReady_iff.mp ready).1,
          Ledger.result_ready_self (orderly.recorded ▸ present)]
        exact .waiting rfl
  | stop =>
      obtain ⟨course, written, recounts⟩ := chronicled
      exact ⟨course, written, { recounts with }⟩
  | pause | land => cases quiet

theorem record_log {completion : Completion}
    (flying : completion.name ∈ progress.inFlight) :
    log (env.record progress completion).world = log progress.world
      ++ news completion ((env.record progress completion).ledger.result
        completion.name) := by
  obtain ⟨name, outcome⟩ := completion
  rw [Environment.record, if_pos flying]
  cases outcome with
  | ok => exact finish_log chronicles _ _ _ _
  | error error =>
      refine (finish_log chronicles _ _ _ _).trans ?_
      simp [news, fail, tell, chronicles.hook]

theorem record (orderly : Orderly graph parallelism progress) {completion : Completion}
    {rest : List Completion}
    (chronicled : Chronicled graph log (completion :: rest) progress)
    (flying : completion.name ∈ progress.inFlight)
    (once : completion.name ∉ rest.map (·.name)) :
    Chronicled graph log rest (env.record progress completion) := by
  have present : completion.name ∈ graph.names := orderly.tidy.mem_names_of_flying flying
  have running := (orderly.running_iff _).mpr flying
  refine chronicled.extend present (record_log chronicles flying)
    (news_concern completion _)
    ?_ ?_ ?_ fun started => absurd started (not_start_mem_news completion _ _)
  · intro other ne
    exact result_record_of_ne env _ ne
  · intro other ne
    simp [returns, ne.symm]
  · intro story account
    have came : returns completion.name (completion :: rest) = [completion] := by
      have none := returns_eq_nil once
      rw [returns] at none ⊢
      simp [none]
    obtain ⟨moment, result⟩ := result_record_self env flying (orderly.recorded ▸ present)
    rw [account.eq_running running, came, result]
    exact Account.landed rest completion _ moment

theorem records (wellFormed : graph.WellFormed) {completions : List Completion}
    (orderly : Orderly graph parallelism progress)
    (chronicled : Chronicled graph log completions progress)
    (aloft : (completions.map (·.name)).Subperm progress.inFlight) :
    Chronicled graph log [] (completions.foldl env.record progress) := by
  induction completions generalizing progress with
  | nil => exact chronicled
  | cons completion rest ih =>
      -- No step is brought twice, so the first one is not among those still to be
      -- recorded.
      obtain ⟨names, same, part⟩ := aloft
      have nodup := same.nodup_iff.mp (orderly.inFlight_nodup.sublist part)
      have flying : completion.name ∈ progress.inFlight :=
        part.subset (same.mem_iff.mpr List.mem_cons_self)
      have once := (List.nodup_cons.mp nodup).1
      refine ih (orderly.acts wellFormed (.land flying))
        (record chronicles orderly chronicled flying once) ?_
      rw [inFlight_record env flying]
      have fewer := List.Subperm.erase completion.name ⟨names, same, part⟩
      rwa [List.map_cons, List.erase_cons_head] at fewer

theorem collect (wellFormed : graph.WellFormed)
    (orderly : Orderly graph parallelism progress)
    (chronicled : Chronicled graph log [] progress) :
    Chronicled graph log [] (env.collect progress) := by
  have honest := chronicles.honest progress.ledger progress.inFlight progress.world
  have logged := chronicles.await progress.ledger progress.inFlight progress.world
  unfold Environment.collect
  generalize env.await progress.ledger progress.inFlight progress.world =
    answer at honest logged
  obtain ⟨completions, world⟩ := answer
  refine records chronicles wellFormed { orderly with } ?_ honest
  obtain ⟨course, written, recounts⟩ := chronicled
  refine ⟨course ++ completions.map .delivered, ?_, recounts.await orderly.tidy ?_ world⟩
  · rw [← List.cons_append, ← written]
    exact logged
  · intro completion came
    exact honest.subset (List.mem_map_of_mem came)

theorem opening (graph : StepGraph κ ρ) (register : Register ρ) {world : σ}
    (blank : log world = []) :
    Chronicled graph log []
      (env.tell (.pipelineStart graph.names) (opening graph register world)) := by
  refine ⟨[], ?_, ⟨by simp, fun name => ?_, ?_⟩⟩
  · refine (chronicles.hook _ _ _).trans ?_
    rw [show log (Environment.opening graph register world).world = [] from blank]
    rfl
  · apply Account.waiting
    rw [ledger_tell, result_opening]
    rfl
  · intro before after name split
    simp at split

theorem preflights {steps : List (Step κ ρ)} (nodup : (steps.map (·.name)).Nodup)
    (chronicled : Chronicled graph log [] progress)
    (recorded : progress.ledger.recorded = graph.names)
    (waiting : ∀ step ∈ steps, step.name ∈ graph.names
      ∧ (progress.ledger.state step.name).isWaiting = true) :
    Chronicled graph log [] (steps.foldl env.preflight progress) := by
  induction steps generalizing progress with
  | nil => exact chronicled
  | cons step rest ih =>
      obtain ⟨distinct, nodup⟩ := List.nodup_cons.mp nodup
      obtain ⟨⟨present, idle⟩, others⟩ := List.forall_mem_cons.mp waiting
      refine ih nodup ?_ ((preflight_eq env progress step).2.2.2.trans recorded) ?_
      · unfold preflight
        cases step.invalid with
        | none => exact chronicled
        | some error =>
            exact given_up chronicles chronicled recorded present idle (.inl rfl) _
      · intro later member
        have ne : later.name ≠ step.name := by
          intro same
          exact distinct (List.mem_map.mpr ⟨later, member, same⟩)
        rw [Ledger.state, result_preflight_of_ne env progress ne]
        exact others later member

theorem entry (wellFormed : graph.WellFormed) (register : Register ρ) {world : σ}
    (blank : log world = []) :
    Chronicled graph log [] (env.entry graph register world) := by
  have recorded := recorded_opening wellFormed register world
  refine preflights chronicles (StepGraph.orderedSteps_nodup wellFormed)
    (opening chronicles graph register blank) recorded ?_
  intro step ordered
  refine ⟨name_mem_names wellFormed ordered, ?_⟩
  rw [ledger_tell, Ledger.state, result_opening]
  rfl

theorem drain (wellFormed : graph.WellFormed) (orderly : Orderly graph parallelism progress)
    (chronicled : Chronicled graph log [] progress) (turns : Nat) :
    Chronicled graph log [] (env.drain graph parallelism turns progress).2 :=
  kept_drain (fun quiet orderly acts chronicled =>
      decide chronicles wellFormed chronicled orderly quiet acts)
    wellFormed (fun orderly chronicled => collect chronicles wellFormed orderly chronicled)
    orderly chronicled turns

end Chronicled

/-- Once the end of a step has been told, its record is what was told, and stays so. -/
def Sealed (log : σ → List Occurrence) (progress : Progress ρ σ) : Prop :=
  ∀ name entry, .told (.stepEnd name entry) ∈ log progress.world →
    progress.ledger.result name = entry ∧ entry.state.isTerminal = true

namespace Sealed

variable {log : σ → List Occurrence}

theorem of_chronicled (chronicled : Chronicled graph log landing progress) :
    Sealed log progress := by
  obtain ⟨course, written, recounts⟩ := chronicled
  intro name entry told
  have listed : .told (.stepEnd name entry) ∈ course := by simpa [written] using told
  have own : .told (.stepEnd name entry) ∈ about name course :=
    List.mem_filter.mpr ⟨listed, by simp [Occurrence.subject?, Event.scope?]⟩
  obtain ⟨rfl, terminal⟩ := (recounts.account name).told_end own
  exact ⟨rfl, terminal⟩

theorem acts_log (chronicles : env.Chronicles log) (wellFormed : graph.WellFormed)
    (orderly : Orderly graph parallelism progress)
    (acts : env.Acts graph parallelism action progress next) :
    ∃ more, log next.world = log progress.world ++ more
      ∧ ∀ name entry, .told (.stepEnd name entry) ∈ more →
          next.ledger.result name = entry ∧ entry.state.isTerminal = true := by
  cases acts with
  | skip ordered | sweep ordered =>
      refine ⟨_, Chronicled.finish_log chronicles _ _ _ progress, ?_⟩
      intro name entry told
      obtain ⟨rfl, rfl⟩ : name = _ ∧ entry = _ := by simpa using told
      refine ⟨rfl, ?_⟩
      rw [result_finish_self env _ _ (orderly.present wellFormed ordered)]
      rfl
  | @land _ completion flying =>
      refine ⟨_, Chronicled.record_log chronicles flying, ?_⟩
      intro name entry told
      obtain ⟨rfl, rfl⟩ := end_mem_news told
      have present : completion.name ∈ graph.names :=
        orderly.tidy.mem_names_of_flying flying
      obtain ⟨moment, result⟩ := result_record_self env flying (orderly.recorded ▸ present)
      refine ⟨rfl, ?_⟩
      rw [result, StepResult.state_ended]
      cases completion.outcome <;> rfl
  | start => exact ⟨_, Chronicled.start_log chronicles progress _, by simp⟩
  | pause => exact ⟨_, chronicles.await _ _ _, by simp⟩
  | stop | ready => exact ⟨[], (List.append_nil _).symm, by simp⟩

theorem acts (chronicles : env.Chronicles log) (wellFormed : graph.WellFormed)
    (orderly : Orderly graph parallelism progress) (sealed : Sealed log progress)
    (acts : env.Acts graph parallelism action progress next) : Sealed log next := by
  obtain ⟨more, logged, fresh⟩ := acts_log chronicles wellFormed orderly acts
  intro name entry told
  rw [logged] at told
  rcases List.mem_append.mp told with old | new
  · obtain ⟨rfl, terminal⟩ := sealed name entry old
    exact ⟨orderly.tidy.result_of_isTerminal acts terminal, terminal⟩
  · exact fresh name entry new

theorem trace (chronicles : env.Chronicles log) (wellFormed : graph.WellFormed)
    {first : Progress ρ σ} {actions : List (Action κ ρ)}
    (orderly : Orderly graph parallelism first) (sealed : Sealed log first)
    (trace : env.Trace graph parallelism first actions progress) : Sealed log progress := by
  induction trace with
  | nil => exact sealed
  | snoc before acts ih =>
      exact ih.acts chronicles wellFormed (orderly.trace wellFormed before) acts

end Sealed

/-- The chronicle of a run that gets past the declaration of parameters, for every world:
whatever its waits bring, whichever steps fail, and whenever it is cancelled.  Its first
entry is the start of the run, and what follows gives every step its story.  Once the loop
is left, each story has come to its end, and the last entry is the end of the run.  From
the moment at which the end of a step is told, no action changes the record that was
told. -/
theorem run_chronicled (wellFormed : graph.WellFormed) (acyclic : graph.Acyclic)
    {limit : Int} (least : 1 ≤ limit) {log : σ → List Occurrence}
    (chronicles : env.Chronicles log) {register declared : Register ρ}
    (accepted : declareAll register graph.steps = (declared, none)) {world : σ}
    (blank : log world = []) :
    (∀ turns, ∃ course stand, Recounts graph [] stand course
      ∧ (env.run graph limit turns register world = (.unfinished, stand)
          ∧ log stand.world = .told (.pipelineStart graph.names) :: course
        ∨ HasSettled graph stand ∧ ∃ result last, result.steps = stand.ledger.results
          ∧ last.ledger = stand.ledger
          ∧ env.run graph limit turns register world = (.finished result, last)
          ∧ log last.world = .told (.pipelineStart graph.names) :: course
              ++ [.told (.pipelineEnd result)]))
      ∧ ∀ actions progress more next name entry,
          env.Trace graph limit.toNat (env.entry graph declared world) actions progress →
          .told (.stepEnd name entry) ∈ log progress.world →
          env.Trace graph limit.toNat progress more next →
          next.ledger.result name = entry := by
  have orderly := orderly_entry env wellFormed limit.toNat declared world
  have entered := Chronicled.entry chronicles wellFormed declared blank
  refine ⟨fun turns => ?_, ?_⟩
  · obtain ⟨course, written, recounts⟩ := entered.drain chronicles wellFormed orderly turns
    have ends := (drain_reaches env wellFormed orderly turns).2
    rw [run_of_drain least accepted]
    rcases drained : env.drain graph limit.toNat turns (env.entry graph declared world)
      with ⟨turn, stand⟩
    rw [drained] at ends written recounts
    refine ⟨course, stand, recounts, ?_⟩
    -- The loop runs out of turns, or it ends with every step settled.
    rcases ends with rfl | rfl
    · exact .inl ⟨rfl, written⟩
    · have settled := (settled_of_done wellFormed acyclic (by omega) drained).2
      refine .inr ⟨settled, _, _, ?_, ?_, rfl, ?_⟩
      all_goals rw [conclude_of_hasSettled env wellFormed settled]
      · exact RunResult.steps_ofSteps _ _
      · rfl
      · rw [← written]
        exact chronicles.hook _ _ _
  · intro actions progress more next name entry trace told later
    have sealed := Sealed.trace chronicles wellFormed orderly (.of_chronicled entered) trace
    obtain ⟨rfl, terminal⟩ := sealed name entry told
    have anchored := wellFormed.anchored
    have underWay := (underWay_entry env graph declared world).reaches anchored
      ⟨actions, trace, fun _ _ => trivial⟩
    exact underWay.result_of_reaches anchored ⟨more, later, fun _ _ => trivial⟩ terminal

def scribe (outcome : String → Except Error Unit) : Environment κ ρ (List Occurrence) where
  cancelled _ := false
  now _ := default
  launch step log := log ++ [.launched step.name]
  await _ inFlight log :=
    let completions := inFlight.map fun name => ⟨name, outcome name⟩
    (completions, log ++ completions.map .delivered)
  hook _ event log := (.ok (), log ++ [.told event])

theorem scribe_chronicles (outcome : String → Except Error Unit) :
    (scribe (κ := κ) (ρ := ρ) outcome).Chronicles id where
  hook _ _ _ := rfl
  launch _ _ := rfl
  await _ _ _ := rfl
  honest _ inFlight _ := by simp [scribe, Function.comp_def, List.Subperm.refl]

def Occurrence.headline : Occurrence → String × String
  | .told (.pipelineStart _) => ("run", "begins")
  | .told (.stepStart name) => (name, "starts")
  | .told (.failure scope _) => (scope, "complains")
  | .told (.stepEnd name result) => (name, result.state.name)
  | .told (.pipelineEnd result) => ("run", result.status)
  | .launched name => (name, "is launched")
  | .delivered completion => (completion.name, "is delivered")

/-- The image fails and the test is skipped for that; the chronicle tells the stories of
both. -/
theorem imaged_chronicled :
    imaged.WellFormed ∧ imaged.Acyclic
      ∧ (scribe (κ := Unit) (ρ := Unit) imageFails).Chronicles id
      ∧ ∃ (course : List Occurrence) (stand last : Progress Unit (List Occurrence))
          (result : RunResult),
        Recounts imaged [] stand course ∧ HasSettled imaged stand
        ∧ (scribe imageFails).run imaged 2 5 {} [] = (.finished result, last)
        ∧ last.world = .told (.pipelineStart imaged.names) :: course
            ++ [.told (.pipelineEnd result)]
        ∧ last.world.map Occurrence.headline =
            [("run", "begins"), ("cli", "starts"), ("cli", "is launched"),
              ("cli", "is delivered"), ("cli", "complains"), ("cli", "failed"),
              ("e2e", "skipped"), ("run", "failed")] := by
  have wellFormed : imaged.WellFormed := by decide
  have headlines :
      ((scribe imageFails).run imaged 2 5 {} []).2.world.map Occurrence.headline =
        [("run", "begins"), ("cli", "starts"), ("cli", "is launched"),
          ("cli", "is delivered"), ("cli", "complains"), ("cli", "failed"),
          ("e2e", "skipped"), ("run", "failed")] := by
    decide +kernel
  have ends : EndsWith (fun _ _ => true) ((scribe imageFails).run imaged 2 5 {} []) =
      true := by
    decide +kernel
  obtain ⟨finished, _⟩ :=
    run_chronicled wellFormed imaged_acyclic (by decide : (1 : Int) ≤ 2)
    (scribe_chronicles imageFails)
    (rfl : declareAll {} imaged.steps = ((declareAll {} imaged.steps).1, none)) rfl
  obtain ⟨course, stand, recounts,
      ⟨unfinished, _⟩ | ⟨settled, result, last, _, _, finished, log⟩⟩ :=
    finished 5
  · rw [unfinished] at ends
    cases ends
  · rw [finished] at headlines
    exact ⟨wellFormed, imaged_acyclic, scribe_chronicles _, course, stand, last,
      result, recounts, settled, finished, log, headlines⟩

end Environment

end BuildPipeline
