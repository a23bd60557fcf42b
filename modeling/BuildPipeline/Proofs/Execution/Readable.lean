import BuildPipeline.Parameter.Resolution
import BuildPipeline.Proofs.Execution.WindingDown

namespace BuildPipeline

variable {κ ρ σ : Type}

/-- A ledger whose two halves agree: the register of parameters and the results of the
steps. -/
def Ledger.Faithful (graph : StepGraph κ ρ) (ledger : Ledger ρ) : Prop :=
  ∀ step ∈ graph.steps, ∀ name ∈ step.provides.map (·.1),
    ledger.register.has name = true ↔ ledger.state step.name = .succeeded

/-- A parameter that is held back: the reader is told for whose sake, no resolver is
asked, and nothing is kept of the attempt. -/
def Register.Withholds (register : Register ρ) (producer name : String) : Prop :=
  ∀ {σ : Type} (resolving : Resolving ρ σ) (resolved : Resolved) (world : σ),
    resolving.get register resolved name world =
      (.error (.ofFailure (.missingParameter (.string name) (some producer))),
        resolved, world)

namespace Register

variable {register : Register ρ} {name producer : String}

theorem withholds_of_pending (owned : register.producer? name = some producer)
    (pending : producer ∉ register.succeeded) : register.Withholds producer name := by
  intro σ resolving resolved world
  obtain ⟨⟨place, declaration⟩, found, rfl⟩ := Option.map_eq_some_iff.mp owned
  have waits : register.succeeded.contains declaration.producer = false := by
    simpa using pending
  simp only [Resolving.get, locate, found, waits]
  rfl

theorem succeeded_of_locate (owned : register.producer? name = some producer)
    {found : Nat × ρ} (located : register.locate name = .ok found) :
    producer ∈ register.succeeded := by
  obtain ⟨⟨place, declaration⟩, known, rfl⟩ := Option.map_eq_some_iff.mp owned
  by_contra pending
  simp [locate, known, pending] at located

end Register

namespace Environment

variable {env : Environment κ ρ σ} {graph : StepGraph κ ρ} {parallelism : Nat}
  {progress next : Progress ρ σ} {register declared : Register ρ}

theorem Published.producer? (accepted : declareAll register graph.steps = (declared, none))
    (published : Published declared.declared progress) {step : Step κ ρ}
    (member : step ∈ graph.steps) {name : String}
    (provided : name ∈ step.provides.map (·.1)) :
    progress.ledger.register.producer? name = some step.name :=
  (Register.producer?_congr published.declared name).trans
    (producer?_declareAll accepted member provided)

theorem Published.faithful (accepted : declareAll register graph.steps = (declared, none))
    (published : Published declared.declared progress) :
    progress.ledger.Faithful graph := by
  intro step member name provided
  have owned := published.producer? accepted member provided
  rw [Register.has_iff, ← published.marked]
  constructor
  · rintro ⟨producer, owns, succeeded⟩
    rw [owned] at owns
    exact Option.some.inj owns ▸ succeeded
  · exact fun succeeded => ⟨step.name, owned, succeeded⟩

/-- A log of all that a run shows of itself: the hook sees the ledger whenever it is told
of something, and the steps in flight see it while the coordinator waits for them. -/
structure Shows (env : Environment κ ρ σ) (seen : σ → List (Ledger ρ)) : Prop where
  launch : ∀ step world, seen (env.launch step world) = seen world
  await : ∀ ledger inFlight world,
    seen (env.await ledger inFlight world).2 = seen world ++ [ledger]
  hook : ∀ ledger event world, seen (env.hook ledger event world).2 = seen world ++ [ledger]

namespace Shows

variable {seen : σ → List (Ledger ρ)}

theorem tell (shows : env.Shows seen) (event : Event) (progress : Progress ρ σ) :
    seen (env.tell event progress).world = seen progress.world ++ [progress.ledger] :=
  shows.hook _ _ _

theorem finish (shows : env.Shows seen) (name : String) (state : StepState)
    (error : Option Error) (progress : Progress ρ σ) :
    seen (env.finish name state error progress).world =
      seen progress.world ++ [(env.finish name state error progress).ledger] :=
  shows.hook _ _ _

theorem fail (shows : env.Shows seen) (name : String) (error : Error)
    (progress : Progress ρ σ) :
    seen (env.fail name error progress).world =
      seen progress.world ++ [progress.ledger, (env.fail name error progress).ledger] := by
  rw [Environment.fail, shows.finish, shows.tell, List.append_assoc]
  rfl

theorem acts (shows : env.Shows seen) {action : Action κ ρ}
    (acts : env.Acts graph parallelism action progress next) :
    ∃ shown, seen next.world = seen progress.world ++ shown
      ∧ ∀ ledger ∈ shown, ledger = progress.ledger ∨ ledger = next.ledger := by
  cases acts with
  | skip | sweep => exact ⟨_, shows.finish _ _ _ _, by simp⟩
  | stop | ready => exact ⟨[], by simp, by simp⟩
  | start => exact ⟨_, (shows.launch _ _).trans (shows.hook _ _ _), by simp [start]⟩
  | pause => exact ⟨_, shows.await _ _ _, by simp⟩
  | @land _ completion flying =>
      obtain ⟨name, outcome⟩ := completion
      cases outcome with
      | ok value =>
          simp only [record, if_pos flying, succeed]
          exact ⟨_, shows.finish _ _ _ _, by simp⟩
      | error error =>
          simp only [record, if_pos flying]
          exact ⟨_, shows.fail _ _ _, by simp⟩

end Shows

/-- What has been shown between two points of a run was faithful. -/
def Truthful (graph : StepGraph κ ρ) (seen : σ → List (Ledger ρ)) (before after : σ) :
    Prop :=
  ∃ shown, seen after = seen before ++ shown ∧ ∀ ledger ∈ shown, ledger.Faithful graph

namespace Truthful

variable {seen : σ → List (Ledger ρ)} {before between after : σ}

theorem refl (graph : StepGraph κ ρ) (seen : σ → List (Ledger ρ)) (world : σ) :
    Truthful graph seen world world :=
  ⟨[], by simp, by simp⟩

theorem trans (first : Truthful graph seen before between)
    (second : Truthful graph seen between after) : Truthful graph seen before after := by
  obtain ⟨shown, grown, faithful⟩ := first
  obtain ⟨more, grownMore, faithfulMore⟩ := second
  refine ⟨shown ++ more, by rw [grownMore, grown, List.append_assoc],
    fun ledger member => ?_⟩
  exact (List.mem_append.mp member).elim (faithful ledger) (faithfulMore ledger)

theorem single {ledger : Ledger ρ} (grown : seen after = seen before ++ [ledger])
    (faithful : ledger.Faithful graph) : Truthful graph seen before after :=
  ⟨[ledger], grown, by simpa using faithful⟩

end Truthful

structure Blank (progress : Progress ρ σ) : Prop where
  unmarked : progress.ledger.register.succeeded = []
  unrecorded : ∀ name, progress.ledger.state name ≠ .succeeded

namespace Blank

theorem opening (graph : StepGraph κ ρ) (fresh : register.succeeded = []) (world : σ) :
    Blank (opening graph register world) where
  unmarked := fresh
  unrecorded name := by
    rw [Ledger.state, result_opening]
    rintro ⟨⟩

theorem faithful (blank : Blank progress) (graph : StepGraph κ ρ) :
    progress.ledger.Faithful graph := by
  intro step _ name _
  rw [Register.has_iff, blank.unmarked]
  exact iff_of_false (by simp) (blank.unrecorded step.name)

theorem preflight (blank : Blank progress) (env : Environment κ ρ σ) (step : Step κ ρ) :
    Blank (env.preflight progress step) where
  unmarked := by
    rw [Environment.preflight]
    split <;> exact blank.unmarked
  unrecorded name := by
    rcases preflight_cases env [step] progress name with same | failed
    · rw [Ledger.state]
      exact same ▸ blank.unrecorded name
    · intro succeeded
      cases failed.symm.trans succeeded

end Blank

namespace Shows

variable {seen : σ → List (Ledger ρ)}

theorem preflights (shows : env.Shows seen) (steps : List (Step κ ρ))
    (blank : Blank progress) :
    Truthful graph seen progress.world (steps.foldl env.preflight progress).world := by
  induction steps generalizing progress with
  | nil => exact .refl graph seen _
  | cons step rest ih =>
      have checked := blank.preflight env step
      refine .trans ?_ (ih checked)
      have faithful := checked.faithful graph
      rw [preflight] at faithful ⊢
      split at faithful
      · exact .single (shows.hook _ _ _) faithful
      · exact .refl graph seen _

theorem entry (shows : env.Shows seen) (fresh : register.succeeded = []) (world : σ) :
    Truthful graph seen world (env.entry graph register world).world := by
  have blank := Blank.opening graph fresh world
  have told :
      Blank (env.tell (.pipelineStart graph.names) (opening graph register world)) :=
    ⟨blank.unmarked, blank.unrecorded⟩
  exact .trans (.single (shows.tell _ _) (blank.faithful graph)) (shows.preflights _ told)

end Shows

section Begun

variable (wellFormed : graph.WellFormed) (fresh : register.succeeded = [])
  (accepted : declareAll register graph.steps = (declared, none)) {world : σ}
  {actions : List (Action κ ρ)}
  (trace : env.Trace graph parallelism (env.entry graph declared world) actions progress)

include wellFormed fresh accepted trace

theorem published_of_accepted : Published declared.declared progress :=
  published_trace wellFormed ((succeeded_declareAll accepted).trans fresh) trace

theorem faithful_trace : progress.ledger.Faithful graph :=
  (published_of_accepted wellFormed fresh accepted trace).faithful accepted

theorem truthful_trace {seen : σ → List (Ledger ρ)} (shows : env.Shows seen) :
    Truthful graph seen world progress.world := by
  induction trace with
  | nil => exact shows.entry ((succeeded_declareAll accepted).trans fresh) world
  | snoc trace acts ih =>
      -- Both ledgers that the action can show stand at a point of the trace.
      obtain ⟨shown, grown, old⟩ := shows.acts acts
      refine ih.trans ⟨shown, grown, fun ledger member => ?_⟩
      rcases old ledger member with rfl | rfl
      · exact faithful_trace wellFormed fresh accepted trace
      · exact faithful_trace wellFormed fresh accepted (trace.snoc acts)

theorem landed_of_marked {name : String}
    (marked : name ∈ progress.ledger.register.succeeded) :
    .land ⟨name, .ok ()⟩ ∈ actions := by
  induction trace with
  | nil =>
      rw [show (env.entry graph declared world).ledger.register = declared from
        register_foldl_preflight env _ _, succeeded_declareAll accepted, fresh] at marked
      cases marked
  | @snoc actions action progress next trace acts ih =>
      rw [List.mem_append, List.mem_singleton]
      have published := published_of_accepted wellFormed fresh accepted trace
      have orderly :=
        (orderly_entry env wellFormed parallelism declared world).trace wellFormed trace
      have now := (published.acts wellFormed orderly acts).marked name
      rcases succeeded_of_acts wellFormed orderly acts (now.mp marked)
        with before | ⟨_, lands⟩
      · exact .inl (ih ((published.marked name).mpr before))
      · exact .inr lands.symm

end Begun

/-- Nothing that a run ever shows is at odds with itself: whenever its hook is told of
something, whenever its steps are waited for, and at every top of its loop, a parameter
can be read exactly if the step that provides it is recorded as succeeded.  And whoever
reads a parameter, at whatever point of a run, is refused unless its step has landed with
success by then: the landing marks the step in the register before it is recorded, but not
before it has come back. -/
theorem readable_iff_succeeded {seen : σ → List (Ledger ρ)} (shows : env.Shows seen)
    (wellFormed : graph.WellFormed) (fresh : register.succeeded = []) (limit : Int)
    (world : σ) :
    (∀ turns, Truthful graph seen world (env.run graph limit turns register world).2.world)
      ∧ ∀ declared, declareAll register graph.steps = (declared, none) →
        (∀ turns top,
            env.drain graph limit.toNat turns (env.entry graph declared world) =
              (.again, top) →
              top.ledger.Faithful graph)
          ∧ ∀ actions progress,
              env.Trace graph limit.toNat (env.entry graph declared world)
                actions progress →
                ∀ step ∈ graph.steps, ∀ name ∈ step.provides.map (·.1),
                  (progress.ledger.state step.name ≠ .succeeded →
                      progress.ledger.register.Withholds step.name name)
                    ∧ ∀ found, progress.ledger.register.locate name = .ok found →
                        .land ⟨step.name, .ok ()⟩ ∈ actions := by
  refine ⟨fun turns => ?_, fun declared accepted => ⟨fun turns top again => ?_, ?_⟩⟩
  · rcases run_cases env wellFormed limit turns register world with
      ⟨_, _, _, eq⟩ | ⟨declared, accepted, reached, ⟨actions, trace, _⟩, eq | ⟨result, eq⟩⟩
    · rw [eq]
      exact .refl graph seen world
    · rw [eq]
      exact truthful_trace wellFormed fresh accepted trace shows
    · rw [eq]
      exact (truthful_trace wellFormed fresh accepted trace shows).trans
        (.single (shows.tell _ _) (faithful_trace wellFormed fresh accepted trace))
  · have orderly := orderly_entry env wellFormed limit.toNat declared world
    obtain ⟨⟨actions, trace, _⟩, _⟩ := drain_reaches env wellFormed orderly turns
    rw [again] at trace
    exact faithful_trace wellFormed fresh accepted trace
  · intro actions progress trace step member name provided
    have published := published_of_accepted wellFormed fresh accepted trace
    have owned := published.producer? accepted member provided
    refine ⟨fun unfinished => ?_, fun found located => ?_⟩
    · exact Register.withholds_of_pending owned
        fun marked => unfinished ((published.marked _).mp marked)
    · exact landed_of_marked wellFormed fresh accepted trace
        (Register.succeeded_of_locate owned located)

def watched (outcome : String → Except Error Unit) : Environment κ ρ (List (Ledger ρ)) where
  cancelled _ := false
  now _ := default
  launch _ seen := seen
  await ledger inFlight seen :=
    (inFlight.map fun name => ⟨name, outcome name⟩, seen ++ [ledger])
  hook ledger _ seen := (.ok (), seen ++ [ledger])

theorem watched_shows (outcome : String → Except Error Unit) :
    (watched (κ := κ) (ρ := ρ) outcome).Shows id where
  launch _ _ := rfl
  await _ _ _ := rfl
  hook _ _ _ := rfl

/-- The image can be read from the moment that the hook is told of its end. -/
theorem imaged_readable :
    imaged.WellFormed ∧ (watched (κ := Unit) (ρ := Unit) fun _ => .ok ()).Shows id
      ∧ ((watched fun _ => .ok ()).run imaged 2 5 {} []).2.world.map
          (·.register.has "CLI_IMAGE") = [false, false, false, true, true, true, true, true]
      ∧ ∀ ledger ∈ ((watched fun _ => .ok ()).run imaged 2 5 {} []).2.world,
          ledger.Faithful imaged := by
  have wellFormed : imaged.WellFormed := by decide
  have fresh : ({} : Register Unit).succeeded = [] := rfl
  obtain ⟨truthful, _⟩ := readable_iff_succeeded
    (watched_shows (κ := Unit) (ρ := Unit) fun _ => .ok ()) wellFormed fresh 2 []
  obtain ⟨shown, grown, faithful⟩ := truthful 5
  refine ⟨wellFormed, watched_shows _, by decide +kernel, fun ledger member => ?_⟩
  rw [id, id, List.nil_append] at grown
  exact faithful ledger (grown ▸ member)

end Environment

end BuildPipeline
