import BuildPipeline.Proofs.Execution.Publication
import BuildPipeline.Proofs.Task.PlannedTests
import BuildPipeline.Proofs.Task.SiteRun
import BuildPipeline.Proofs.Task.TestRun

namespace BuildPipeline

open Document

variable {κ ρ σ τ : Type}

namespace StepGraph

variable {graph : StepGraph Task PullSpec}

/-- A parameter that a step can count on: it is the name of an image that a step before it
builds, and this one is declared as its producer. -/
def Backs (graph : StepGraph Task PullSpec) (register : Register PullSpec)
    (step : Step Task PullSpec) (parameter : Value) : Prop :=
  ∃ name, parameter = .string name ∧ ∃ producer ∈ graph.steps,
    (∃ build commands, producer.work.work = .image build commands)
      ∧ name ∈ producer.provides.map (·.1) ∧ register.producer? name = some producer.name
      ∧ producer.name ∈ graph.dependencies step.name

/-- A parameter that can be read: the step of the graph that builds its image is its
producer and is recorded as succeeded. -/
def Supplies (graph : StepGraph Task PullSpec) (ledger : Ledger PullSpec)
    (parameter : Value) : Prop :=
  ∃ name, parameter = .string name ∧ ledger.register.has name = true
    ∧ ∃ producer ∈ graph.steps,
    (∃ build commands, producer.work.work = .image build commands)
      ∧ name ∈ producer.provides.map (·.1)
      ∧ ledger.register.producer? name = some producer.name
      ∧ ledger.state producer.name = .succeeded

theorem backs_of_planned {document : Value} {configuration : Configuration} {job : Job}
    {targets : List String} {promote : Bool} {plan : Plan}
    (accepted : Configuration.ofDocument document = .ok configuration)
    (planned : Plan.ofConfiguration configuration job targets promote = .ok plan)
    (built : plan.graph = .ok graph) {declared : Register PullSpec}
    (declares : Environment.declareAll {} graph.steps = (declared, none))
    {step : Step Task PullSpec} (member : step ∈ graph.steps) {test : TestPlan}
    {sources : List (String × String)} (runs : step.work.work = .test test sources)
    {parameter : Value} (asked : parameter ∈ test.parameters) :
    graph.Backs declared step parameter := by
  obtain ⟨name, rfl, producer, listed, image, provided, edge⟩ :=
    producer_of_parameter accepted planned built member runs asked
  exact ⟨name, rfl, producer, listed, image, provided,
    Environment.producer?_declareAll declares listed provided,
    mem_dependencies_iff_precedes.mpr edge⟩

theorem invalid_of_test {plan : Plan} (built : plan.graph = .ok graph)
    {step : Step Task PullSpec} (member : step ∈ graph.steps) {test : TestPlan}
    {sources : List (String × String)} (runs : step.work.work = .test test sources) :
    step.invalid = none := by
  obtain ⟨task, _, rfl⟩ := task_of_mem built member
  change task.work = _ at runs
  simp only [Task.step, Task.validate, runs]
  rfl

section Free

variable {register : Register PullSpec} {progress : Progress PullSpec σ}
  {step : Step Task PullSpec} {parameter : Value}

theorem Backs.supplies (backs : graph.Backs register step parameter)
    (published : Environment.Published register.declared progress)
    (free : ∀ dependency ∈ graph.dependencies step.name,
      progress.ledger.state dependency = .succeeded) :
        graph.Supplies progress.ledger parameter := by
  obtain ⟨name, same, producer, listed, image, provided, known, before⟩ := backs
  have succeeded := free _ before
  rw [← Register.producer?_congr published.declared] at known
  exact ⟨name, same, Register.has_iff.mpr ⟨_, known, (published.marked _).mpr succeeded⟩,
    producer, listed, image, provided, known, succeeded⟩

theorem Backs.has (backs : graph.Backs register step parameter)
    (published : Environment.Published register.declared progress)
    (free : ∀ dependency ∈ graph.dependencies step.name,
      progress.ledger.state dependency = .succeeded)
    {seen : Register PullSpec}
    (sees : seen.Sees progress.ledger.register (graph.dependencies step.name)) :
    ∃ name, parameter = .string name ∧ seen.has name = true := by
  obtain ⟨name, same, producer, _, _, _, known, before⟩ := backs
  rw [← Register.producer?_congr (sees.declared.trans published.declared)] at known
  refine ⟨name, same, Register.has_iff.mpr ⟨_, known, sees.succeeded _ before ?_⟩⟩
  exact (published.marked _).mpr (free _ before)

end Free

end StepGraph

def Ledger.lacks (ledger : Ledger ρ) (name : String) : Bool :=
  (ledger.result name).error.any Error.lacksParameter

namespace Environment

theorem lacksParameter_failureOf (error : Error) :
    (failureOf error).lacksParameter = error.lacksParameter := by
  unfold failureOf
  split <;> rfl

section Acts

variable {env : Environment κ ρ σ} {graph : StepGraph κ ρ} {parallelism : Nat}
  {progress next : Progress ρ σ}

/-- The coordinator itself has other reasons for what it does; it only passes on what
comes of a step. -/
theorem lacks_of_acts (wellFormed : graph.WellFormed)
    (orderly : Orderly graph parallelism progress) {action : Action κ ρ}
    (acts : env.Acts graph parallelism action progress next) {name : String}
    (landing : ∀ completion, action = .land completion → completion.name = name →
      Answer.Supplied completion.outcome)
    (before : progress.ledger.lacks name = false) : next.ledger.lacks name = false := by
  by_cases subject : action.subject? = some name
  · cases acts with
    | skip ordered =>
        cases subject
        rw [Ledger.lacks, result_finish_self env _ _ (orderly.present wellFormed ordered)]
        rfl
    | sweep ordered _ allowed =>
        cases subject
        rw [Ledger.lacks, result_finish_self env _ _ (orderly.present wellFormed ordered)]
        rcases allowed with ⟨_, rfl⟩ | ⟨_, rfl⟩ <;> rfl
    | ready ordered =>
        cases subject
        rw [Ledger.lacks, Ledger.result_ready_self (orderly.present wellFormed ordered)]
        exact before
    | start ordered =>
        cases subject
        rw [Ledger.lacks, result_start_self env (orderly.present wellFormed ordered)]
        exact before
    | stop | pause => cases subject
    | @land _ completion flying =>
        cases subject
        have present : completion.name ∈ progress.ledger.recorded :=
          orderly.recorded ▸ orderly.tidy.mem_names_of_flying flying
        obtain ⟨moment, self⟩ := result_record_self env flying present
        have supplied := landing completion rfl rfl
        rw [Ledger.lacks, self]
        cases outcome : completion.outcome with
        | ok _ => exact before
        | error error =>
            rw [outcome] at supplied
            exact (lacksParameter_failureOf error).trans supplied
  · rw [Ledger.lacks, acts.result_of_ne subject]
    exact before

theorem lacks_entry (env : Environment κ ρ σ) (wellFormed : graph.WellFormed)
    (register : Register ρ) (world : σ) {step : Step κ ρ} (member : step ∈ graph.steps)
    (valid : step.invalid = none) :
    (env.entry graph register world).ledger.lacks step.name = false := by
  by_cases ordered : step.name ∈ graph.order
  · rw [← StepGraph.names_orderedSteps wellFormed] at ordered
    obtain ⟨other, listed, same⟩ := List.mem_map.mp ordered
    obtain rfl := StepGraph.step_eq_of_name_eq wellFormed
      ((StepGraph.mem_orderedSteps_iff wellFormed).mp listed).1 member same
    obtain ⟨moment, result⟩ := result_entry env wellFormed register world listed
    rw [Ledger.lacks, result, checked, valid]
    rfl
  · rw [Ledger.lacks, result_entry_of_not_mem env wellFormed register world ordered]
    rfl

end Acts

/-- What is true all along a run in a world that carries out what it is handed: it knows
the steps in flight, the register is up to date, and no test was refused for want of a
parameter. -/
structure Attended (graph : StepGraph Task PullSpec)
    (declared : List (Declaration PullSpec)) (tasks : σ → List (String × Task))
    (progress : Progress PullSpec σ) : Prop where
  knows : Knows graph tasks progress
  published : Published declared progress
  sound : ∀ step ∈ graph.steps, ∀ test sources, step.work.work = .test test sources →
    progress.ledger.lacks step.name = false

variable {env : Environment Task PullSpec σ} {provider : Provider τ}
  {graph : StepGraph Task PullSpec} {tasks : σ → List (String × Task)}
  {register : Register PullSpec}

theorem Attended.keeps (wellFormed : graph.WellFormed)
    (performs : env.Performs provider graph tasks) (supplied : provider.client.Supplied)
    (backs : ∀ step ∈ graph.steps, ∀ test sources, step.work.work = .test test sources →
      ∀ parameter ∈ test.parameters, graph.Backs register step parameter)
    (parallelism : Nat) :
    env.Keeps graph parallelism (Attended graph register.declared tasks) := by
  refine Keeps.of_land wellFormed ?_ ?_ ?_ ?_
  · intro action progress next quiet orderly acts attended
    refine ⟨performs.hands.acts wellFormed acts attended.knows,
      attended.published.acts wellFormed orderly acts,
      fun step member test sources runs => ?_⟩
    refine lacks_of_acts wellFormed orderly acts (fun completion same _ => ?_)
      (attended.sound step member test sources runs)
    subst same
    cases quiet
  · intro progress attended
    exact ⟨attended.knows.of_works_eq (performs.hands.await _ _ _),
      ⟨attended.published.declared, attended.published.marked⟩, attended.sound⟩
  · intro waiting progress completion calm before delivered aloft orderly flying attended
    have acts : env.Acts graph parallelism (.land completion) progress _ := .land flying
    refine ⟨performs.hands.acts wellFormed acts attended.knows,
      attended.published.acts wellFormed orderly acts,
      fun step member test sources runs => ?_⟩
    refine lacks_of_acts wellFormed orderly acts (fun landed same named => ?_)
      (attended.sound step member test sources runs)
    cases same
    rw [named] at aloft
    have known := before.knows step member aloft
    rw [← named] at known
    obtain ⟨seen, site, sees, outcome⟩ :=
      performs.outcome _ _ _ completion delivered _ known
    rw [named] at sees
    rw [outcome]
    exact Provider.supplied_run supplied runs (fun parameter asked =>
      (backs step member test sources runs parameter asked).has before.published
        (calm.free _ (.inr (calm.launched _ aloft))) sees) site
  · intro event progress attended
    exact ⟨attended.knows.of_works_eq (performs.hands.hook _ _ _),
      ⟨attended.published.declared, attended.published.marked⟩, attended.sound⟩

theorem Attended.entry (wellFormed : graph.WellFormed) (fresh : register.succeeded = [])
    (valid : ∀ step ∈ graph.steps, ∀ test sources, step.work.work = .test test sources →
      step.invalid = none) (world : σ) :
    Attended graph register.declared tasks (env.entry graph register world) :=
  ⟨.of_idle (entry_eq env wellFormed register world).1,
    published_entry env wellFormed fresh world,
    fun step member test sources runs =>
      lacks_entry env wellFormed register world member
        (valid step member test sources runs)⟩

end Environment

/-- The tests of a configuration, in a graph of it whose parameters are declared without
conflict.  At every point of every run, as soon as a test may be started and from then on,
all its parameters can be read; at such a point it is not refused for want of one,
wherever it is run; nor does a whole run record it as refused for that, whenever and in
whatever order its world carries out the steps. -/
theorem StepGraph.tests_supplied {document : Value} {configuration : Configuration}
    {job : Job} {targets : List String} {promote : Bool} {plan : Plan}
    {graph : StepGraph Task PullSpec} {declared : Register PullSpec}
    (accepted : Configuration.ofDocument document = .ok configuration)
    (planned : Plan.ofConfiguration configuration job targets promote = .ok plan)
    (built : plan.graph = .ok graph)
    (declares : Environment.declareAll {} graph.steps = (declared, none)) :
    (∀ {σ : Type} (env : Environment Task PullSpec σ) (parallelism : Int)
      (world : σ) actions progress,
        env.Trace graph parallelism.toNat (env.entry graph declared world)
          actions progress →
        ∀ step ∈ graph.steps, ∀ test sources, step.work.work = .test test sources →
          (step.name ∈ actions.filterMap Environment.Action.started?
            ∨ ∃ next, env.Acts graph parallelism.toNat (.start step) progress next) →
          (∀ parameter ∈ test.parameters, graph.Supplies progress.ledger parameter)
            ∧ ∀ {τ : Type} (provider : Provider τ) (site : Site τ),
                provider.client.Supplied →
              ∀ error, ((provider.facilities progress.ledger.register).run step.work site).1
                  = .error error → error.lacksParameter = false)
      ∧ ∀ {σ τ : Type} (env : Environment Task PullSpec σ) (provider : Provider τ)
          (tasks : σ → List (String × Task)), env.Performs provider graph tasks →
          provider.client.Supplied → ∀ (parallelism : Int) turns world progress,
            progress = (env.run graph parallelism turns {} world).2 →
            ∀ step ∈ graph.steps, ∀ test sources, step.work.work = .test test sources →
              ∀ error, (progress.ledger.result step.name).error = some error →
                error.lacksParameter = false := by
  have wellFormed := wellFormed_of_build built (names_nodup built)
  have fresh : declared.succeeded = [] := Environment.succeeded_declareAll declares
  have backs : ∀ step ∈ graph.steps, ∀ test sources, step.work.work = .test test sources →
      ∀ parameter ∈ test.parameters, graph.Backs declared step parameter :=
    fun step member test sources runs parameter asked =>
      backs_of_planned accepted planned built declares member runs asked
  constructor
  · intro σ env parallelism world actions progress trace step member test sources runs begun
    have orderly :=
      (Environment.orderly_entry env wellFormed _ declared world).trace wellFormed trace
    have published := Environment.published_trace wellFormed fresh trace
    -- All that a started step depends on has succeeded, whether it was started on the way
    -- here or is about to be.
    have free : ∀ dependency ∈ graph.dependencies step.name,
        progress.ledger.state dependency = .succeeded := by
      rcases begun with started | ⟨next, acts⟩
      · intro dependency before
        exact (Environment.succeeded_before_started wellFormed trace
          (mem_dependencies_iff_precedes.mp before) started).2
      · exact (Environment.start_allowed wellFormed orderly acts).2.2
    have backs := backs step member test sources runs
    refine ⟨fun parameter asked => (backs parameter asked).supplies published free, ?_⟩
    intro τ provider site supplied error failed
    have answer := Provider.supplied_run supplied runs
      (fun parameter asked => (backs parameter asked).has published free (.refl _ _)) site
    rwa [failed] at answer
  · intro σ τ env provider tasks performs supplied parallelism turns world progress ends
      step member test sources runs error recorded
    have sound : progress.ledger.lacks step.name = false := by
      have keeps :=
        Environment.Attended.keeps wellFormed performs supplied backs parallelism.toNat
      rw [ends]
      rcases keeps.run_of_entry wellFormed turns {} world
        with ⟨_, broken⟩ | ⟨_, answer, kept⟩
      · rw [broken, Ledger.lacks, Environment.result_opening]
        rfl
      · cases declares.symm.trans answer
        refine (kept (.entry wellFormed fresh ?_ world)).sound step member test sources runs
        exact fun step member test sources runs => invalid_of_test built member runs
    rwa [Ledger.lacks, recorded] at sound

namespace Configuration

def uiDocument : Value :=
  .object
    [("images", .list [.object [("to", .string "UI")]]),
      ("tests", .list
        [.object
          [("as", .string "unit"), ("commands", .string "make unit"),
            ("from", .string "UI"), ("parameters", .texts ["IMAGE_UI"])]])]

def uiTest : TestPlan where
  name := "unit"
  commands := "make unit"
  base := "UI"
  parameters := [.string "IMAGE_UI"]

def uiRelease : Configuration where
  images := [{ target := "UI" }]
  tests := [uiTest]

def uiJob : Job where
  project := "ci"
  refs := some { org := "example", repo := "ui", baseRef := "main" }

def uiPlan : Plan where
  requested := [⟨uiJob, .test uiTest uiRelease.sources⟩]
  implicit :=
    [⟨uiJob, .source⟩, ⟨uiJob, .image { target := "UI" } ""⟩,
      ⟨uiJob, Work.imagesReadyOf ["UI"]⟩]

def uiGraph : StepGraph Task PullSpec where
  steps :=
    [Task.step ⟨uiJob, .test uiTest uiRelease.sources⟩,
      Task.step ⟨uiJob, .image { target := "UI" } ""⟩, Task.step ⟨uiJob, .source⟩]
  edges := [("UI", "unit"), (Work.sourceName, "UI")]

def uiRegister : Register PullSpec where
  declared := [⟨"IMAGE_UI", "UI", ⟨"ci", "UI"⟩⟩]

def uiStream : Value :=
  .object [("status", .object [("tags", .list
    [.object
      [("tag", .string "UI"),
        ("items",
          .list [.object [("dockerImageReference", .string "registry/ci/ui")]])]])])]

def uiProvider : Provider Unit where
  client :=
    { get := fun _ _ world => (.ok uiStream, world)
      create := fun pod world =>
        (.ok (MemoryCluster.withStatus pod (MemoryCluster.phaseStatus "Succeeded")), world)
      pause := fun world => (false, world) }
  cancelled _ := false
  patience := 1

def uiRun : Environment.Ending × Progress PullSpec (Site Unit) :=
  uiProvider.environment.run uiGraph 1 5 {} { cluster := () }

theorem ui_unit_supplied :
    ofDocument uiDocument = .ok uiRelease
      ∧ Plan.ofConfiguration uiRelease uiJob ["unit"] false = .ok uiPlan
      ∧ uiPlan.graph = .ok uiGraph
      ∧ Environment.declareAll {} uiGraph.steps = (uiRegister, none)
      ∧ uiRun.2.ledger.state "unit" = .succeeded
      ∧ uiGraph.Supplies uiRun.2.ledger (.string "IMAGE_UI")
      ∧ ∀ error, (uiRun.2.ledger.result "unit").error = some error →
          error.lacksParameter = false := by
  have accepted : ofDocument uiDocument = .ok uiRelease := rfl
  have planned : Plan.ofConfiguration uiRelease uiJob ["unit"] false = .ok uiPlan := rfl
  have built : uiPlan.graph = .ok uiGraph :=
    @StepGraph.build_of_close Task PullSpec (uiPlan.requested.map Task.step)
      (uiPlan.implicit.map Task.step) _ rfl
      (by rw [StepGraph.cycle?_of_sorted (by decide)]; rfl)
  have declares : Environment.declareAll {} uiGraph.steps = (uiRegister, none) := rfl
  have succeeded : uiRun.2.ledger.state "unit" = .succeeded := by decide +kernel
  have member : Task.step ⟨uiJob, .test uiTest uiRelease.sources⟩ ∈ uiGraph.steps := .head _
  obtain ⟨readable, recorded⟩ := StepGraph.tests_supplied accepted planned built declares
  refine ⟨accepted, planned, built, declares, succeeded, ?_, ?_⟩
  · have wellFormed := StepGraph.wellFormed_of_build built (StepGraph.names_nodup built)
    obtain ⟨_, actions, reached, answer, trace, started, ledger⟩ :=
      Environment.trace_of_succeeded wellFormed succeeded
    cases declares.symm.trans answer
    rw [uiRun, ledger]
    exact (readable uiProvider.environment 1 { cluster := () } actions reached trace
      _ member _ _ rfl (.inl started)).1 _ List.mem_cons_self
  · exact recorded uiProvider.environment uiProvider Site.tasks
      (uiProvider.performs uiGraph)
      ⟨fun _ _ _ => trivial, fun _ _ => trivial⟩ 1 5
      { cluster := () } _ rfl _ member _ _ rfl

end Configuration

end BuildPipeline
