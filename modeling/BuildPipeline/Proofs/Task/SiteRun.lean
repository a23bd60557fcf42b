import BuildPipeline.Proofs.Task.Handing
import BuildPipeline.Proofs.Task.PodRun

namespace BuildPipeline

open Document

variable {ρ σ : Type}

namespace Resolving

variable {resolving : Resolving ρ σ} {related : σ → σ → Prop}

theorem getNamed_respects (refl : ∀ world, related world world)
    (resolve : ∀ resolver world, related world (resolving.resolve resolver world).2)
    (register : Register ρ) (resolved : Resolved) (name : Value) (world : σ) :
    related world (resolving.getNamed register resolved name world).2.2 := by
  unfold getNamed
  split
  · unfold get
    split
    · exact refl world
    · rename_i place resolver _
      have asked := resolve resolver world
      unfold valueAt
      split
      · exact refl world
      · split <;> rename_i eq <;> rwa [eq] at asked
  · exact refl world

theorem environmentFrom_respects (refl : ∀ world, related world world)
    (trans : ∀ {world between next}, related world between → related between next →
      related world next)
    (resolve : ∀ resolver world, related world (resolving.resolve resolver world).2)
    (register : Register ρ) (values : List (String × Value)) (resolved : Resolved)
    (names : List Value) (world : σ) :
    related world (resolving.environmentFrom register values resolved names world).2.2 := by
  induction names generalizing values resolved world with
  | nil => exact refl world
  | cons name rest ih =>
      have read := getNamed_respects refl resolve register resolved name world
      unfold environmentFrom
      split <;> rename_i eq <;> rw [eq] at read
      · exact read
      · exact trans read (ih _ _ _)

end Resolving

namespace Site

def Tends (related : σ → σ → Prop) (site next : Site σ) : Prop :=
  next.tasks = site.tasks ∧ related site.cluster next.cluster

end Site

namespace Provider

variable {provider : Provider σ} {related : σ → σ → Prop}
  {held : σ → ObjectName → Option Value} {foreign : ObjectName → Prop}

theorem onSite_respects (respects : provider.client.Respects related) :
    provider.onSite.Respects (Site.Tends related) where
  refl site := ⟨rfl, respects.refl site.cluster⟩
  trans first second := ⟨second.1.trans first.1, respects.trans first.2 second.2⟩
  get inRun object site := ⟨rfl, respects.get inRun object site.cluster⟩
  pause site := ⟨rfl, respects.pause site.cluster⟩

theorem read_respects (respects : provider.client.Respects related) (spec : PullSpec)
    (site : Site σ) : Site.Tends related site (spec.read provider.onSite site).2 := by
  have looked :=
    (onSite_respects respects).get false (Facilities.pipelineStream spec.project) site
  unfold PullSpec.read
  split <;> rename_i eq <;> rw [eq] at looked
  · exact looked
  · split
    · exact looked
    · split <;> exact looked

theorem facilities_respects (respects : provider.client.Respects related)
    (register : Register PullSpec) :
    (provider.facilities register).Respects (Site.Tends related) where
  client := onSite_respects respects
  parameters names site :=
    Resolving.environmentFrom_respects (onSite_respects respects).refl
      (onSite_respects respects).trans (read_respects respects) register
      [] site.resolved names site

theorem onSite_honest (honest : provider.client.Honest held foreign) :
    provider.onSite.Honest (fun site => held site.cluster) foreign where
  get inRun object site _ own := honest.get inRun object site.cluster own
  pause site _ own := honest.pause site.cluster own
  create pod site _ own := honest.create pod site.cluster own
  created pod site _ own answered := honest.created pod site.cluster own answered
  conflict pod site _ own refused conflicts :=
    honest.conflict pod site.cluster own refused conflicts

theorem facilities_honest (honest : provider.client.Honest held foreign)
    (register : Register PullSpec) :
    (provider.facilities register).Honest (fun site => held site.cluster) foreign where
  client := onSite_honest honest
  parameters names site _ own :=
    ((facilities_respects (honest.respects_held own) register).parameters names site).2

theorem tasks_run (provider : Provider σ) (register : Register PullSpec) (task : Task)
    (site : Site σ) :
    ((provider.facilities register).run task site).2.tasks = site.tasks := by
  have respects : provider.client.Respects fun _ _ => True :=
    ⟨fun _ => trivial, fun _ _ => trivial, fun _ _ _ => trivial, fun _ => trivial⟩
  exact ((facilities_respects respects register).run task
    (fun _ _ _ => ⟨rfl, trivial⟩) site).1

theorem cluster_hook (ledger : Ledger PullSpec) (event : Event) (site : Site σ) :
    (provider.environment.hook ledger event site).2.cluster = site.cluster := by
  change (tellHook event site).2.cluster = site.cluster
  unfold tellHook
  split <;> rfl

theorem tasks_hook (ledger : Ledger PullSpec) (event : Event) (site : Site σ) :
    (provider.environment.hook ledger event site).2.tasks = site.tasks := by
  change (tellHook event site).2.tasks = site.tasks
  unfold tellHook
  split <;> rfl

theorem hands (provider : Provider σ) : provider.environment.Hands Site.tasks where
  launch _ _ := rfl
  await ledger inFlight site := by
    change (provider.carryOut ledger.register inFlight site).2.tasks = site.tasks
    unfold carryOut
    split
    · rfl
    · split
      · rfl
      · exact tasks_run _ _ _ _
  hook := tasks_hook

theorem performs (provider : Provider σ) (graph : StepGraph Task PullSpec) :
    provider.environment.Performs provider graph Site.tasks where
  hands := provider.hands
  outcome ledger inFlight site := by
    intro completion delivered task known
    change completion ∈ (provider.carryOut ledger.register inFlight site).1 at delivered
    unfold carryOut at delivered
    split at delivered
    · cases delivered
    · split at delivered <;> cases List.mem_singleton.mp delivered <;> rename_i found
      · cases found.symm.trans known
      · cases found.symm.trans known
        exact ⟨ledger.register, site, .refl _ _, rfl⟩

end Provider

/-- A graph that has the pods of its steps to itself, and none of them twice. -/
structure Provider.Hosts (provider : Provider σ) (held : σ → ObjectName → Option Value)
    (foreign : ObjectName → Prop) (graph : StepGraph Task PullSpec) : Prop where
  honest : provider.client.Honest held foreign
  own : ∀ step ∈ graph.steps, ∀ object, step.work.object? = some object → ¬ foreign object
  nodup : graph.pods.Nodup

theorem Provider.Hosts.others_kept {provider : Provider σ}
    {held : σ → ObjectName → Option Value} {foreign : ObjectName → Prop}
    {graph : StepGraph Task PullSpec} (hosts : provider.Hosts held foreign graph)
    {step other : Step Task PullSpec} (member : step ∈ graph.steps)
    (hother : other ∈ graph.steps) (ne : other ≠ step) {object : ObjectName}
    (runs : other.work.object? = some object) (register : Register PullSpec)
    (site : Site σ) :
    held ((provider.facilities register).run step.work site).2.cluster object =
      held site.cluster object := by
  rcases Facilities.run_adds (Provider.facilities_honest hosts.honest register)
    (hosts.own other hother object runs) step.work site with kept | ⟨pod, asks, same, _⟩
  · exact kept
  · have own : step.work.object? = some object := by rw [same, asks.object]
    exact absurd (StepGraph.eq_of_object hosts.nodup hother member runs own) ne

/-- What is true of a site all along a run: the steps in flight are known, a step that has
not run to its end finds no pod of its name, and one that has succeeded had a pod of its
own. -/
structure Tended (provider : Provider σ) (held : σ → ObjectName → Option Value)
    (graph : StepGraph Task PullSpec) (progress : Progress PullSpec (Site σ)) : Prop where
  known : ∀ step ∈ graph.steps, step.name ∈ progress.inFlight →
    Table.get? progress.world.tasks step.name = some step.work
  fresh : ∀ step ∈ graph.steps, Environment.Unrun progress step.name →
    ∀ object, step.work.object? = some object → held progress.world.cluster object = none
  served : ∀ step ∈ graph.steps, step.work.object? ≠ none →
    progress.ledger.state step.name = .succeeded →
      step.work.IsServed provider.onSite provider.patience (fun site => held site.cluster)
        progress.world

namespace Tended

variable {provider : Provider σ} {held : σ → ObjectName → Option Value}
  {foreign : ObjectName → Prop} {graph : StepGraph Task PullSpec} {parallelism : Nat}
  {progress next : Progress PullSpec (Site σ)}

theorem tell (tended : Tended provider held graph progress) (event : Event) :
    Tended provider held graph (provider.environment.tell event progress) := by
  have cluster := provider.cluster_hook progress.ledger event progress.world
  have tasks := provider.tasks_hook progress.ledger event progress.world
  refine ⟨fun step member flying => ?_, fun step member unrun object runs => ?_,
    fun step member runs succeeded => ?_⟩
  · exact (congrArg (Table.get? · step.name) tasks).trans (tended.known step member flying)
  · exact (congrArg (held · object) cluster).trans
      (tended.fresh step member unrun object runs)
  · exact (tended.served step member runs succeeded).of_held_eq fun object _ =>
      congrArg (held · object) cluster

theorem cluster_of_quiet {action : Environment.Action Task PullSpec}
    (quiet : Environment.IsQuiet action)
    (acts : provider.environment.Acts graph parallelism action progress next) :
    next.world.cluster = progress.world.cluster := by
  cases acts with
  | skip | sweep => exact Environment.view_finish provider.cluster_hook _ _ _ _
  | start => exact provider.cluster_hook _ _ _
  | stop | ready => rfl
  | pause | land => cases quiet

theorem decide (tended : Tended provider held graph progress)
    (wellFormed : graph.WellFormed) {action : Environment.Action Task PullSpec}
    (quiet : Environment.IsQuiet action)
    (orderly : Environment.Orderly graph parallelism progress)
    (acts : provider.environment.Acts graph parallelism action progress next) :
    Tended provider held graph next := by
  have cluster := cluster_of_quiet quiet acts
  refine ⟨provider.hands.acts wellFormed acts tended.known,
    fun step member unrun object runs => ?_, fun step member runs succeeded => ?_⟩
  · exact (congrArg (held · object) cluster).trans
      (tended.fresh step member (Environment.unrun_of_quiet orderly quiet acts unrun)
        object runs)
  · have before := Environment.succeeded_of_quiet wellFormed orderly quiet acts succeeded
    exact (tended.served step member runs before).of_held_eq fun object _ =>
      congrArg (held · object) cluster

theorem landed (tended : Tended provider held graph progress)
    (wellFormed : graph.WellFormed) (hosts : provider.Hosts held foreign graph)
    (orderly : Environment.Orderly graph parallelism progress) {step : Step Task PullSpec}
    (member : step ∈ graph.steps) (flying : step.name ∈ progress.inFlight)
    {register : Register PullSpec} {outcome : Except Error Unit} {site : Site σ}
    (ran : (provider.facilities register).run step.work progress.world = (outcome, site)) :
    Tended provider held graph
      (provider.environment.record { progress with world := site }
        ⟨step.name, outcome⟩) := by
  let run := { progress with world := site }
  let completion : Completion := ⟨step.name, outcome⟩
  have calm : Environment.Orderly graph parallelism run := { orderly with }
  have cluster : (provider.environment.record run completion).world.cluster =
      site.cluster :=
    Environment.view_record provider.cluster_hook run completion
  have knows : Environment.Knows graph Site.tasks run := by
    have unchanged := Provider.tasks_run provider register step.work progress.world
    rw [ran] at unchanged
    exact Environment.Knows.of_works_eq tended.known unchanged
  -- The step writes to its own pod only.
  have others : ∀ other ∈ graph.steps, other ≠ step →
      ∀ object, other.work.object? = some object →
      held (provider.environment.record run completion).world.cluster object =
        held progress.world.cluster object := by
    intro other hother ne object runs
    have kept := hosts.others_kept member hother ne runs register progress.world
    rw [ran] at kept
    exact (congrArg (held · object) cluster).trans kept
  have lands : provider.environment.Acts graph parallelism (.land completion) run _ :=
    .land flying
  refine ⟨provider.hands.acts wellFormed lands knows,
    fun other hother unrun object runs => ?_,
    fun other hother runs succeeded => ?_⟩
  · obtain ⟨ne, earlier⟩ := Environment.unrun_record calm flying unrun
    have different : other ≠ step := fun same => ne (congrArg Step.name same)
    exact (others other hother different object runs).trans
      (tended.fresh other hother earlier object runs)
  · -- The step that landed was served by its own run, every other one before it.
    by_cases same : other.name = step.name
    · obtain rfl := StepGraph.step_eq_of_name_eq wellFormed hother member same
      have present : other.name ∈ progress.ledger.recorded := by
        rw [orderly.recorded]
        exact orderly.tidy.mem_names_of_flying flying
      have done : outcome = .ok () :=
        Environment.outcome_of_succeeded provider.environment flying present succeeded
      rw [done] at ran
      obtain ⟨object, runs⟩ := Option.ne_none_iff_exists'.mp runs
      have served :=
        Facilities.run_own (Provider.facilities_honest hosts.honest register) runs
        (hosts.own other member object runs)
        (tended.fresh other member (Or.inl flying) object runs) ran
      exact served.of_held_eq fun object _ => congrArg (held · object) cluster
    · have different : other ≠ step := fun eq => same (congrArg Step.name eq)
      rw [Ledger.state,
        Environment.result_record_of_ne provider.environment run same] at succeeded
      exact (tended.served other hother runs succeeded).of_held_eq
        (others other hother different)

theorem collect (tended : Tended provider held graph progress)
    (wellFormed : graph.WellFormed) (hosts : provider.Hosts held foreign graph)
    (orderly : Environment.Orderly graph parallelism progress) :
    Tended provider held graph (provider.environment.collect progress) := by
  cases flight : progress.inFlight with
  | nil =>
      have idle : provider.environment.await progress.ledger progress.inFlight
          progress.world = ([], progress.world) := by
        rw [flight]
        rfl
      rw [Environment.collect, idle]
      exact tended
  | cons name rest =>
      have flying : name ∈ progress.inFlight := by
        rw [flight]
        exact List.mem_cons_self
      obtain ⟨step, member, rfl⟩ :=
        List.mem_map.mp (orderly.tidy.mem_names_of_flying flying)
      rcases ran : (provider.facilities progress.ledger.register).run step.work
        progress.world with
        ⟨outcome, site⟩
      have carried :
          provider.environment.await progress.ledger progress.inFlight progress.world =
            ([⟨step.name, outcome⟩], site) := by
        rw [flight]
        simp only [Provider.environment, Provider.carryOut,
          tended.known step member flying, ran]
      rw [Environment.collect, carried]
      exact tended.landed wellFormed hosts orderly member flying ran

theorem keeps (hosts : provider.Hosts held foreign graph) (wellFormed : graph.WellFormed)
    (parallelism : Nat) :
    provider.environment.Keeps graph parallelism (Tended provider held graph) where
  decide quiet orderly acts tended := tended.decide wellFormed quiet orderly acts
  collect orderly tended := tended.collect wellFormed hosts orderly
  tell event _ tended := tended.tell event

theorem start (world : Site σ)
    (empty : ∀ step ∈ graph.steps, ∀ object, step.work.object? = some object →
      held world.cluster object = none)
    (cluster : progress.world.cluster = world.cluster) (idle : progress.inFlight = [])
    (unended : ∀ name, progress.ledger.state name ≠ .succeeded) :
    Tended provider held graph progress := by
  refine ⟨fun step _ flying => ?_, fun step member _ object runs => ?_,
    fun step _ _ succeeded => absurd succeeded (unended step.name)⟩
  · rw [idle] at flying
    cases flying
  · rw [cluster]
    exact empty step member object runs

end Tended

namespace Provider

/-- If the pods of a graph have distinct names, nobody else makes use of these and none of
them is there at the start, the site is tended to all along, however often the coordinator
turns. -/
theorem Hosts.tended_run {provider : Provider σ} {held : σ → ObjectName → Option Value}
    {foreign : ObjectName → Prop} {graph : StepGraph Task PullSpec}
    (hosts : provider.Hosts held foreign graph) (wellFormed : graph.WellFormed)
    {site : Site σ}
    (empty : ∀ step ∈ graph.steps, ∀ object, step.work.object? = some object →
      held site.cluster object = none)
    (parallelism : Int) (turns : Nat) (register : Register PullSpec) :
    Tended provider held graph
      (provider.environment.run graph parallelism turns register site).2 := by
  refine (Tended.keeps hosts wellFormed parallelism.toNat).run wellFormed
    (fun register => ?_) (fun register => ?_) turns register
  · refine Tended.start site empty rfl rfl fun name succeeded => ?_
    rw [Ledger.state, Environment.result_opening] at succeeded
    cases succeeded
  · refine Tended.start site empty
      (Environment.view_entry provider.cluster_hook graph register site)
      (Environment.entry_eq provider.environment wellFormed register site).1
      fun name succeeded => ?_
    rcases Environment.state_entry provider.environment wellFormed register site name with
      state | state <;> simp [state] at succeeded

end Provider

namespace Plan

/-- The pods of a graph that a plan makes have distinct names exactly if its tests keep
apart from each other and from the builds and the promotion in the names of their pods.
Then a step that succeeds had a pod of its own if there was none of that name before:
whatever the other steps do to their pods meanwhile, and, over a whole run, if none of the
pods is there at the start. -/
theorem own_pods_of_testsApart {plan : Plan} {graph : StepGraph Task PullSpec}
    (built : plan.graph = .ok graph) :
    (graph.pods.Nodup ↔ graph.TestsApart)
      ∧ (graph.TestsApart → ∀ {σ : Type} (facilities : Facilities σ)
          (held : σ → ObjectName → Option Value) (foreign : ObjectName → Prop),
          ∀ step ∈ graph.steps, ∀ object, step.work.object? = some object →
            ¬ foreign object →
            facilities.Honest held (fun name => foreign name ∨ graph.IsOthers step name) →
              ∀ world next, held world object = none →
                facilities.run step.work world = (.ok (), next) →
                  step.work.IsServed facilities.client facilities.patience held next)
      ∧ (graph.TestsApart → graph.names.Nodup → ∀ {σ : Type} (provider : Provider σ)
          (held : σ → ObjectName → Option Value) (foreign : ObjectName → Prop)
            (site : Site σ),
          provider.client.Honest held foreign →
          (∀ step ∈ graph.steps, ∀ object, step.work.object? = some object →
            ¬ foreign object ∧ held site.cluster object = none) →
          ∀ parallelism turns register progress,
            progress = (provider.environment.run graph parallelism turns register site).2 →
            ∀ step ∈ graph.steps, step.work.object? ≠ none →
              progress.ledger.state step.name = .succeeded →
                step.work.IsServed provider.onSite provider.patience
                  (fun site => held site.cluster) progress.world) := by
  have distinct_iff := StepGraph.pods_nodup_iff_testsApart built
  refine ⟨distinct_iff, fun apart {σ} facilities held foreign step member object
    runs strange honest
    world next absent ran => ?_, fun apart named {σ} provider held foreign site honest empty
    parallelism turns register progress hprogress step member runs succeeded => ?_⟩
  · have own : ¬ (foreign object ∨ graph.IsOthers step object) := by
      rintro (elsewhere | ⟨other, hother, ne, runs'⟩)
      · exact strange elsewhere
      · exact ne (StepGraph.eq_of_object (distinct_iff.mpr apart) hother member runs' runs)
    exact Facilities.run_own honest runs own absent ran
  · have hosts : provider.Hosts held foreign graph :=
      ⟨honest, fun step member object runs => (empty step member object runs).1,
        distinct_iff.mpr apart⟩
    have tended := hosts.tended_run (StepGraph.wellFormed_of_build built named)
      (fun step member object runs => (empty step member object runs).2)
      parallelism turns register
    rw [← hprogress] at tended
    exact tended.served step member runs succeeded

def twoTests (first second : String) : Configuration where
  tests := [{ name := first, commands := "make " ++ first },
    { name := second, commands := "make " ++ second }]

def testJob : Job := { project := "ci" }

def ofTests (first second : String) : Plan where
  requested := (twoTests first second).works.map fun work => ⟨testJob, work⟩

def testGraph (first second : String) : StepGraph Task PullSpec where
  steps := (ofTests first second).requested.map Task.step
  edges := [(Work.sourceName, first), (Work.sourceName, second)]

def willing : Provider MemoryCluster :=
  { MemoryCluster.provider with client := MemoryCluster.willing }

def testTask (name : String) : Task :=
  ⟨testJob, Work.testOf { name, commands := "make " ++ name } []⟩

theorem graph_ofTests {first second : String}
    (closed : StepGraph.close ((ofTests first second).requested.map Task.step) [] =
      .ok ⟨(testGraph first second).steps, Producers.claims
        (testGraph first second).steps, []⟩)
    (edges : StepGraph.edgesAmong (testGraph first second).steps
      (Producers.claims (testGraph first second).steps) = (testGraph first second).edges)
    (free : cycle? (testGraph first second).names (testGraph first second).edges = none) :
    (ofTests first second).graph = .ok (testGraph first second) := by
  have built := StepGraph.build_of_close closed (edges.symm ▸ free)
  rwa [edges] at built

theorem e2e_unit_own_pods :
    (testGraph "e2e" "unit").pods.Nodup
      ∧ (∃ next, (willing.facilities {}).run (testTask "unit")
          { cluster := {} } = (.ok (), next)
          ∧ (testTask "unit").IsServed willing.onSite willing.patience
              (fun site => site.cluster.find?) next)
      ∧ ∃ progress,
          progress = (willing.environment.run (testGraph "e2e" "unit") 2 5 {}
            { cluster := {} }).2
            ∧ (progress.ledger.state "unit" = .succeeded →
              (testTask "unit").IsServed willing.onSite willing.patience
                (fun site => site.cluster.find?) progress.world) := by
  have built : (ofTests "e2e" "unit").graph = .ok (testGraph "e2e" "unit") :=
    graph_ofTests rfl rfl (by rw [StepGraph.cycle?_of_sorted (by decide)]; rfl)
  obtain ⟨distinct_iff, alone, throughout⟩ := own_pods_of_testsApart built
  have distinct : (testGraph "e2e" "unit").pods.Nodup := by decide
  have apart := distinct_iff.mp distinct
  have member : (testTask "unit").step ∈ (testGraph "e2e" "unit").steps :=
    .tail _ (.tail _ (.head _))
  refine ⟨distinct, ⟨_, rfl, ?_⟩, _, rfl, ?_⟩
  · exact alone apart (willing.facilities {}) (fun site => site.cluster.find?)
      (fun _ => False) (testTask "unit").step member _ rfl not_false
      (Provider.facilities_honest (MemoryCluster.honest _) {}) { cluster := {} } _ rfl rfl
  · exact throughout apart (by decide) willing MemoryCluster.find? (fun _ => False)
      { cluster := {} }
      (MemoryCluster.honest _) (fun _ _ _ _ => ⟨not_false, rfl⟩) 2 5 {} _ rfl
      (testTask "unit").step member (Option.some_ne_none _)

/-- Dots and dashes come to the same in the name of a pod. -/
theorem dotted_test_shares_pod :
    ofConfiguration (twoTests "e2e-aws" "e2e.aws") testJob [] false =
        .ok (ofTests "e2e-aws" "e2e.aws")
      ∧ (ofTests "e2e-aws" "e2e.aws").graph = .ok (testGraph "e2e-aws" "e2e.aws")
      ∧ ¬ (testGraph "e2e-aws" "e2e.aws").pods.Nodup
      ∧ ∃ between next,
          (willing.facilities {}).run (testTask "e2e-aws") { cluster := {} } =
            (.ok (), between)
            ∧ (willing.facilities {}).run (testTask "e2e.aws") between = (.ok (), next)
            ∧ ¬ (testTask "e2e.aws").IsServed willing.onSite willing.patience
                (fun site => site.cluster.find?) next := by
  refine ⟨rfl, graph_ofTests rfl rfl (by rw [StepGraph.cycle?_of_sorted (by decide)]; rfl),
    by decide, _, _, rfl, rfl, ?_⟩
  rintro (⟨pod, start, last, done, asks, _, _, _, _, there⟩ | ⟨name, _⟩)
  · cases asks with
    | test environment =>
        let plan : TestPlan := { name := "e2e-aws", commands := "make e2e-aws" }
        have first : some (Work.testPod testJob plan []).document = _ := there
        simp [plan, Work.testPod, Pod.ofJob, Pod.document, Pod.container,
          Value.object, Value.texts, Pod.fieldUnless] at first
  · exact absurd name (by decide)

end Plan

end BuildPipeline
