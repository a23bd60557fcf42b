import BuildPipeline.Proofs.Cluster.OwnPod
import BuildPipeline.Proofs.Task.PodNames

namespace BuildPipeline

open Document

variable {σ : Type}

namespace Task

/-- The pods that a step may ask for; which one may depend on what it reads first. -/
inductive Asks : Task → Pod → Prop
  | source {job refs} (cloned : job.refs = some refs) :
      Asks ⟨job, .source⟩ (Work.sourcePod job refs)
  | image {job build commands} :
      Asks ⟨job, .image build commands⟩ (Work.imagePod job build commands)
  | test {job plan sources} (environment : List (String × Value)) :
      Asks ⟨job, .test plan sources⟩ (Work.testPod job plan environment)
  | promotion {job configuration required} (targets : List (String × String)) :
      Asks ⟨job, .promotion configuration required⟩ (Mirror.pod targets job.project)

def object? (task : Task) : Option ObjectName :=
  task.work.podName?.map fun name => ⟨"Pod", task.job.project, name⟩

theorem Asks.object {task : Task} {pod : Pod} (asks : task.Asks pod) :
    task.object? = some pod.object := by
  cases asks <;> rfl

/-- A step had a pod to itself if there was none of that name when it asked for it, and
the one it asked for was created, waited for and seen to succeed, and is still there. -/
def HadOwnPod (task : Task) (client : ClusterClient σ) (patience : Nat)
    (held : σ → ObjectName → Option Value) (world : σ) : Prop :=
  ∃ pod start last done, task.Asks pod
    ∧ held start pod.object = none
    ∧ client.runPod patience pod.document start = (.ok last, done)
    ∧ PodPhase.ofPod last = .ok .succeeded
    ∧ held done pod.object = some pod.document
    ∧ held world pod.object = some pod.document

/-- Only a promotion may be content without a pod, when it finds nothing to copy. -/
def IsServed (task : Task) (client : ClusterClient σ) (patience : Nat)
    (held : σ → ObjectName → Option Value) (world : σ) : Prop :=
  task.HadOwnPod client patience held world
    ∨ task.work.name = Work.promotionName
      ∧ ∀ object, task.object? = some object → held world object = none

theorem IsServed.of_held_eq {task : Task} {client : ClusterClient σ} {patience : Nat}
    {held : σ → ObjectName → Option Value} {world next : σ}
    (served : task.IsServed client patience held world)
    (same : ∀ object, task.object? = some object → held next object = held world object) :
    task.IsServed client patience held next := by
  rcases served with ⟨pod, start, last, done, asks, absent, ran, succeeded, made,
    there⟩ | ⟨name, idle⟩
  · exact Or.inl ⟨pod, start, last, done, asks, absent, ran, succeeded, made,
      (same _ asks.object).trans there⟩
  · exact Or.inr ⟨name, fun object runs => (same _ runs).trans (idle _ runs)⟩

end Task

/-- From where a step stands, the pods of all other steps of its graph are those of
others. -/
def StepGraph.IsOthers (graph : StepGraph Task PullSpec) (step : Step Task PullSpec)
    (name : ObjectName) : Prop :=
  ∃ other ∈ graph.steps, other ≠ step ∧ other.work.object? = some name

theorem StepGraph.eq_of_object {graph : StepGraph Task PullSpec} (nodup : graph.pods.Nodup)
    {one other : Step Task PullSpec} (hone : one ∈ graph.steps)
    (hother : other ∈ graph.steps) {object : ObjectName}
    (runs : one.work.object? = some object) (runs' : other.work.object? = some object) :
    one = other := by
  by_contra ne
  have apart := pods_nodup_iff.mp nodup
  rw [works, List.pairwise_map] at apart
  have symmetric : Std.Symm fun one other : Step Task PullSpec =>
      one.work.work.PodsApart other.work.work := ⟨fun _ _ both => Std.Symm.symm _ _ both⟩
  obtain ⟨pod, own, rfl⟩ := Option.map_eq_some_iff.mp runs
  obtain ⟨pod', own', same⟩ := Option.map_eq_some_iff.mp runs'
  refine apart.forall hone hother ne pod own pod' own' ?_
  exact (congrArg ObjectName.name same).symm

namespace Facilities

variable {facilities : Facilities σ} {held : σ → ObjectName → Option Value}
  {foreign : ObjectName → Prop}

structure Respects (facilities : Facilities σ) (related : σ → σ → Prop) : Prop where
  client : facilities.client.Respects related
  parameters : ∀ names world, related world (facilities.parameters names world).2

namespace Respects

variable {related : σ → σ → Prop}

theorem runPod (respects : facilities.Respects related) {pod : Pod}
    (create : ∀ world, related world (facilities.client.create pod.document world).2)
    (world : σ) :
    related world (facilities.runPod pod world).2 := by
  have ran := respects.client.runPod create facilities.patience world
  unfold Facilities.runPod
  split <;> rename_i eq <;> rwa [eq] at ran

theorem performPromotion (respects : facilities.Respects related) (job : Job)
    (configuration : Configuration) (required : List String)
    (create : ∀ pod, Task.Asks ⟨job, .promotion configuration required⟩ pod → ∀ world,
      related world (facilities.client.create pod.document world).2) (world : σ) :
    related world (facilities.performPromotion job configuration required world).2 := by
  unfold Facilities.performPromotion
  split
  · exact respects.client.refl world
  · dsimp only
    split
    · exact respects.client.refl world
    · have looked := respects.client.get true (pipelineStream job.project) world
      unfold promote
      split <;> rename_i eq <;> rw [eq] at looked
      · exact looked
      · split
        · exact looked
        · unfold copyTargets
          split
          · exact looked
          · exact respects.client.trans looked
              (respects.runPod (fun world => create _ (.promotion _) world) _)

theorem run (respects : facilities.Respects related) (task : Task)
    (create : ∀ pod, task.Asks pod → ∀ world,
      related world (facilities.client.create pod.document world).2) (world : σ) :
    related world (facilities.run task world).2 := by
  obtain ⟨job, work⟩ := task
  cases work with
  | source =>
      unfold Facilities.run runSource
      dsimp only
      split
      · exact respects.client.refl world
      · rename_i cloned
        exact respects.runPod (create _ (.source cloned)) world
  | image build commands => exact respects.runPod (create _ .image) world
  | imagesReady => exact respects.client.refl world
  | test plan sources =>
      have read := respects.parameters plan.parameters world
      unfold Facilities.run runTest tagging performTest
      dsimp only
      split <;> rename_i eq <;> rw [eq] at read
      · exact read
      · exact respects.client.trans read (respects.runPod (create _ (.test _)) _)
  | promotion configuration required =>
      exact respects.performPromotion job configuration required create world

end Respects

/-- Reading parameters creates nothing. -/
structure Honest (facilities : Facilities σ) (held : σ → ObjectName → Option Value)
    (foreign : ObjectName → Prop) : Prop where
  client : facilities.client.Honest held foreign
  parameters : ∀ names world {name}, ¬ foreign name →
    held (facilities.parameters names world).2 name = held world name

/-- A step creates no pod but one that it asks for, and that only where there was none. -/
theorem run_adds (honest : facilities.Honest held foreign) {name : ObjectName}
    (own : ¬ foreign name) (task : Task) (world : σ) :
    Adds held task.Asks name world (facilities.run task world).2 := by
  have respects : facilities.Respects (Adds held task.Asks name) :=
    ⟨honest.client.respects_adds own _, fun names world =>
      Or.inl (honest.parameters names world own)⟩
  refine respects.run task (fun pod asks world => ?_) world
  exact (honest.client.create pod world own).weaken fun _ same => same ▸ asks

theorem tagging_eq_ok {reason : String} {answer : Except Error Unit × σ} {next : σ}
    (tagged : tagging reason answer = (.ok (), next)) : answer = (.ok (), next) := by
  obtain ⟨_ | _, world⟩ := answer
  · cases tagged
  · cases tagged
    rfl

theorem runPod_own (honest : facilities.Honest held foreign) {task : Task} {pod : Pod}
    (asks : task.Asks pod) (own : ¬ foreign pod.object) {world next : σ}
    (absent : held world pod.object = none)
    (ran : facilities.runPod pod world = (.ok (), next)) :
    task.HadOwnPod facilities.client facilities.patience held next := by
  unfold runPod at ran
  split at ran
  · rename_i last later eq
    cases ran
    obtain ⟨there, succeeded⟩ := honest.client.runPod_own own absent eq
    exact ⟨pod, world, last, _, asks, absent, eq, succeeded, there, there⟩
  · cases ran

theorem copyTargets_own (honest : facilities.Honest held foreign) {job : Job}
    {configuration : Configuration} {required : List String}
    {targets : List (String × String)}
    (own : ¬ foreign ⟨"Pod", job.project, Mirror.podName⟩) {world next : σ}
    (absent : held world ⟨"Pod", job.project, Mirror.podName⟩ = none)
    (ran : facilities.copyTargets job targets world = (.ok (), next)) :
    Task.HadOwnPod ⟨job, .promotion configuration required⟩ facilities.client
      facilities.patience held next
      ∨ held next ⟨"Pod", job.project, Mirror.podName⟩ = none := by
  unfold copyTargets at ran
  split at ran
  · cases ran
    exact Or.inr absent
  · rcases answer : facilities.runPod (Mirror.pod targets job.project) world
      with ⟨_ | _, later⟩
    · simp only [answer] at ran
      cases ran
    · simp only [answer] at ran
      cases ran
      exact Or.inl (runPod_own honest (.promotion targets) own absent answer)

theorem performPromotion_own (honest : facilities.Honest held foreign) {job : Job}
    {configuration : Configuration} {required : List String}
    (own : ¬ foreign ⟨"Pod", job.project, Mirror.podName⟩) {world next : σ}
    (absent : held world ⟨"Pod", job.project, Mirror.podName⟩ = none)
    (ran : facilities.performPromotion job configuration required world = (.ok (), next)) :
    Task.HadOwnPod ⟨job, .promotion configuration required⟩ facilities.client
      facilities.patience held next
      ∨ held next ⟨"Pod", job.project, Mirror.podName⟩ = none := by
  unfold performPromotion at ran
  split at ran
  · cases ran
    exact Or.inr absent
  · dsimp only at ran
    split at ran
    · cases ran
      exact Or.inr absent
    · have looked := honest.client.get true (pipelineStream job.project) world own
      unfold promote at ran
      rcases looking : facilities.client.get true (pipelineStream job.project) world with
        ⟨_ | stream, later⟩
      · simp only [looking] at ran
        cases ran
      · simp only [looking] at ran
        rw [looking] at looked
        split at ran
        · cases ran
        · exact copyTargets_own honest own (looked.trans absent) ran

/-- A step that runs a pod, that finds none of its name, and that succeeds, had that pod
to itself. -/
theorem run_own (honest : facilities.Honest held foreign) {task : Task}
    {object : ObjectName} (runs : task.object? = some object) (own : ¬ foreign object)
    {world next : σ} (absent : held world object = none)
    (ran : facilities.run task world = (.ok (), next)) :
    task.IsServed facilities.client facilities.patience held next := by
  obtain ⟨job, work⟩ := task
  cases work with
  | source =>
      cases runs
      unfold run runSource at ran
      dsimp only at ran
      split at ran
      · cases ran
      · rename_i cloned
        exact Or.inl (runPod_own honest (.source cloned) own absent (tagging_eq_ok ran))
  | image build commands =>
      cases runs
      exact Or.inl (runPod_own honest .image own absent (tagging_eq_ok ran))
  | imagesReady => cases runs
  | test plan sources =>
      cases runs
      have performed := tagging_eq_ok ran
      unfold performTest at performed
      have read := honest.parameters plan.parameters world own
      rcases reading : facilities.parameters plan.parameters world
        with ⟨_ | environment, world'⟩
      · simp [reading] at performed
      · simp only [reading] at performed
        rw [reading] at read
        exact Or.inl (runPod_own honest (.test environment) own
          (read.trans absent) performed)
  | promotion configuration required =>
      cases runs
      rcases performPromotion_own honest own absent (tagging_eq_ok ran) with had | idle
      · exact Or.inl had
      · refine Or.inr ⟨rfl, fun object runs => ?_⟩
        cases runs
        exact idle

end Facilities

end BuildPipeline
