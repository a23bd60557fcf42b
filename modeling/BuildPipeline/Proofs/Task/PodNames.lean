import BuildPipeline.Proofs.Task.PlanGraph
import BuildPipeline.Task.Run
import Mathlib.Data.List.Pairwise

namespace BuildPipeline

namespace Work

def podName? : Work → Option String
  | .source => some "src-build"
  | .image build _ => some (build.target ++ "-build")
  | .imagesReady _ => none
  | .test plan _ => some (Naming.podName plan.name)
  | .promotion _ _ => some Mirror.podName

def testName? : Work → Option String
  | .test plan _ => some plan.name
  | _ => none

theorem podName?_of_testName? {work : Work} {name : String}
    (test : work.testName? = some name) :
    work.podName? = some (Naming.podName name) := by
  cases work with
  | test plan _ =>
      cases test
      rfl
  | source | image | imagesReady | promotion => cases test

theorem build_ne_promotion (tag : String) : tag ++ "-build" ≠ Mirror.podName := by
  intro same
  have last := congrArg (fun text => text.toList.getLast?) same
  simp [Mirror.podName] at last

theorem podName?_of_not_test {work : Work} {pod : String} (other : work.testName? = none)
    (runs : work.podName? = some pod) :
    (∃ tag, Link.internalImage tag ∈ work.creates ∧ pod = tag ++ "-build")
      ∨ work.name = promotionName ∧ pod = Mirror.podName := by
  cases work with
  | source =>
      cases runs
      exact Or.inl ⟨Names.sourceTag, by simp [creates], rfl⟩
  | image build =>
      cases runs
      exact Or.inl ⟨build.target, by simp [creates], rfl⟩
  | promotion =>
      cases runs
      exact Or.inr ⟨rfl, rfl⟩
  | imagesReady => cases runs
  | test => cases other

def PodsApart (one other : Work) : Prop :=
  ∀ pod ∈ one.podName?, ∀ pod' ∈ other.podName?, pod ≠ pod'

instance : Std.Symm PodsApart where
  symm _ _ apart pod own pod' own' same := apart pod' own' pod own same.symm

theorem podsApart_of_not_test {one other : Work} (not_test : one.testName? = none)
    (not_test' : other.testName? = none)
    (apart : ∀ link ∈ one.creates, link ∉ other.creates) (named : one.name ≠ other.name) :
    one.PodsApart other := by
  rintro pod own _ own' rfl
  rcases podName?_of_not_test not_test own with ⟨tag, creates, rfl⟩ | ⟨name, rfl⟩
  · rcases podName?_of_not_test not_test' own' with ⟨tag', creates', same⟩ | ⟨_, same⟩
    · have same : tag = tag' := (String.append_left_inj _).mp same
      exact apart _ creates (same ▸ creates')
    · exact build_ne_promotion tag same
  · rcases podName?_of_not_test not_test' own' with ⟨tag', _, same⟩ | ⟨name', _⟩
    · exact build_ne_promotion tag' same.symm
    · exact named (name.trans name'.symm)

end Work

namespace StepGraph

variable {graph : StepGraph Task PullSpec}

def works (graph : StepGraph Task PullSpec) : List Work :=
  graph.steps.map (·.work.work)

def pods (graph : StepGraph Task PullSpec) : List String :=
  graph.works.filterMap Work.podName?

def testPods (graph : StepGraph Task PullSpec) : List String :=
  (graph.works.filterMap Work.testName?).map Naming.podName

theorem pods_nodup_iff : graph.pods.Nodup ↔ graph.works.Pairwise Work.PodsApart :=
  List.pairwise_filterMap

/-- The pods of the tests are distinct, and none is that of a build or of a promotion. -/
structure TestsApart (graph : StepGraph Task PullSpec) : Prop where
  among : graph.testPods.Nodup
  source : Work.source ∈ graph.works → "src-build" ∉ graph.testPods
  image : ∀ {build commands}, Work.image build commands ∈ graph.works →
    build.target ++ "-build" ∉ graph.testPods
  promotion :
    ∀ {configuration required}, Work.promotion configuration required ∈ graph.works →
    "promotion" ∉ graph.testPods

theorem mem_testPods {pod : String} :
    pod ∈ graph.testPods
      ↔ ∃ work ∈ graph.works, ∃ name, work.testName? = some name
          ∧ pod = Naming.podName name := by
  simp only [testPods, List.mem_map, List.mem_filterMap]
  constructor
  · rintro ⟨name, ⟨work, member, test⟩, rfl⟩
    exact ⟨work, member, name, test, rfl⟩
  · rintro ⟨work, member, name, test, rfl⟩
    exact ⟨name, ⟨work, member, test⟩, rfl⟩

theorem testPods_nodup_iff :
    graph.testPods.Nodup ↔ graph.works.Pairwise fun one other =>
      ∀ name ∈ one.testName?, ∀ name' ∈ other.testName?,
        Naming.podName name ≠ Naming.podName name' := by
  rw [testPods, List.Nodup, List.pairwise_map, List.pairwise_filterMap]
  rfl

theorem TestsApart.not_mem (apart : graph.TestsApart) {work : Work}
    (member : work ∈ graph.works) (not_test : work.testName? = none) {pod : String}
    (runs : work.podName? = some pod) :
    pod ∉ graph.testPods := by
  cases work with
  | source =>
      cases runs
      exact apart.source member
  | image =>
      cases runs
      exact apart.image member
  | promotion =>
      cases runs
      exact apart.promotion member
  | imagesReady => cases runs
  | test => cases not_test

theorem not_mem_testPods_of_nodup (nodup : graph.pods.Nodup) {work : Work}
    (member : work ∈ graph.works) (not_test : work.testName? = none) {pod : String}
    (runs : work.podName? = some pod) : pod ∉ graph.testPods := by
  intro listed
  obtain ⟨test, htest, name, named, rfl⟩ := mem_testPods.mp listed
  have ne : work ≠ test := by
    rintro rfl
    rw [not_test] at named
    cases named
  exact (pods_nodup_iff.mp nodup).forall member htest ne
    _ runs _ (Work.podName?_of_testName? named) rfl

theorem works_apart_of_not_test {plan : Plan} (built : plan.graph = .ok graph) :
    graph.works.Pairwise fun one other =>
      one.testName? = none → other.testName? = none → one.PodsApart other := by
  have named : graph.steps.Pairwise fun one other => one.name ≠ other.name :=
    List.pairwise_map.mp (names_nodup built)
  rw [works, List.pairwise_map]
  refine ((undisputed_of_build built).2.and named).imp_of_mem
    fun {one other} hone hother both not_test not_test' => ?_
  obtain ⟨task, _, rfl⟩ := task_of_mem built hone
  obtain ⟨task', _, rfl⟩ := task_of_mem built hother
  exact Work.podsApart_of_not_test not_test not_test' both.1 both.2

/-- The pods of a graph have distinct names exactly if its tests do not come to each
other's or to another step's. -/
theorem pods_nodup_iff_testsApart {plan : Plan} (built : plan.graph = .ok graph) :
    graph.pods.Nodup ↔ graph.TestsApart := by
  constructor
  · intro nodup
    refine ⟨?_, fun member => ?_, fun member => ?_, fun member => ?_⟩
    · rw [testPods_nodup_iff]
      refine (pods_nodup_iff.mp nodup).imp fun apart name test name' test' => ?_
      exact apart _ (Work.podName?_of_testName? test) _ (Work.podName?_of_testName? test')
    all_goals exact not_mem_testPods_of_nodup nodup member rfl rfl
  · intro apart
    rw [pods_nodup_iff]
    have tests := testPods_nodup_iff.mp apart.among
    refine ((works_apart_of_not_test built).and tests).imp_of_mem
      fun {one other} hone hother both pod own pod' own' => ?_
    cases test : one.testName? with
    | none =>
        cases test' : other.testName? with
        | none => exact both.1 test test' pod own pod' own'
        | some name' =>
            rw [Work.podName?_of_testName? test'] at own'
            rintro rfl
            refine apart.not_mem hone test own
              (mem_testPods.mpr ⟨other, hother, name', test', ?_⟩)
            exact (Option.some.inj own').symm
    | some name =>
        have own_test := Work.podName?_of_testName? test
        cases test' : other.testName? with
        | none =>
            rintro rfl
            refine apart.not_mem hother test' own'
              (mem_testPods.mpr ⟨one, hone, name, test, ?_⟩)
            exact Option.some.inj (own.symm.trans own_test)
        | some name' =>
            have own_test' := Work.podName?_of_testName? test'
            rw [Option.some.inj (own.symm.trans own_test),
              Option.some.inj (own'.symm.trans own_test')]
            exact both.2 name test name' test'

end StepGraph

end BuildPipeline
