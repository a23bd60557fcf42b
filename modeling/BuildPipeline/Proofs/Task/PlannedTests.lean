import BuildPipeline.Proofs.Release.Images
import BuildPipeline.Proofs.Table
import BuildPipeline.Proofs.Task.PlanGraph

namespace BuildPipeline

open Document

theorem TestPlan.checkProvided_eq_ok {test : TestPlan} {provided : List String}
    (checked : test.checkProvided provided = .ok ()) :
    ∀ parameter ∈ test.parameters, ∃ name ∈ provided, parameter = .string name := by
  obtain ⟨_, _, checked⟩ := Answer.bind_eq_ok.mp checked
  dsimp only at checked
  split at checked
  · rename_i known
    rw [List.isEmpty_iff, List.filter_eq_nil_iff] at known
    intro parameter member
    have found : isProvided provided parameter = true := by
      simpa using known parameter member
    unfold isProvided at found
    split at found
    · rename_i name
      exact ⟨name, by simpa using found, rfl⟩
    · cases found
  · split at checked <;> cases checked

namespace Work

def sourceOf? (sources : List (String × String)) (parameter : Value) : Option String :=
  parameter.string?.bind (Table.get? sources)

theorem mem_addTag {sources : List (String × String)} {tags : List String}
    {parameter : Value} {tag : String} :
    tag ∈ addTag sources tags parameter
      ↔ tag ∈ tags ∨ tag ≠ "" ∧ sourceOf? sources parameter = some tag := by
  unfold addTag sourceOf?
  cases parameter.string?.bind (Table.get? sources) with
  | none => simp
  | some found =>
      dsimp only
      split
      · rename_i known
        constructor
        · exact .inl
        · rintro (listed | ⟨named, same⟩)
          · exact listed
          · cases same
            exact known.resolve_left named
      · rename_i fresh
        rw [not_or] at fresh
        rw [List.mem_append, List.mem_singleton, Option.some_inj, eq_comm]
        refine or_congr_right ⟨?_, And.right⟩
        rintro rfl
        exact ⟨fresh.1, rfl⟩

theorem mem_testTags {test : TestPlan} {sources : List (String × String)} {tag : String} :
    tag ∈ testTags test sources
      ↔ tag = test.base
        ∨ tag ≠ "" ∧ ∃ parameter ∈ test.parameters,
            sourceOf? sources parameter = some tag := by
  have folded : ∀ (parameters : List Value) (tags : List String),
      tag ∈ parameters.foldl (addTag sources) tags
        ↔ tag ∈ tags
          ∨ tag ≠ "" ∧ ∃ parameter ∈ parameters,
            sourceOf? sources parameter = some tag := by
    intro parameters
    induction parameters with
    | nil => simp
    | cons parameter rest ih =>
        intro tags
        rw [List.foldl_cons, ih, mem_addTag, or_assoc, ← and_or_left]
        simp only [List.mem_cons, exists_eq_or_imp]
  rw [testTags, folded, List.mem_singleton]

end Work

namespace Configuration

variable {configuration : Configuration}

def sources (configuration : Configuration) : List (String × String) :=
  Table.ofPairs (configuration.buildTags.map fun tag => (Naming.imageParameter tag, tag))

theorem mem_works_test {test : TestPlan} {sources : List (String × String)}
    (listed : Work.test test sources ∈ configuration.works) :
    test ∈ configuration.tests ∧ sources = configuration.sources := by
  rcases List.mem_append.mp listed with other | tests
  · rcases List.mem_append.mp other with builds | ready
    · rcases List.mem_cons.mp builds with source | builds
      · cases source
      · rcases List.mem_append.mp builds with binaries | images
        · split at binaries
          · cases binaries
          · cases List.mem_singleton.mp binaries
        · obtain ⟨_, _, same⟩ := List.mem_map.mp images
          cases same
    · unfold readyWorks at ready
      split at ready
      · cases ready
      · cases List.mem_singleton.mp ready
  · obtain ⟨plan, member, same⟩ := List.mem_map.mp tests
    cases same
    exact ⟨member, rfl⟩

theorem sourceOf?_of_checkTests (checked : configuration.checkTests = .ok ())
    {test : TestPlan} (member : test ∈ configuration.tests) {parameter : Value}
    (asked : parameter ∈ test.parameters) :
    ∃ tag ∈ configuration.buildTags, parameter = .string (Naming.imageParameter tag)
      ∧ Work.sourceOf? configuration.sources parameter = some tag := by
  have provided := Answer.forM_eq_ok checked test member
  obtain ⟨name, built, rfl⟩ := TestPlan.checkProvided_eq_ok provided parameter asked
  have listed : name ∈ (configuration.buildTags.map
      fun tag => (Naming.imageParameter tag, tag)).map (·.1) := by simpa using built
  obtain ⟨tag, found, paired⟩ := Table.get?_ofPairs listed
  obtain ⟨_, member, same⟩ := List.mem_map.mp paired
  cases same
  exact ⟨tag, member, rfl, found⟩

end Configuration

namespace Plan

theorem mem_of_ofTargets {targets : List String} {tasks : List Task} {plan : Plan}
    (taken : ofTargets targets tasks = .ok plan) {task : Task}
    (listed : task ∈ plan.requested ∨ task ∈ plan.implicit) : task ∈ tasks := by
  unfold ofTargets at taken
  split at taken
  · cases taken
    exact listed.resolve_right List.not_mem_nil
  · dsimp only at taken
    split at taken
    · cases taken
      exact listed.elim (fun asked => (List.mem_filter.mp asked).1)
        fun extra => (List.mem_filter.mp extra).1
    · cases taken

variable {configuration : Configuration} {job : Job} {targets : List String}
  {promote : Bool} {plan : Plan}

theorem ofConfiguration_eq_ok
    (planned : ofConfiguration configuration job targets promote = .ok plan) :
    configuration.validate = .ok () ∧ configuration.checkTests = .ok ()
      ∧ ∀ task, task ∈ plan.requested ∨ task ∈ plan.implicit →
          task.work ∈ configuration.works
            ∨ ∃ required, task.work = .promotion configuration required := by
  obtain ⟨_, validated, planned⟩ := Answer.bind_eq_ok.mp planned
  obtain ⟨_, checked, planned⟩ := Answer.bind_eq_ok.mp planned
  obtain ⟨chosen, taken, planned⟩ := Answer.bind_eq_ok.mp planned
  have ordinary : ∀ task, task ∈ chosen.requested ∨ task ∈ chosen.implicit →
      task.work ∈ configuration.works := by
    intro task listed
    obtain ⟨work, member, rfl⟩ := List.mem_map.mp (mem_of_ofTargets taken listed)
    exact member
  refine ⟨validated, checked, fun task listed => ?_⟩
  split at planned <;> cases planned
  · rcases listed with asked | extra
    · rcases List.mem_append.mp asked with asked | last
      · exact .inl (ordinary task (.inl asked))
      · rw [List.mem_singleton.mp last]
        exact .inr ⟨_, rfl⟩
    · exact .inl (ordinary task (.inr extra))
  · exact .inl (ordinary task listed)

end Plan

namespace StepGraph

variable {document : Value} {configuration : Configuration} {job : Job}
  {targets : List String} {promote : Bool} {plan : Plan} {graph : StepGraph Task PullSpec}

/-- A parameter of a test is that of an image which a step of the graph builds before the
test. -/
theorem producer_of_parameter
    (accepted : Configuration.ofDocument document = .ok configuration)
    (planned : Plan.ofConfiguration configuration job targets promote = .ok plan)
    (built : plan.graph = .ok graph) {step : Step Task PullSpec}
    (member : step ∈ graph.steps) {test : TestPlan} {sources : List (String × String)}
    (runs : step.work.work = .test test sources) {parameter : Value}
    (asked : parameter ∈ test.parameters) :
    ∃ name, parameter = .string name ∧ ∃ producer ∈ graph.steps,
      (∃ build commands, producer.work.work = .image build commands)
        ∧ name ∈ producer.provides.map (·.1) ∧ graph.Precedes producer.name step.name := by
  obtain ⟨validated, checked, works⟩ := Plan.ofConfiguration_eq_ok planned
  obtain ⟨task, listed, rfl⟩ := task_of_mem built member
  change task.work = _ at runs
  rcases works task listed with work | ⟨_, promotion⟩
  · obtain ⟨configured, rfl⟩ := Configuration.mem_works_test (runs ▸ work)
    obtain ⟨tag, tagged, rfl, source⟩ :=
      Configuration.sourceOf?_of_checkTests checked configured asked
    obtain ⟨named, foreign⟩ := Configuration.buildTags_sound
      (Configuration.target_ne_empty accepted) validated tag tagged
    have requires : Link.internalImage tag ∈ task.step.requires := by
      rw [Task.requires_step, runs]
      exact List.mem_map_of_mem (Work.mem_testTags.mpr (.inr ⟨named, _, asked, source⟩))
    obtain ⟨producer, present, created, edge⟩ := producer_before built member requires rfl
    obtain ⟨maker, _, rfl⟩ := task_of_mem built present
    rcases Work.internalImage_mem_creates.mp created
      with ⟨_, same⟩ | ⟨build, commands, image, rfl⟩
    · exact absurd same foreign
    · refine ⟨_, rfl, maker.step, present, ⟨build, commands, image⟩, ?_, edge⟩
      simp [Task.step, Task.provides, image]
  · cases runs.symm.trans promotion

end StepGraph

end BuildPipeline
