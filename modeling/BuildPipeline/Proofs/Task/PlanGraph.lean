import BuildPipeline.Proofs.Graph.Waiting
import BuildPipeline.Task.Site

namespace BuildPipeline

namespace Work

theorem internalImage_of_requires {work : Work} {link : Link}
    (requires : link ∈ work.requires) (ordinary : link.isWildcard = false) :
    ∃ tag, link = .internalImage tag := by
  cases work with
  | source => cases requires
  | image build _ => exact ⟨build.base, List.mem_singleton.mp requires⟩
  | imagesReady tags =>
      obtain ⟨tag, _, rfl⟩ := List.mem_map.mp requires
      exact ⟨tag, rfl⟩
  | test plan sources =>
      obtain ⟨tag, _, rfl⟩ := List.mem_map.mp requires
      exact ⟨tag, rfl⟩
  | promotion =>
      rw [List.mem_singleton.mp requires, Link.isWildcard_allSteps] at ordinary
      cases ordinary

theorem internalImage_mem_creates {work : Work} {tag : String} :
    Link.internalImage tag ∈ work.creates
      ↔ work = .source ∧ tag = Names.sourceTag
        ∨ ∃ build commands, work = .image build commands ∧ build.target = tag := by
  cases work with
  | source => simp [creates, Link.internalImage]
  | image build commands =>
      simp [creates, Link.internalImage, eq_comm]
  | imagesReady => simp [creates, Link.internalImage, Link.imagesReady]
  | test | promotion => simp [creates]

end Work

namespace StepGraph

variable {plan : Plan} {graph : StepGraph Task PullSpec}

theorem task_of_mem (built : plan.graph = .ok graph) {step : Step Task PullSpec}
    (member : step ∈ graph.steps) :
    ∃ task : Task, (task ∈ plan.requested ∨ task ∈ plan.implicit) ∧ step = task.step := by
  obtain ⟨added, split, _, due⟩ := (closed_of_build built).added
  rw [split] at member
  rcases List.mem_append.mp member with asked | extra
  · obtain ⟨task, listed, rfl⟩ := List.mem_map.mp asked
    exact ⟨task, .inl listed, rfl⟩
  · obtain ⟨earlier, later, cut⟩ := List.append_of_mem extra
    obtain ⟨task, listed, rfl⟩ := List.mem_map.mp (due earlier step later cut).implicit
    exact ⟨task, .inr listed, rfl⟩

/-- Every image of the graph comes after the source: it is built from that or from another
image, and there is no end of images otherwise. -/
theorem source_precedes_image (built : plan.graph = .ok graph) {task : Task}
    (member : task.step ∈ graph.steps) {build : ImageBuild} {commands : String}
    (image : task.work = .image build commands) :
    Relation.TransGen graph.Precedes Work.sourceName task.work.name := by
  induction named : task.work.name using (acyclic_of_build built).wellFounded.induction
    generalizing task build commands with
  | _ name ih =>
      subst named
      have requires : Link.internalImage build.base ∈ task.step.requires := by
        simp [image, Work.requires]
      obtain ⟨producer, listed, created, edge⟩ := producer_before built member requires rfl
      obtain ⟨before, _, rfl⟩ := task_of_mem built listed
      rcases Work.internalImage_mem_creates.mp created with ⟨source, _⟩ | ⟨_, _, other, _⟩
      · exact .single (by simpa [source, Work.name] using edge)
      · exact (ih _ edge listed other rfl).tail edge

theorem eq_of_name_of_creates (built : plan.graph = .ok graph) {one other : Task}
    (first : one.step ∈ graph.steps) (second : other.step ∈ graph.steps) {tag tag' : String}
    (created : Link.internalImage tag ∈ one.work.creates)
    (created' : Link.internalImage tag' ∈ other.work.creates)
    (same : one.work.name = other.work.name) : one.step = other.step := by
  have apart := (undisputed_of_build built).2
  have unlike : ∀ {task : Task} {build : ImageBuild} {commands : String},
      task.step ∈ graph.steps → task.work = .image build commands →
        task.work.name ≠ Work.sourceName := by
    intro task build commands member image named
    have before := source_precedes_image built member image
    rw [named] at before
    exact acyclic_of_build built _ before
  rcases Work.internalImage_mem_creates.mp created
    with ⟨source, rfl⟩ | ⟨build, _, image, rfl⟩
  · rcases Work.internalImage_mem_creates.mp created' with ⟨_, rfl⟩ | ⟨_, _, image', _⟩
    · exact Step.eq_of_creates apart first second created created'
    · exact absurd (by rw [← same, source]; rfl) (unlike second image')
  · rcases Work.internalImage_mem_creates.mp created'
      with ⟨source', _⟩ | ⟨build', _, image', rfl⟩
    · exact absurd (by rw [same, source']; rfl) (unlike first image)
    · have target : build.target = build'.target := by
        simpa [image, image', Work.name] using same
      exact Step.eq_of_creates apart first second created (target ▸ created')

/-- The steps of a plan's graph have distinct names: those asked for because this is
checked, and those added because each makes an image. -/
theorem names_nodup (built : plan.graph = .ok graph) : graph.names.Nodup := by
  obtain ⟨added, split, nodup, due⟩ := (closed_of_build built).added
  have each : ∀ step ∈ added, step ∈ graph.steps
      ∧ step.name ∉ (plan.requested.map Task.step).map (·.name)
      ∧ ∃ tag, Link.internalImage tag ∈ step.creates := by
    intro step member
    obtain ⟨earlier, later, cut⟩ := List.append_of_mem member
    have due := due earlier step later cut
    obtain ⟨link, created, ordinary, ⟨asker, asks, requires⟩, _⟩ := due.wanted
    have listed : asker ∈ graph.steps := by
      rw [split, cut, ← List.append_assoc]
      exact List.mem_append_left _ asks
    obtain ⟨task, _, rfl⟩ := task_of_mem built listed
    obtain ⟨tag, rfl⟩ := Work.internalImage_of_requires requires ordinary
    exact ⟨split ▸ List.mem_append_right _ member, due.unnamed, tag, created⟩
  rw [names, split, List.map_append]
  refine List.nodup_append.mpr ⟨(undisputed_of_build built).1, ?_, ?_⟩
  · refine nodup.map_on fun one first other second same => ?_
    obtain ⟨listed, _, _, created⟩ := each one first
    obtain ⟨listed', _, _, created'⟩ := each other second
    obtain ⟨task, _, rfl⟩ := task_of_mem built listed
    obtain ⟨task', _, rfl⟩ := task_of_mem built listed'
    exact eq_of_name_of_creates built listed listed' created created' same
  · rintro name asked _ extra rfl
    obtain ⟨step, member, rfl⟩ := List.mem_map.mp extra
    exact (each step member).2.1 asked

end StepGraph

end BuildPipeline
