import BuildPipeline.Proofs.Answer
import BuildPipeline.Proofs.Document.Written
import BuildPipeline.Task.Plan
import Mathlib.Data.List.Nodup

namespace BuildPipeline

open Document

theorem ImageBuild.target_ne_empty {value : Value} {build : ImageBuild}
    (accepted : ImageBuild.ofDocument value = .ok build) : build.target ≠ "" := by
  unfold ImageBuild.ofDocument at accepted
  obtain ⟨target, _, accepted⟩ := Answer.bind_eq_ok.mp accepted
  split at accepted
  · cases accepted
  · rename_i named
    obtain ⟨base, _, accepted⟩ := Answer.bind_eq_ok.mp accepted
    obtain ⟨contextDir, _, accepted⟩ := Answer.bind_eq_ok.mp accepted
    obtain ⟨dockerfile, _, accepted⟩ := Answer.bind_eq_ok.mp accepted
    obtain ⟨optional, _, accepted⟩ := Answer.bind_eq_ok.mp accepted
    obtain ⟨targetText, written, accepted⟩ := Answer.bind_eq_ok.mp accepted
    obtain ⟨baseText, _, accepted⟩ := Answer.bind_eq_ok.mp accepted
    obtain ⟨contextText, _, accepted⟩ := Answer.bind_eq_ok.mp accepted
    obtain ⟨dockerfileText, _, accepted⟩ := Answer.bind_eq_ok.mp accepted
    cases accepted
    exact Value.written_ne_empty (by simpa using named) written

namespace Configuration

variable {configuration : Configuration}

theorem ofDocument_eq_ok {value : Value} (accepted : ofDocument value = .ok configuration) :
    ∃ fields, ofFields fields = .ok configuration := by
  unfold ofDocument at accepted
  split at accepted
  · exact ⟨_, accepted⟩
  · exact ⟨_, accepted⟩
  · cases accepted

theorem target_ne_empty {value : Value} (accepted : ofDocument value = .ok configuration) :
    ∀ image ∈ configuration.images, image.target ≠ "" := by
  obtain ⟨fields, accepted⟩ := ofDocument_eq_ok accepted
  unfold ofFields at accepted
  obtain ⟨promotion, _, accepted⟩ := Answer.bind_eq_ok.mp accepted
  obtain ⟨metadata, _, accepted⟩ := Answer.bind_eq_ok.mp accepted
  obtain ⟨metadata, _, accepted⟩ := Answer.bind_eq_ok.mp accepted
  obtain ⟨listed, _, accepted⟩ := Answer.bind_eq_ok.mp accepted
  obtain ⟨items, _, accepted⟩ := Answer.bind_eq_ok.mp accepted
  obtain ⟨images, read, accepted⟩ := Answer.bind_eq_ok.mp accepted
  obtain ⟨tests, _, accepted⟩ := Answer.bind_eq_ok.mp accepted
  obtain ⟨tests, _, accepted⟩ := Answer.bind_eq_ok.mp accepted
  obtain ⟨tests, _, accepted⟩ := Answer.bind_eq_ok.mp accepted
  obtain ⟨commands, _, accepted⟩ := Answer.bind_eq_ok.mp accepted
  obtain ⟨commands, _, accepted⟩ := Answer.bind_eq_ok.mp accepted
  obtain ⟨promotion, _, accepted⟩ := Answer.bind_eq_ok.mp accepted
  cases accepted
  intro image member
  obtain ⟨item, _, accepted⟩ := Answer.mapM_eq_ok read member
  exact ImageBuild.target_ne_empty accepted

theorem validateImages_eq_ok {seen : List String} {images : List ImageBuild}
    (validated : validateImages seen images = .ok ()) :
    ∀ image ∈ images, image.target ≠ Names.sourceTag
      ∧ image.target ≠ Names.binariesTag := by
  induction images generalizing seen with
  | nil => simp
  | cons image rest ih =>
      rw [validateImages] at validated
      split at validated
      · cases validated
      · split at validated
        · cases validated
        · rename_i free
          exact List.forall_mem_cons.mpr ⟨not_or.mp free, ih validated⟩

/-- The tags that are built are neither empty nor that of the source. -/
theorem buildTags_sound (named : ∀ image ∈ configuration.images, image.target ≠ "")
    (validated : configuration.validate = .ok ()) :
    ∀ tag ∈ configuration.buildTags, tag ≠ "" ∧ tag ≠ Names.sourceTag := by
  obtain ⟨_, images, _⟩ := Answer.bind_eq_ok.mp validated
  intro tag member
  rcases List.mem_append.mp member with binaries | built
  · split at binaries
    · cases binaries
    · rw [List.mem_singleton.mp binaries]
      decide
  · obtain ⟨image, listed, rfl⟩ := List.mem_map.mp built
    exact ⟨named image listed, (validateImages_eq_ok images image listed).1⟩

end Configuration

end BuildPipeline
