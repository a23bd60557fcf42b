import BuildPipeline.Proofs.Text.Cutting
import BuildPipeline.Task.Run

namespace BuildPipeline

variable {job : Job} {build other : ImageBuild} {commands commands' : String}

theorem Naming.pullSpec_inj {project tag tag' : String} :
    pullSpec project tag = pullSpec project tag' ↔ tag = tag' := by
  rw [pullSpec, pullSpec, String.append_right_inj]

/-- A build whose parts can be told apart in its input. -/
structure ImageBuild.Legible (build : ImageBuild) : Prop where
  base : '>' ∉ build.base.toList
  target : ':' ∉ build.target.toList
  dockerfile : '/' ∉ build.dockerfile.toList

namespace Work

def recipe (build : ImageBuild) (commands : String) : String :=
  if commands = "" then build.contextDir ++ "/" ++ build.dockerfile else commands

/-- Builds of one image on one base that are both made by commands, or both by a file in
one directory. -/
structure MadeAlike (build : ImageBuild) (commands : String) (other : ImageBuild)
    (commands' : String) : Prop where
  base : build.base = other.base
  target : build.target = other.target
  mode : commands = "" ↔ commands' = ""
  directory : commands = "" → build.contextDir = other.contextDir

theorem toList_imageInput (build : ImageBuild) (commands : String) :
    (imageInput build commands).toList =
      (build.base ++ "-").toList
        ++ '>' :: (build.target ++ ":" ++ recipe build commands).toList := by
  simp [imageInput, recipe]

theorem imagePod_eq_iff :
    imagePod job build commands = imagePod job other commands' ↔
      build.base = other.base ∧ build.target = other.target ∧ commands = commands'
        ∧ (commands = "" → build.contextDir = other.contextDir
            ∧ build.dockerfile = other.dockerfile) := by
  constructor
  · intro same
    have env : imageEnvironment job build commands = imageEnvironment job other commands' :=
      congrArg Pod.env same
    by_cases file : commands = "" <;> by_cases file' : commands' = "" <;>
      simp_all [imageEnvironment, Naming.pullSpec_inj]
  · rintro ⟨base, target, rfl, files⟩
    by_cases file : commands = ""
    · obtain ⟨directory, dockerfile⟩ := files file
      simp only [imagePod, imageEnvironment, base, target, directory, dockerfile]
    · simp only [imagePod, imageEnvironment, base, target, if_neg file]

theorem recipe_eq_of_imageInput (base : build.base = other.base)
    (target : build.target = other.target)
    (same : imageInput build commands = imageInput other commands') :
    recipe build commands = recipe other commands' := by
  rw [imageInput, imageInput, base, target, String.append_right_inj] at same
  exact same

theorem imagePod_eq_iff_madeAlike :
    imagePod job build commands = imagePod job other commands' ↔
      imageInput build commands = imageInput other commands'
        ∧ MadeAlike build commands other commands' := by
  rw [imagePod_eq_iff]
  constructor
  · rintro ⟨base, target, rfl, files⟩
    refine ⟨?_, base, target, Iff.rfl, fun file => (files file).1⟩
    rw [imageInput, imageInput, base, target]
    split
    · rename_i file
      rw [(files file).1, (files file).2]
    · rfl
  · rintro ⟨same, base, target, mode, directory⟩
    have made := recipe_eq_of_imageInput base target same
    by_cases file : commands = ""
    · rw [recipe, recipe, if_pos file, if_pos (mode.mp file), directory file,
        String.append_right_inj] at made
      exact ⟨base, target, file.trans (mode.mp file).symm, fun file =>
        ⟨directory file, made⟩⟩
    · rw [recipe, recipe, if_neg file, if_neg (mt mode.mpr file)] at made
      exact ⟨base, target, made, fun absurd => (file absurd).elim⟩

theorem madeAlike_of_legible (legible : build.Legible) (distinct : other.Legible)
    (mode : commands = "" ↔ commands' = "")
    (same : imageInput build commands = imageInput other commands') :
    MadeAlike build commands other commands' := by
  -- The arrow ends at the first '>', and the image behind it at the first colon from
  -- there.
  have cuts : Text.Cuts '>' (imageInput build commands) (build.base ++ "-")
      (build.target ++ ":" ++ recipe build commands) :=
    ⟨toList_imageInput build commands, by simp [legible.base]⟩
  have cuts' : Text.Cuts '>' (imageInput build commands) (other.base ++ "-")
      (other.target ++ ":" ++ recipe other commands') :=
    ⟨same ▸ toList_imageInput other commands', by simp [distinct.base]⟩
  obtain ⟨bases, rests⟩ := cuts.unique cuts'
  have base : build.base = other.base := (String.append_left_inj "-").mp bases
  have ends : Text.Cuts ':' (build.target ++ ":" ++ recipe build commands) build.target
      (recipe build commands) := ⟨by simp, legible.target⟩
  have ends' : Text.Cuts ':' (build.target ++ ":" ++ recipe build commands) other.target
      (recipe other commands') := ⟨by rw [rests]; simp, distinct.target⟩
  obtain ⟨target, made⟩ := ends.unique ends'
  refine ⟨base, target, mode, fun file => ?_⟩
  rw [recipe, recipe, if_pos file, if_pos (mode.mp file)] at made
  -- A directory may have slashes of its own, so it is the last one that divides.
  have split := congrArg String.toList made
  simp only [String.toList_append] at split
  exact String.toList_inj.mp (Text.append_last_inj legible.dockerfile distinct.dockerfile
    (by simpa using split)).1

/-- Two image builds of one job run the same pod exactly if they report the same input and
are made alike, so that nothing else distinguishes them.  Of legible builds, both by
commands or both by a file, the input alone decides. -/
theorem image_inputs_identify (job : Job) (build other : ImageBuild)
    (commands commands' : String) :
    (imagePod job build commands = imagePod job other commands' ↔
        (⟨job, .image build commands⟩ : Task).step.inputs
            = (⟨job, .image other commands'⟩ : Task).step.inputs
          ∧ MadeAlike build commands other commands')
      ∧ (build.Legible → other.Legible → (commands = "" ↔ commands' = "") →
          ((⟨job, .image build commands⟩ : Task).step.inputs
              = (⟨job, .image other commands'⟩ : Task).step.inputs
            ↔ imagePod job build commands = imagePod job other commands')) := by
  have inputs : (⟨job, .image build commands⟩ : Task).step.inputs
        = (⟨job, .image other commands'⟩ : Task).step.inputs
      ↔ imageInput build commands = imageInput other commands' :=
    Option.some_inj.trans List.singleton_inj
  rw [inputs, imagePod_eq_iff_madeAlike]
  exact ⟨Iff.rfl, fun legible distinct mode =>
    ⟨fun same => ⟨same, madeAlike_of_legible legible distinct mode same⟩,
      fun both => both.1⟩⟩

/-- Builds that cannot be told apart in their input: one file from two directories, and a
colon that belongs to a directory or to a tag. -/
def nested : ImageBuild := { target := "cli", contextDir := "images/cli" }

example : nested.Legible := ⟨by decide +kernel, by decide +kernel, by decide +kernel⟩

def above : ImageBuild :=
  { target := "cli", contextDir := "images", dockerfile := "cli/Dockerfile" }

def filed : ImageBuild := { target := "cli", contextDir := "web:images" }

def variant : ImageBuild := { target := "cli:web", contextDir := "images" }

/-- They report the same inputs and run different pods, and so do commands that read like
the path of a file. -/
theorem different_pods_share_inputs :
    (⟨{ project := "ci" }, .image nested ""⟩ : Task).step.inputs
        = (⟨{ project := "ci" }, .image above ""⟩ : Task).step.inputs
      ∧ imagePod { project := "ci" } nested "" ≠ imagePod { project := "ci" } above ""
      ∧ (⟨{ project := "ci" }, .image nested ""⟩ : Task).step.inputs
        = (⟨{ project := "ci" }, .image nested "images/cli/Dockerfile"⟩ : Task).step.inputs
      ∧ imagePod { project := "ci" } nested ""
        ≠ imagePod { project := "ci" } nested "images/cli/Dockerfile"
      ∧ (⟨{ project := "ci" }, .image filed ""⟩ : Task).step.inputs
        = (⟨{ project := "ci" }, .image variant ""⟩ : Task).step.inputs
      ∧ imagePod { project := "ci" } filed "" ≠
          imagePod { project := "ci" } variant "" := by
  refine ⟨rfl, fun same => ?_, rfl, fun same => ?_, rfl, fun same => ?_⟩
  · exact absurd ((imagePod_eq_iff.mp same).2.2.2 rfl).1 (by decide +kernel)
  · exact absurd (imagePod_eq_iff.mp same).2.2.1 (by decide +kernel)
  · exact absurd (imagePod_eq_iff.mp same).2.1 (by decide +kernel)

end Work

end BuildPipeline
