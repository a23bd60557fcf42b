import BuildPipeline.CommandLine.Program
import BuildPipeline.Proofs.Execution.Outcome
import BuildPipeline.Proofs.Task.PlanGraph

namespace BuildPipeline

open Document

variable {σ : Type}

def Work.image? : Work → Option String
  | .image build _ => some build.target
  | _ => none

theorem Work.name_of_image? {work : Work} {tag : String} (image : work.image? = some tag) :
    work.name = tag := by
  cases work with
  | image build commands => exact Option.some.inj image
  | source | imagesReady | test | promotion => cases image

theorem Task.mem_provides {task : Task} {name : String} :
    name ∈ task.provides.map (·.1)
      ↔ ∃ tag, task.work.image? = some tag ∧ name = Naming.imageParameter tag := by
  unfold provides
  cases task.work with
  | image build commands => simp [Work.image?]
  | source | imagesReady | test | promotion => simp [Work.image?]

namespace StepGraph

def imageTags (graph : StepGraph Task PullSpec) : List String :=
  graph.steps.filterMap (·.work.work.image?)

def ParametersApart (graph : StepGraph Task PullSpec) : Prop :=
  (graph.imageTags.map Naming.imageParameter).Nodup

instance (graph : StepGraph Task PullSpec) : Decidable graph.ParametersApart :=
  inferInstanceAs (Decidable (List.Nodup _))

variable {plan : Plan} {graph : StepGraph Task PullSpec}

theorem name_of_image? (built : plan.graph = .ok graph) {step : Step Task PullSpec}
    {tag : String} (member : step ∈ graph.steps)
    (image : step.work.work.image? = some tag) :
    step.name = tag := by
  obtain ⟨task, _, rfl⟩ := task_of_mem built member
  exact Work.name_of_image? image

theorem mem_provides (built : plan.graph = .ok graph) {step : Step Task PullSpec}
    {name : String} (member : step ∈ graph.steps) :
    name ∈ step.provides.map (·.1)
      ↔ ∃ tag, step.work.work.image? = some tag ∧ name = Naming.imageParameter tag := by
  obtain ⟨task, _, rfl⟩ := task_of_mem built member
  exact Task.mem_provides

theorem imageTags_nodup (built : plan.graph = .ok graph) : graph.imageTags.Nodup := by
  have apart : graph.steps.Pairwise fun one other => one.name ≠ other.name :=
    List.pairwise_map.mp (names_nodup built)
  rw [imageTags, List.Nodup, List.pairwise_filterMap]
  refine apart.imp_of_mem ?_
  rintro one other first second differ tag image tag' image' rfl
  exact differ ((name_of_image? built first image).trans
    (name_of_image? built second image').symm)

/-- Two steps dispute a parameter exactly if two images have the same one. -/
theorem undisputed_iff_parametersApart (built : plan.graph = .ok graph) :
    Environment.Undisputed {} graph.steps ↔ graph.ParametersApart := by
  rw [ParametersApart, List.nodup_map_iff_inj_on (imageTags_nodup built)]
  constructor
  · intro undisputed tag listed tag' listed' same
    obtain ⟨step, member, image⟩ := List.mem_filterMap.mp listed
    obtain ⟨other, member', image'⟩ := List.mem_filterMap.mp listed'
    have provided := (mem_provides built member).mpr ⟨tag, image, rfl⟩
    have provided' := (mem_provides built member').mpr ⟨tag', image', same⟩
    have named := (undisputed step member _ provided).2 other member' provided'
    rw [← name_of_image? built member image, ← name_of_image? built member' image', named]
  · intro apart step member name provided
    refine ⟨by rintro owner ⟨⟩, fun other member' provided' => ?_⟩
    obtain ⟨tag, image, rfl⟩ := (mem_provides built member).mp provided
    obtain ⟨tag', image', same⟩ := (mem_provides built member').mp provided'
    have equal := apart tag (List.mem_filterMap.mpr ⟨step, member, image⟩) tag'
      (List.mem_filterMap.mpr ⟨other, member', image'⟩) same
    rw [name_of_image? built member image, name_of_image? built member' image', equal]

end StepGraph

theorem StatusTable.ofResult_yields (result : RunResult) (order : Option (List String)) :
    Answer.Yields (fun _ => True) (fun failure => failure.isConfiguration = false)
      (ofResult result order) := by
  have rows :
      ∀ name, Answer.Yields (fun _ => True) (fun failure => failure.isConfiguration = false)
      (rowOf result name) := by
    intro name
    unfold rowOf
    split
    · exact trivial
    · exact rfl
  exact (Answer.Yields.mapM fun name _ => rows name).bind fun _ _ _ => trivial

namespace CommandLine

theorem exitCode_unexpected (failure : Failure) :
    (Outcome.unexpected failure).exitCode = failedExit := by
  unfold Outcome.unexpected
  split <;> rfl

theorem exitCode_ofExcept_ne {answer : Except Failure Outcome}
    (yields : Answer.Yields (fun outcome => outcome.exitCode ≠ refusedExit)
      (fun failure => failure.isConfiguration = false) answer) :
    (Outcome.ofExcept answer).exitCode ≠ refusedExit := by
  cases answer with
  | ok outcome => exact yields
  | error failure =>
      change failure.isConfiguration = false at yields
      rw [Outcome.ofExcept, Outcome.ofFailure, yields, if_neg Bool.false_ne_true,
        exitCode_unexpected]
      decide

theorem exitCode_ofEnding_ne {κ ρ : Type} (graph : StepGraph κ ρ)
    (ending : Environment.Ending) :
    (ofEnding graph ending).exitCode ≠ refusedExit := by
  cases ending with
  | unfinished => exact (by decide : failedExit ≠ refusedExit)
  | broken failure =>
      rw [ofEnding, exitCode_unexpected]
      decide
  | finished result =>
      refine exitCode_ofExcept_ne
        ((StatusTable.ofResult_yields result _).bind fun table _ _ => ?_)
      change (if result.succeeded then 0 else failedExit) ≠ refusedExit
      split <;> decide

end CommandLine

namespace Plan

/-- The run of a plan's graph never breaks off if the images of the graph have parameters
of their own: it has a result as soon as it is done, and in a fair world it is done some
time.  If two images share a parameter, the run always breaks off with a complaint about
the configuration, before any step starts. Its exit code is never that of a refused
configuration. -/
theorem run_ends_or_conflicts {plan : Plan} {graph : StepGraph Task PullSpec}
    (built : plan.graph = .ok graph) (env : Environment Task PullSpec σ) {limit : Int}
    (least : 1 ≤ limit) (world : σ) :
    (graph.ParametersApart →
        (∀ turns, ∃ stand,
          (∃ result, env.run graph limit turns {} world = (.finished result, stand))
            ∨ env.run graph limit turns {} world = (.unfinished, stand))
          ∧ (env.Fair graph limit.toNat
              (env.entry graph (Environment.declareAll {} graph.steps).1 world) →
            ∃ enough, ∀ turns, enough ≤ turns → ∃ result stand,
              env.run graph limit turns {} world = (.finished result, stand)))
      ∧ (¬ graph.ParametersApart →
        ∃ failure stand, failure.isConfiguration = true ∧ stand.dispatched = []
          ∧ ∀ turns, env.run graph limit turns {} world = (.broken failure, stand))
      ∧ ∀ turns,
          (CommandLine.ofEnding graph (env.run graph limit turns {} world).1).exitCode
          ≠ CommandLine.refusedExit := by
  have wellFormed := StepGraph.wellFormed_of_build built (StepGraph.names_nodup built)
  rw [← StepGraph.undisputed_iff_parametersApart built]
  refine ⟨fun undisputed => ?_, fun disputed => ?_, fun turns =>
    CommandLine.exitCode_ofEnding_ne _ _⟩
  · have accepted : Environment.declareAll {} graph.steps =
        ((Environment.declareAll {} graph.steps).1, none) :=
      Prod.ext rfl ((Environment.declareAll_eq_none_iff _ _).mpr undisputed)
    exact ⟨env.run_ends wellFormed least accepted world,
      env.run_finishes wellFormed least accepted⟩
  · obtain ⟨name, one, two, _, broken⟩ := env.run_disputed least world disputed
    exact ⟨_, _, rfl, rfl, broken⟩

end Plan

def imagesDocument (one other : String) : Value :=
  .object
    [("images", .list [.object [("to", .string one)], .object [("to", .string other)]])]

def imagesRelease (one other : String) : Configuration where
  images := [{ target := one }, { target := other }]

def imagesJob : Job where
  project := "ci"
  refs := some { org := "example", repo := "tools", baseRef := "main" }

def imagesPlan (one other : String) : Plan where
  requested :=
    [⟨imagesJob, .image { target := one } ""⟩, ⟨imagesJob, .image { target := other } ""⟩]
  implicit := [⟨imagesJob, .source⟩, ⟨imagesJob, Work.imagesReadyOf [one, other]⟩]

def imagesGraph (one other : String) : StepGraph Task PullSpec where
  steps :=
    [Task.step ⟨imagesJob, .image { target := one } ""⟩,
      Task.step ⟨imagesJob, .image { target := other } ""⟩, Task.step ⟨imagesJob, .source⟩]
  edges := [(Work.sourceName, one), (Work.sourceName, other)]

theorem cli_oc_run_ends :
    (imagesPlan "cli" "oc").graph = .ok (imagesGraph "cli" "oc")
      ∧ (imagesGraph "cli" "oc").ParametersApart
      ∧ ∃ enough, ∀ turns, enough ≤ turns → ∃ result stand,
          (Environment.steady fun _ => .ok ()).run (imagesGraph "cli" "oc") 1 turns {} [] =
            (.finished result, stand) := by
  have built : (imagesPlan "cli" "oc").graph = .ok (imagesGraph "cli" "oc") :=
    @StepGraph.build_of_close Task PullSpec
      ((imagesPlan "cli" "oc").requested.map Task.step)
      ((imagesPlan "cli" "oc").implicit.map Task.step) _ rfl
      (by rw [StepGraph.cycle?_of_sorted (by decide)]; rfl)
  have apart : (imagesGraph "cli" "oc").ParametersApart := by decide +kernel
  obtain ⟨ends, _, _⟩ :=
    Plan.run_ends_or_conflicts built (Environment.steady fun _ => .ok ()) (Int.le_refl 1) []
  have wellFormed := StepGraph.wellFormed_of_build built (StepGraph.names_nodup built)
  exact ⟨built, apart, (ends apart).2 (Environment.steady_fair _
    (Environment.entry_eq _ wellFormed _ _).1)⟩

/-- Two images whose tags differ in a dash and a point are accepted, planned and built,
and still their run complains about the configuration. -/
theorem dotted_image_conflicts :
    Configuration.ofDocument (imagesDocument "cli-x" "cli.x") =
      .ok (imagesRelease "cli-x" "cli.x")
      ∧ Plan.ofConfiguration (imagesRelease "cli-x" "cli.x") imagesJob
          ["cli-x", "cli.x"] false = .ok (imagesPlan "cli-x" "cli.x")
      ∧ (imagesPlan "cli-x" "cli.x").graph = .ok (imagesGraph "cli-x" "cli.x")
      ∧ (Register.conflict "IMAGE_CLI_X" "cli-x" "cli.x").isConfiguration = true
      ∧ ∀ turns,
          ((Environment.steady fun _ => .ok ()).run
            (imagesGraph "cli-x" "cli.x") 1 turns {} []).1 =
            .broken (Register.conflict "IMAGE_CLI_X" "cli-x" "cli.x") := by
  refine ⟨rfl, rfl, ?_, rfl, fun turns => ?_⟩
  · exact @StepGraph.build_of_close Task PullSpec
      ((imagesPlan "cli-x" "cli.x").requested.map Task.step)
      ((imagesPlan "cli-x" "cli.x").implicit.map Task.step) _ rfl
      (by rw [StepGraph.cycle?_of_sorted (by decide)]; rfl)
  · rfl

end BuildPipeline
