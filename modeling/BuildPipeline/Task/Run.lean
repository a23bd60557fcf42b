import BuildPipeline.Cluster.Client
import BuildPipeline.Error.Reason
import BuildPipeline.Release.Mirror
import BuildPipeline.Task.Basic

namespace BuildPipeline

open Document

variable {σ : Type}

/-- What running a step needs: a cluster, the number of times that a pod is looked at, and
the values of parameters. -/
structure Facilities (σ : Type) where
  client : ClusterClient σ
  patience : Nat
  parameters : List Value → σ → Except Error (List (String × Value)) × σ

namespace Work

def cloneImage : String := Names.registry ++ "/ci/source-builder:latest"
def builderImage : String := Names.registry ++ "/ci/image-builder:latest"

def sourcePod (job : Job) (refs : Refs) : Pod :=
  Pod.ofJob job "src-build" cloneImage ["/usr/bin/source-builder"] []
    [("CLONE_URL", .string refs.cloneUrl),
      ("BASE_REF", .string refs.baseRef),
      ("BASE_SHA", .string refs.baseSha),
      ("PULL_SHAS", .string (String.intercalate "," refs.pulls)),
      ("OUTPUT_IMAGE", .string (Naming.pullSpec job.project Names.sourceTag))]

def imageEnvironment (job : Job) (build : ImageBuild) (commands : String) :
    List (String × Value) :=
  [("FROM_IMAGE", .string (Naming.pullSpec job.project build.base)),
    ("OUTPUT_IMAGE", .string (Naming.pullSpec job.project build.target))]
    ++ (if commands = "" then
          [("CONTEXT_DIR", .string build.contextDir),
            ("DOCKERFILE_PATH", .string build.dockerfile)]
        else [("BUILD_COMMANDS", .string commands)])

def imagePod (job : Job) (build : ImageBuild) (commands : String) : Pod :=
  Pod.ofJob job (build.target ++ "-build") builderImage ["/usr/bin/image-builder"] []
    (imageEnvironment job build commands)

def testPod (job : Job) (plan : TestPlan) (environment : List (String × Value)) : Pod :=
  Pod.ofJob job (Naming.podName plan.name) (Naming.pullSpec job.project plan.base)
    ["/bin/bash", "-c"] [plan.commands] environment

end Work

namespace Reason

def cloning : String := "cloning_source"
def building : String := "building_image"
def testing : String := "executing_test"
def promoting : String := "promoting_images"

end Reason

namespace Facilities

def runPod (facilities : Facilities σ) (pod : Pod) (world : σ) : Except Error Unit × σ :=
  match facilities.client.runPod facilities.patience pod.document world with
  | (.ok _, world) => (.ok (), world)
  | (.error error, world) => (.error error, world)

/-- An error tagged with the reason of the step in which it was met.  Ordinary errors are
meant, not what ends the whole process. -/
def tagging (reason : String) (answer : Except Error Unit × σ) : Except Error Unit × σ :=
  (answer.1.mapError fun error => error.because reason, answer.2)

def runSource (facilities : Facilities σ) (job : Job) (world : σ) : Except Error Unit × σ :=
  match job.refs with
  | none => (.error (Error.ofFailure Work.noRefs), world)
  | some refs => tagging Reason.cloning (facilities.runPod (Work.sourcePod job refs) world)

def runImage (facilities : Facilities σ) (job : Job) (build : ImageBuild)
    (commands : String) (world : σ) : Except Error Unit × σ :=
  tagging Reason.building (facilities.runPod (Work.imagePod job build commands) world)

def performTest (facilities : Facilities σ) (job : Job) (plan : TestPlan) (world : σ) :
    Except Error Unit × σ :=
  match facilities.parameters plan.parameters world with
  | (.error error, world) => (.error error, world)
  | (.ok environment, world) => facilities.runPod (Work.testPod job plan environment) world

def runTest (facilities : Facilities σ) (job : Job) (plan : TestPlan) (world : σ) :
    Except Error Unit × σ :=
  tagging Reason.testing (facilities.performTest job plan world)

/-! A promotion reads the pipeline's image stream and copies what was built, if there is
anything. -/

def pipelineStream (project : String) : ObjectName :=
  ⟨"ImageStream", project, Names.pipelineStream⟩

def unresolved (error : Error) : Error :=
  error.causing (.runtime ("could not resolve pipeline imagestream: " ++ error.message))

def notPromoted (error : Error) : Error :=
  error.causing (.runtime ("unable to run promotion pod: " ++ error.message))

def copyTargets (facilities : Facilities σ) (job : Job) (targets : List (String × String))
    (world : σ) : Except Error Unit × σ :=
  if targets.isEmpty then (.ok (), world)
  else
    let (outcome, world) := facilities.runPod (Mirror.pod targets job.project) world
    (outcome.mapError notPromoted, world)

def promote (facilities : Facilities σ) (job : Job) (promotion : Promotion)
    (tags : List (String × ImageReference)) (world : σ) : Except Error Unit × σ :=
  match facilities.client.get true (pipelineStream job.project) world with
  | (.error error, world) => (.error (unresolved error), world)
  | (.ok stream, world) =>
      match Mirror.targets tags stream promotion.registry with
      | .error fault => (.error (Error.ofFailure (.misuse fault)), world)
      | .ok targets => facilities.copyTargets job targets world

def performPromotion (facilities : Facilities σ) (job : Job) (configuration : Configuration)
    (required : List String) (world : σ) : Except Error Unit × σ :=
  match configuration.activePromotion? with
  | none => (.ok (), world)
  | some promotion =>
      let (tags, names) := configuration.promoted required
      if names.isEmpty then (.ok (), world) else facilities.promote job promotion tags world

def runPromotion (facilities : Facilities σ) (job : Job) (configuration : Configuration)
    (required : List String) (world : σ) : Except Error Unit × σ :=
  tagging Reason.promoting (facilities.performPromotion job configuration required world)

def run (facilities : Facilities σ) (task : Task) (world : σ) : Except Error Unit × σ :=
  match task.work with
  | .source => facilities.runSource task.job world
  | .image build commands => facilities.runImage task.job build commands world
  | .imagesReady _ => (.ok (), world)
  | .test plan _ => facilities.runTest task.job plan world
  | .promotion configuration required =>
      facilities.runPromotion task.job configuration required world

end Facilities

namespace PullSpec

def missing (spec : PullSpec) : Failure :=
  .configuration ("pipeline image stream has no reference for tag " ++ Text.quoted spec.tag)

def read (client : ClusterClient σ) (spec : PullSpec) (world : σ) :
    Except Error Value × σ :=
  match client.get false (Facilities.pipelineStream spec.project) world with
  | (.error error, world) => (.error error, world)
  | (.ok stream, world) =>
      match ImageStream.reference stream spec.tag with
      | .error fault => (.error (Error.ofFailure (.misuse fault)), world)
      | .ok reference =>
          if reference.isTrue then (.ok reference, world)
          else (.error (Error.ofFailure spec.missing), world)

end PullSpec

end BuildPipeline
