import BuildPipeline.Graph.Basic
import BuildPipeline.Job.Basic
import BuildPipeline.Release.Configuration
import BuildPipeline.Release.Naming

namespace BuildPipeline

open Document

/-- What the steps of a release run do: clone the source, build one image, wait for all
images, run one test, and promote what was built.  A test knows which image each parameter
comes from. -/
inductive Work where
  | source
  | image (build : ImageBuild) (commands : String)
  | imagesReady (tags : List String)
  | test (plan : TestPlan) (sources : List (String × String))
  | promotion (configuration : Configuration) (required : List String)

structure Task where
  job : Job
  work : Work

/-- The parameter that an image provides is the pull reference of its tag. -/
structure PullSpec where
  project : String
  tag : String
deriving DecidableEq, Repr

namespace Work

def sourceName : String := "[src]"
def imagesName : String := "[images]"
def promotionName : String := "[promotion]"

def name : Work → String
  | .source => sourceName
  | .image build _ => build.target
  | .imagesReady _ => imagesName
  | .test plan _ => plan.name
  | .promotion _ _ => promotionName

def binaries (commands : String) : Work :=
  .image { target := Names.binariesTag, base := Names.sourceTag } commands

def imagesReadyOf (tags : List String) : Work :=
  .imagesReady (Text.sort tags.eraseDups)

def testOf (plan : TestPlan) (tags : List String) : Work :=
  .test plan (Table.ofPairs (tags.map fun tag => (Naming.imageParameter tag, tag)))

/-- The images that a test needs: the one it runs in, and those of its parameters. -/
def addTag (sources : List (String × String)) (tags : List String) (parameter : Value) :
    List String :=
  match parameter.string?.bind (Table.get? sources) with
  | some tag => if tag = "" ∨ tag ∈ tags then tags else tags ++ [tag]
  | none => tags

def testTags (plan : TestPlan) (sources : List (String × String)) : List String :=
  plan.parameters.foldl (addTag sources) [plan.base]

def requires : Work → List Link
  | .source => []
  | .image build _ => [.internalImage build.base]
  | .imagesReady tags => tags.map .internalImage
  | .test plan sources => (testTags plan sources).map .internalImage
  | .promotion _ _ => [.allSteps]

def creates : Work → List Link
  | .source => [.internalImage Names.sourceTag]
  | .image build _ => [.internalImage build.target]
  | .imagesReady _ => [.imagesReady]
  | .test _ _ => []
  | .promotion _ _ => []

def imageInput (build : ImageBuild) (commands : String) : String :=
  build.base ++ "->" ++ build.target ++ ":"
    ++ (if commands = "" then build.contextDir ++ "/" ++ build.dockerfile else commands)

def inputs (refs : Option Refs) : Work → List String
  | .source => refs.toList.map Refs.describe
  | .image build commands => [imageInput build commands]
  | _ => []

def description : Work → String
  | .source => "Clone the correct source code into an image and tag it as src"
  | .image build _ => "Build image " ++ build.target ++ " from the repository"
  | .imagesReady _ => "All images are built and tagged into stable"
  | .test plan _ => "Run test " ++ plan.name
  | .promotion configuration _ =>
      "Promote built images into the release image stream "
        ++ ((configuration.promotion.map Promotion.targetName).getD "")

def kind : Work → String
  | .source => "SourceStep"
  | .image _ _ => "ImageBuildStep"
  | .imagesReady _ => "ImagesReadyStep"
  | .test _ _ => "TestStep"
  | .promotion _ _ => "PromotionStep"

def display (work : Work) : String :=
  work.kind ++ "(name=" ++ Text.quoted work.name ++ ")"

def noRefs : Failure := .invalidStep sourceName "no source refs configured"

def validate (refs : Option Refs) : Work → Except Failure Unit
  | .source => if refs.isNone then .error noRefs else .ok ()
  | .image build _ =>
      if build.base = build.target then
        .error (.invalidStep build.target "an image cannot be built from itself")
      else .ok ()
  | .promotion configuration _ =>
      match configuration.activePromotion? with
      | some active => active.validate
      | none => .ok ()
  | _ => .ok ()

end Work

namespace Task

def provides (task : Task) : List (String × PullSpec) :=
  match task.work with
  | .image build _ =>
      [(Naming.imageParameter build.target, ⟨task.job.project, build.target⟩)]
  | _ => []

def validate (task : Task) : Except Failure Unit :=
  task.work.validate task.job.refs

def failureOf : Except Failure Unit → Option Error
  | .ok _ => none
  | .error failure => some (Error.ofFailure failure)

def step (task : Task) : Step Task PullSpec :=
  { name := task.work.name
    requires := task.work.requires
    creates := task.work.creates
    inputs := some (task.work.inputs task.job.refs)
    provides := task.provides
    invalid := failureOf task.validate
    work := task }

@[simp] theorem name_step (task : Task) : task.step.name = task.work.name := rfl

@[simp] theorem requires_step (task : Task) : task.step.requires = task.work.requires := rfl

end Task

end BuildPipeline
