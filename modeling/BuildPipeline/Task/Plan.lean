import BuildPipeline.Task.Basic

namespace BuildPipeline

open Document

/-- The steps of a run: those asked for, and those that may be added if a step needs
them. -/
structure Plan where
  requested : List Task
  implicit : List Task := []

namespace TestPlan

/-- Only values that can be keys can be looked up at all. -/
def checkParameters (plan : TestPlan) : Except Failure Unit :=
  if plan.parameters.all Value.isKey then .ok () else .error (.misuse .wrongType)

def isProvided (provided : List String) (parameter : Value) : Bool :=
  match parameter with
  | .string name => provided.contains name
  | _ => false

def unknownParameters (plan : TestPlan) (names : List String) : Failure :=
  .configuration
    ("test " ++ Text.quoted plan.name ++ " requests parameters no image provides: "
      ++ Text.commaSeparated (Text.sort names.eraseDups))

def checkProvided (plan : TestPlan) (provided : List String) : Except Failure Unit := do
  plan.checkParameters
  let unknown := plan.parameters.filter fun parameter => !isProvided provided parameter
  if unknown.isEmpty then return ()
  else if unknown.all Value.isString then
    throw (plan.unknownParameters (unknown.filterMap Value.string?))
  else throw (.misuse .wrongType)

end TestPlan

namespace Configuration

def buildWorks (configuration : Configuration) : List Work :=
  (if configuration.binaryCommands = "" then []
    else [Work.binaries configuration.binaryCommands])
    ++ configuration.images.map fun image => .image image ""

def buildTags (configuration : Configuration) : List String :=
  (if configuration.binaryCommands = "" then [] else [Names.binariesTag])
    ++ configuration.images.map (·.target)

def readyWorks (configuration : Configuration) : List Work :=
  if configuration.images.isEmpty then []
  else [Work.imagesReadyOf (configuration.images.map (·.target))]

def testWorks (configuration : Configuration) : List Work :=
  configuration.tests.map fun plan => Work.testOf plan configuration.buildTags

def works (configuration : Configuration) : List Work :=
  .source :: configuration.buildWorks ++ configuration.readyWorks ++ configuration.testWorks

def checkTests (configuration : Configuration) : Except Failure Unit :=
  let provided := configuration.buildTags.map Naming.imageParameter
  configuration.tests.forM fun plan => plan.checkProvided provided

end Configuration

namespace Plan

/-- Without targets everything is asked for; with targets only the steps of those names. -/
def unknownTargets (names : List String) : Failure :=
  .configuration
    ("unknown targets: " ++ Text.commaSeparated (Text.sort names.eraseDups))

def ofTargets (targets : List String) (tasks : List Task) : Except Failure Plan :=
  if targets.isEmpty then .ok { requested := tasks }
  else
    let names := tasks.map (·.work.name)
    let unknown := targets.filter fun target => !names.contains target
    if unknown.isEmpty then
      .ok
        { requested := tasks.filter fun task => targets.contains task.work.name
          implicit := tasks.filter fun task => !targets.contains task.work.name }
    else .error (unknownTargets unknown)

def tagsOf : Work → List String
  | .image build _ => [build.target]
  | .test plan sources => Work.testTags plan sources
  | _ => []

def requiredImages (tasks : List Task) : List String :=
  (tasks.flatMap fun task => tagsOf task.work).eraseDups

/-- A promotion comes last, and is told which images were asked for. -/
def withPromotion (plan : Plan) (configuration : Configuration) (job : Job) : Plan :=
  { plan with
    requested :=
      plan.requested ++ [⟨job, .promotion configuration (requiredImages plan.requested)⟩] }

def ofConfiguration (configuration : Configuration) (job : Job) (targets : List String)
    (promote : Bool) : Except Failure Plan := do
  configuration.validate
  configuration.checkTests
  let plan ← ofTargets targets (configuration.works.map fun work => ⟨job, work⟩)
  return if promote && configuration.activePromotion?.isSome then
      plan.withPromotion configuration job
    else plan

end Plan

end BuildPipeline
