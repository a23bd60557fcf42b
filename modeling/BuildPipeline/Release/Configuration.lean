import BuildPipeline.Error.Failure
import BuildPipeline.Files.Tree
import BuildPipeline.Release.Naming
import BuildPipeline.Release.Promotion

namespace BuildPipeline

open Document

structure Metadata where
  org : String := ""
  repo : String := ""
  branch : String := ""
  variant : String := ""
deriving DecidableEq, Repr

namespace Metadata

def ofDocument (value : Value) : Except Failure Metadata := do
  let fields := value.orElse (.mapping [])
  let org ← asked (fields.fieldOr "org" (.string ""))
  let repo ← asked (fields.fieldOr "repo" (.string ""))
  let branch ← asked (fields.fieldOr "branch" (.string ""))
  let variant ← asked (fields.fieldOr "variant" (.string ""))
  return { org := ← org.written, repo := ← repo.written
           branch := ← branch.written, variant := ← variant.written }

/-- Where a repository's binaries are kept for later runs. -/
def buildCache (metadata : Metadata) : ImageReference :=
  { project := Names.buildCache
    name := metadata.org ++ "-" ++ metadata.repo
    tag :=
      if metadata.variant = "" then metadata.branch
      else metadata.branch ++ "-" ++ metadata.variant }

end Metadata

/-- One image of the project: built on top of one tag of the pipeline stream into
another. -/
structure ImageBuild where
  target : String
  base : String := Names.sourceTag
  contextDir : String := ""
  dockerfile : String := "Dockerfile"
  optional : Bool := false
deriving DecidableEq, Repr

namespace ImageBuild

def ofDocument (value : Value) : Except Failure ImageBuild := do
  let target ← asked (value.field "to")
  if !target.isTrue then
    throw (.configuration "image build configuration requires 'to'")
  let base ← asked (value.field "from")
  let contextDir ← asked (value.fieldOr "context_dir" (.string ""))
  let dockerfile ← asked (value.field "dockerfile_path")
  let optional ← asked (value.fieldOr "optional" (.bool false))
  pure
    { target := ← target.written
      base := ← (base.orElse (.string Names.sourceTag)).written
      contextDir := ← contextDir.written
      dockerfile := ← (dockerfile.orElse (.string "Dockerfile")).written
      optional := optional.isTrue }

end ImageBuild

/-- A test: commands to run in an image, with parameters that become its environment.  A
parameter name is a text, but a document may hold anything in its place. -/
structure TestPlan where
  name : String
  commands : String
  base : String := Names.sourceTag
  parameters : List Value := []

namespace TestPlan

def ofDocument (value : Value) : Except Failure TestPlan := do
  let name ← asked (value.field "as")
  let commands ← asked (value.field "commands")
  if !name.isTrue || !commands.isTrue then
    throw (.configuration "test configuration requires 'as' and 'commands'")
  let base ← asked (value.field "from")
  let parameters ← asked (value.field "parameters")
  pure
    { name := ← name.written
      commands := ← commands.written
      base := ← (base.orElse (.string Names.sourceTag)).written
      parameters := ← asked (parameters.orElse (.list [])).elements }

end TestPlan

/-- What a repository builds, tests and promotes. -/
structure Configuration where
  metadata : Metadata := {}
  images : List ImageBuild := []
  tests : List TestPlan := []
  binaryCommands : String := ""
  promotion : Option Promotion := none

namespace Configuration

def promotionOf (value : Value) : Except Failure (Option Promotion) :=
  if value.isTrue then (Promotion.ofDocument value).map some else .ok none

def ofFields (fields : Value) : Except Failure Configuration := do
  let promotion ← asked (fields.field "promotion")
  let metadata ← asked (fields.field "zz_generated_metadata")
  let metadata ← Metadata.ofDocument metadata
  let images ← asked (fields.field "images")
  let images ← asked (images.orElse (.list [])).elements
  let images ← images.mapM ImageBuild.ofDocument
  let tests ← asked (fields.field "tests")
  let tests ← asked (tests.orElse (.list [])).elements
  let tests ← tests.mapM TestPlan.ofDocument
  let binaryCommands ← asked (fields.field "binary_build_commands")
  let binaryCommands ← (binaryCommands.orElse (.string "")).written
  let promotion ← promotionOf promotion
  pure
    { metadata, images, tests, promotion, binaryCommands }

def ofDocument (value : Value) : Except Failure Configuration :=
  match value.bare with
  | .null => ofFields (.mapping [])
  | .mapping entries => ofFields (.mapping entries)
  | _ => .error (.configuration "release build configuration must be a mapping")

/-- Image names are distinct, and none is reserved for the images of the run itself. -/
def validateImages : List String → List ImageBuild → Except Failure Unit
  | _, [] => .ok ()
  | seen, image :: rest =>
      if image.target ∈ seen then
        .error (.configuration
          ("image " ++ Text.quoted image.target ++ " is declared more than once"))
      else if image.target = Names.sourceTag ∨ image.target = Names.binariesTag then
        .error
          (.configuration ("image name " ++ Text.quoted image.target ++ " is reserved"))
      else validateImages (image.target :: seen) rest

def activePromotion? (configuration : Configuration) : Option Promotion :=
  configuration.promotion.filter fun promotion => !promotion.disabled

def validate (configuration : Configuration) : Except Failure Unit := do
  validateImages [] configuration.images
  match configuration.activePromotion? with
  | some promotion => promotion.validate
  | none => return ()

def unloaded (files : Files) (path : Path) : Failure :=
  .configuration
    ("Failed to load configuration from " ++ path.text files.top
      ++ ": not a readable document")

def ofFile (files : Files) (path : Path) : Except Failure Configuration := do
  ofDocument (← files.document path (unloaded files path))

end Configuration

end BuildPipeline
