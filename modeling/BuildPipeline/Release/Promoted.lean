import BuildPipeline.Release.Configuration

namespace BuildPipeline

/-- What a promotion copies: for each destination its source tag in the pipeline stream,
and the names of the destinations. -/
structure Selection where
  sources : List (String × String) := []
  names : List String := []
deriving DecidableEq, Repr

namespace Selection

def add (selection : Selection) (destination source : String) : Selection :=
  { sources := Table.put selection.sources destination source
    names :=
      if destination ∈ selection.names then selection.names
      else selection.names ++ [destination] }

def remove (selection : Selection) (destination : String) : Selection :=
  { sources := Table.erase selection.sources destination
    names := selection.names.filter (· ≠ destination) }

end Selection

namespace Promotion

def wanted (required : List String) (image : ImageBuild) : Bool :=
  required.contains image.target || !image.optional

/-- Required and non-optional images are selected, exclusions win over that, and
additional images win over both. -/
def select (promotion : Promotion) (images : List ImageBuild) (required : List String) :
    Selection :=
  if promotion.disabled then {}
  else
    let built := (images.filter (wanted required)).foldl
      (fun selection image => selection.add image.target image.target) {}
    let kept := promotion.excludedImages.foldl Selection.remove built
    promotion.additionalImages.foldl (fun selection entry =>
      selection.add entry.1 entry.2) kept

end Promotion

namespace Configuration

/-- The destinations by source tag, and the destination names.  Of two destinations with
one source the later one is kept, and the build cache comes last. -/
def promoted (configuration : Configuration) (required : List String) :
    List (String × ImageReference) × List String :=
  match configuration.activePromotion? with
  | none => ([], [])
  | some promotion =>
      let selection := promotion.select configuration.images required
      let bySource := selection.sources.foldl
        (fun promoted entry => Table.put promoted entry.2 (promotion.destination entry.1))
        []
      let cached :=
        if configuration.binaryCommands = "" ∨ promotion.disableBuildCache = true then
          bySource
        else Table.put bySource Names.binariesTag configuration.metadata.buildCache
      (cached, selection.names)

def promotedReferences (configuration : Configuration) : List ImageReference :=
  ((configuration.promoted []).1.map (·.2)).mergeSort fun a b => decide (a.text ≤ b.text)

end Configuration

end BuildPipeline
