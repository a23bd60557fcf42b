import BuildPipeline.Error.Failure
import BuildPipeline.Release.Naming
import BuildPipeline.Table

namespace BuildPipeline

open Document

/-- Where images are promoted to and which ones.  Exactly one of `name` and `tag` selects
how they are addressed: with a name every image is a tag of one stream, with a tag every
image has a stream of its own. -/
structure Promotion where
  project : String
  name : String := ""
  tag : String := ""
  registryOverride : String := ""
  excludedImages : List String := []
  additionalImages : List (String × String) := []
  disabled : Bool := false
  disableBuildCache : Bool := false
deriving DecidableEq, Repr

namespace Promotion

def additionalOf (value : Value) : Except Failure Entries :=
  match value.bare with
  | .mapping entries => .ok entries
  | _ => .error (.configuration "promotion.additional_images must be a mapping")

def excludedOf (value : Value) : Except Failure (List Value) :=
  match value.bare with
  | .list items => .ok items
  | _ => .error (.configuration "promotion.excluded_images must be a list")

def writtenEntry (entry : Value × Value) : Except Failure (String × String) := do
  return (← entry.1.written, ← entry.2.written)

def ofDocument (value : Value) : Except Failure Promotion := do
  let additional ← asked (value.field "additional_images")
  let additional ← additionalOf (additional.orElse (.mapping []))
  let excluded ← asked (value.field "excluded_images")
  let excluded ← excludedOf (excluded.orElse (.list []))
  let project ← asked (value.fieldOr "namespace" (.string ""))
  let name ← asked (value.field "name")
  let tag ← asked (value.field "tag")
  let registryOverride ← asked (value.field "registry_override")
  let disabled ← asked (value.fieldOr "disabled" (.bool false))
  let disableBuildCache ← asked (value.fieldOr "disable_build_cache" (.bool false))
  pure
    { project := ← project.written
      name := ← (name.orElse (.string "")).written
      tag := ← (tag.orElse (.string "")).written
      registryOverride := ← (registryOverride.orElse (.string "")).written
      excludedImages := ← excluded.mapM Value.written
      additionalImages := Table.ofPairs (← additional.mapM writtenEntry)
      disabled := disabled.isTrue
      disableBuildCache := disableBuildCache.isTrue }

def validate (promotion : Promotion) : Except Failure Unit :=
  if promotion.project = "" then .error (.configuration "promotion.namespace is required")
  else if (promotion.name != "") == (promotion.tag != "") then
    .error (.configuration "promotion requires exactly one of 'name' or 'tag'")
  else .ok ()

def destination (promotion : Promotion) (image : String) : ImageReference :=
  if promotion.name = "" then ⟨promotion.project, image, promotion.tag⟩
  else ⟨promotion.project, promotion.name, image⟩

def componentMark : String := "$\x7bcomponent\x7d"

def targetName (promotion : Promotion) : String :=
  (promotion.destination componentMark).text

def registry (promotion : Promotion) : String :=
  if promotion.registryOverride = "" then Names.registry else promotion.registryOverride

end Promotion

end BuildPipeline
