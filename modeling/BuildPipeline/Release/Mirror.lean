import BuildPipeline.Cluster.Pod
import BuildPipeline.Release.Promoted

namespace BuildPipeline

open Document

/-! The pull reference that an image stream records for a tag, or an empty text. -/

namespace ImageStream

def referenceIn (items : Value) : Except Misuse Value :=
  match items with
  | .list (newest :: _) => newest.fieldOr "dockerImageReference" (.string "")
  | .string _ => .error .missingField
  | .mapping entries =>
      match Entries.get? entries (.int 0) with
      | some newest => newest.fieldOr "dockerImageReference" (.string "")
      | none => .error .missingKey
  | _ => .error .wrongType

def referenceAmong (tag : String) : List Value → Except Misuse Value
  | [] => .ok (.string "")
  | entry :: rest => do
      let name ← entry.field "tag"
      if name.sameKey (.string tag) then
        let items ← entry.field "items"
        if items.isTrue then referenceIn items else return .string ""
      else referenceAmong tag rest

def status (stream : Value) : Except Misuse Value :=
  (stream.field "status").map (·.orElse (.mapping []))

def reference (stream : Value) (tag : String) : Except Misuse Value :=
  if stream.isTrue then do
    let status ← status stream
    let tags ← status.field "tags"
    let entries ← (tags.orElse (.list [])).elements
    referenceAmong tag entries
  else .ok (.string "")

end ImageStream

namespace Mirror

def internalPort : String := ":5000"

/-- A reference in the internal registry is pulled through the host of the stream's public
repository, if that has one. -/
def publicReference (reference repository : String) : String :=
  if Text.contains internalPort reference then
    let (publicHost, publicRest) := Text.cut '/' repository
    let (host, rest) := Text.cut '/' reference
    if publicRest.isSome && rest.isSome then Text.replaceFirst host publicHost reference
    else reference
  else reference

def mentionsPort (items : List Value) : Bool :=
  items.any (·.sameKey (.string internalPort))

def badSource (mentioned : Bool) (repository : Value) : Misuse :=
  if mentioned then
    match repository with
    | .string repository =>
        if Text.contains "/" repository then .missingField else .wrongType
    | _ => .missingField
  else .wrongType

def source (reference repository : Value) : Except Misuse String :=
  match reference with
  | .string reference =>
      if Text.contains internalPort reference then
        match repository with
        | .string repository => .ok (publicReference reference repository)
        | _ => .error .missingField
      else .ok reference
  | .list items => .error (badSource (mentionsPort items) repository)
  | .mapping entries => .error (badSource (mentionsPort (entries.map (·.1))) repository)
  | _ => .error .wrongType

def targetsFrom (stream repository : Value) (registry : String) :
    List (String × String) → List (String × ImageReference) →
      Except Misuse (List (String × String))
  | targets, [] => .ok targets
  | targets, (tag, destination) :: rest => do
      let reference ← ImageStream.reference stream tag
      if reference.isTrue then
        let source ← source reference repository
        targetsFrom stream repository registry
          (Table.put targets source (registry ++ "/" ++ destination.text)) rest
      else targetsFrom stream repository registry targets rest

/-- From each pullable source to its destination.  A tag without a recorded reference was
not built in this run and is left out. -/
def targets (tags : List (String × ImageReference)) (stream : Value) (registry : String) :
    Except Misuse (List (String × String)) :=
  if stream.isTrue then do
    let status ← ImageStream.status stream
    let repository ← status.fieldOr "publicDockerImageRepository" (.string "")
    targetsFrom stream repository registry [] tags
  else .ok []

def arguments (targets : List (String × String)) : List String :=
  (Text.sortByKey targets).map fun entry => entry.1 ++ "=" ++ entry.2

def podName : String := "promotion"

def image : String := Names.registry ++ "/ocp/4.8:cli"

def command (targets : List (String × String)) : String :=
  "oc image mirror --registry-config=" ++ Names.pushSecretPath ++ "/"
    ++ Names.dockerConfigKey ++ " --continue-on-error=true --max-per-registry=20 "
    ++ String.intercalate " " (arguments targets)

def pod (targets : List (String × String)) (project : String) : Pod :=
  { name := podName, project, image
    command := ["/bin/sh", "-c"]
    args := [command targets]
    secrets := [⟨"push-secret", Names.pushSecretPath, Names.pushSecret⟩] }

end Mirror

end BuildPipeline
