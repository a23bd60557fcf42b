import BuildPipeline.Text.Basic
import BuildPipeline.Text.Case

namespace BuildPipeline

/-- A tag of an image stream. -/
structure ImageReference where
  project : String
  name : String
  tag : String
deriving DecidableEq, Repr

namespace ImageReference

def text (reference : ImageReference) : String :=
  reference.project ++ "/" ++ reference.name ++ ":" ++ reference.tag

end ImageReference

namespace Names

def pipelineStream : String := "pipeline"
def sourceTag : String := "src"
def binariesTag : String := "bin"
def registry : String := "registry.ci.openshift.org"
def internalRegistry : String := "image-registry.openshift-image-registry.svc:5000"
def buildCache : String := "build-cache"
def pushSecret : String := "registry-push-credentials-ci-central"
def pushSecretPath : String := "/etc/push-secret"
def dockerConfigKey : String := ".dockerconfigjson"

end Names

namespace Naming

def pullSpec (project tag : String) : String :=
  Names.internalRegistry ++ "/" ++ project ++ "/" ++ Names.pipelineStream ++ ":" ++ tag

/-! The parameter that carries the pull spec of a tag: in upper case, dashes and points
replaced. -/

def parameterChar (c : Char) : Char :=
  if c = '-' ∨ c = '.' then '_' else c

def imageParameter (tag : String) : String :=
  "IMAGE_" ++ String.ofList ((Text.upperIn tag.toList).map parameterChar)

/-! The pod of a test: in lower case, each foreign character a dash, no dash at either
end, and then cut to the longest name a pod may have. -/

def isPodChar (c : Char) : Bool :=
  ('a' ≤ c && c ≤ 'z') || ('0' ≤ c && c ≤ '9') || c == '-'

def podChar (c : Char) : Char :=
  if isPodChar c then c else '-'

def podNameLimit : Nat := 63

def podNameIn (name : List Char) : List Char :=
  (Text.trimIn (· == '-') ((Text.lowerIn name).map podChar)).take podNameLimit

def podName (name : String) : String :=
  String.ofList (podNameIn name.toList)

end Naming

end BuildPipeline
