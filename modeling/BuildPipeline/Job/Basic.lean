import BuildPipeline.Error.Failure
import BuildPipeline.Table

namespace BuildPipeline

/-- The source revision under test: a base reference of a repository, perhaps pinned to a
commit, and the commits of the pull requests to merge into it. -/
structure Refs where
  org : String
  repo : String
  baseRef : String
  baseSha : String := ""
  pulls : List String := []
deriving DecidableEq, Repr

namespace Refs

/-- The written form `org/repo@base_ref[:base_sha][,pull_sha...]`. -/
def describe (refs : Refs) : String :=
  refs.org ++ "/" ++ refs.repo ++ "@" ++ refs.baseRef
    ++ (if refs.baseSha = "" then "" else ":" ++ refs.baseSha)
    ++ String.join (refs.pulls.map ("," ++ ·))

def invalid (text : String) : Failure :=
  .configuration ("invalid refs " ++ Text.quoted text
    ++ ", expected org/repo@base_ref[:sha][,pull_sha...]")

def parse (text : String) : Except Failure Refs :=
  let (head, pulls) := Text.cut ',' text
  let (repoPart, refPart) := Text.cut '@' head
  let (org, repo) := Text.cut '/' repoPart
  match repo, refPart with
  | some repo, some refPart =>
      if org = "" ∨ repo = "" ∨ refPart = "" then .error (invalid text)
      else
        let (baseRef, baseSha) := Text.cut ':' refPart
        .ok
          { org, repo, baseRef
            baseSha := baseSha.getD ""
            pulls := (Text.pieces ',' (pulls.getD "")).filter (· ≠ "") }
  | _, _ => .error (invalid text)

def cloneUrl (refs : Refs) : String :=
  "https://github.com/" ++ refs.org ++ "/" ++ refs.repo ++ ".git"

end Refs

/-- What a run is about: the namespace it executes in, the job and build it belongs to,
the revision under test, and labels for everything it creates. -/
structure Job where
  project : String
  name : String := ""
  buildId : String := ""
  refs : Option Refs := none
  labels : List (String × String) := []

namespace Job

def labelLimit : Nat := 63

def labelWith (labels : List (String × String)) (key value : String) :
    List (String × String) :=
  if value = "" then labels else Table.put labels key (Text.first labelLimit value)

def ownerLabels (job : Job) : List (String × String) :=
  labelWith (labelWith job.labels "ci.openshift.io/job" job.name)
    "ci.openshift.io/build-id" job.buildId

end Job

end BuildPipeline
