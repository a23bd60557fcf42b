import BuildPipeline.Error.Chain
import BuildPipeline.Text.Basic

namespace BuildPipeline

/-- A link names an artifact without naming the step that produces it.  Steps are wired by
the links they require and create; two links are equal iff they denote the same artifact. -/
structure Link where
  kind : String
  identity : String := ""
deriving DecidableEq, Repr, Inhabited

namespace Link

def internalImage (tag : String) : Link := ⟨"internal-image", tag⟩

def externalImage (project name tag : String) : Link :=
  ⟨"external-image", project ++ "/" ++ name ++ ":" ++ tag⟩

def imagesReady : Link := ⟨"images-ready", ""⟩

def releasePayload (name : String) : Link := ⟨"release-payload", name⟩

/-! Satisfied only when every other step has succeeded.  Every link of this kind is a
wildcard; `allSteps` is the one without an identity. -/

def wildcardKind : String := "all-steps"

def allSteps : Link := ⟨wildcardKind, ""⟩

def isWildcard (link : Link) : Bool :=
  link.kind == wildcardKind

@[simp] theorem isWildcard_allSteps : allSteps.isWildcard = true := by
  simp [isWildcard, allSteps]

def text (link : Link) : String :=
  if link.identity = "" then "<" ++ link.kind ++ ">"
  else "<" ++ link.kind ++ ":" ++ link.identity ++ ">"

def precedes (a b : Link) : Bool :=
  decide (a.kind < b.kind) || (a.kind == b.kind && decide (a.identity < b.identity))

def sort (links : List Link) : List Link :=
  links.mergeSort fun a b => !b.precedes a

end Link

variable {κ ρ : Type}

/-- A unit of work.  Steps do not refer to each other: they declare the links they require
and the links they create.  `work` says what running the step does and `provides` how its
parameters are found; neither matters before the step runs.  `inputs` are the external
inputs, if the step says anything of them, and `invalid` is what is wrong with its own
configuration. -/
structure Step (κ ρ : Type) where
  name : String
  requires : List Link := []
  creates : List Link := []
  inputs : Option (List String) := some []
  provides : List (String × ρ) := []
  invalid : Option Error := none
  work : κ

namespace Step

def waitsForAll (step : Step κ ρ) : Bool :=
  step.requires.contains Link.allSteps

end Step

/-- An edge leads from the step that runs before to the step that runs after. -/
abbrev Edge := String × String

/-- The steps of a run and the edges between them.  Edges form a set: none is listed
twice. -/
structure StepGraph (κ ρ : Type) where
  steps : List (Step κ ρ)
  edges : List Edge

namespace StepGraph

def names (graph : StepGraph κ ρ) : List String :=
  graph.steps.map (·.name)

def distinctNames (graph : StepGraph κ ρ) : List String :=
  graph.names.eraseDups

/-- The step of a name, the last one if several share it. -/
def step? (graph : StepGraph κ ρ) (name : String) : Option (Step κ ρ) :=
  graph.steps.reverse.find? fun step => step.name == name

def contains (graph : StepGraph κ ρ) (name : String) : Bool :=
  graph.names.contains name

def dependencies (graph : StepGraph κ ρ) (name : String) : List String :=
  (graph.edges.filter fun edge => edge.2 == name).map (·.1)

def dependents (graph : StepGraph κ ρ) (name : String) : List String :=
  (graph.edges.filter fun edge => edge.1 == name).map (·.2)

theorem mem_dependencies {graph : StepGraph κ ρ} {before after : String} :
    before ∈ graph.dependencies after ↔ (before, after) ∈ graph.edges := by
  simp [dependencies]

theorem mem_dependents {graph : StepGraph κ ρ} {before after : String} :
    after ∈ graph.dependents before ↔ (before, after) ∈ graph.edges := by
  simp [dependents]

end StepGraph

namespace Edge

def sort (edges : List Edge) : List Edge :=
  edges.mergeSort fun a b => decide (a.1 < b.1) || (a.1 == b.1 && decide (a.2 ≤ b.2))

end Edge

end BuildPipeline
