import BuildPipeline.Graph.Cycle

namespace BuildPipeline

variable {κ ρ : Type}

abbrev Producers (κ ρ : Type) := List (Link × Step κ ρ)

namespace Producers

def get? (producers : Producers κ ρ) (link : Link) : Option (Step κ ρ) :=
  (producers.find? fun entry => entry.1 == link).map (·.2)

def has (producers : Producers κ ρ) (link : Link) : Bool :=
  producers.any fun entry => entry.1 == link

/-- A step claims the links it creates; another step may not have claimed one of them
before.  The entries of a list are distinct steps, however alike they are: a step listed
twice is two of them. -/
def claim (producers : Producers κ ρ) (step : Step κ ρ) : Except Failure (Producers κ ρ) :=
  match step.creates.findSome? fun link =>
      (producers.get? link).map fun other => (link, other) with
  | some (link, other) => .error (.duplicateProvider link.text other.name step.name)
  | none => .ok (producers ++ step.creates.map fun link => (link, step))

def ofSteps (steps : List (Step κ ρ)) : Except Failure (Producers κ ρ) :=
  steps.foldlM claim []

end Producers

/-- The steps taken into the graph so far, the producers of their links, and the steps
whose requirements are still to be looked at. -/
structure Closure (κ ρ : Type) where
  steps : List (Step κ ρ)
  producers : Producers κ ρ
  queue : List (Step κ ρ)

namespace Closure

def demand (implicit : Producers κ ρ) (step : Step κ ρ) (closure : Closure κ ρ)
    (link : Link) :
    Except Failure (Closure κ ρ) :=
  if link.isWildcard || closure.producers.has link then .ok closure
  else
    match implicit.get? link with
    | none => .error (.unsatisfiable step.name link.text)
    | some candidate => do
        let producers ← closure.producers.claim candidate
        return ⟨closure.steps ++ [candidate], producers, closure.queue ++ [candidate]⟩

def advance (implicit : Producers κ ρ) (closure : Closure κ ρ) :
    Except Failure (Closure κ ρ) :=
  match closure.queue with
  | [] => .ok closure
  | step :: rest =>
      step.requires.foldlM (demand implicit step) { closure with queue := rest }

def run (implicit : Producers κ ρ) : Nat → Closure κ ρ → Except Failure (Closure κ ρ)
  | 0, closure => .ok closure
  | fuel + 1, closure =>
      if closure.queue.isEmpty then .ok closure
      else do
        let closure ← closure.advance implicit
        run implicit fuel closure

end Closure

namespace StepGraph

def checkNames : List String → List (Step κ ρ) → Except Failure Unit
  | _, [] => .ok ()
  | seen, step :: rest =>
      if step.name ∈ seen then
        .error (.duplicateProvider ("step name " ++ Text.quoted step.name)
          step.name step.name)
      else checkNames (step.name :: seen) rest

/-- A step runs after the producer of each link it requires.  A wildcard stands for every
step that does not itself wait for all. -/
def edgesOf (steps : List (Step κ ρ)) (producers : Producers κ ρ) (step : Step κ ρ) :
    List Edge :=
  let waiting := (steps.filter Step.waitsForAll).map (·.name)
  step.requires.flatMap fun link =>
    if link.isWildcard then
      (steps.filter fun other => !waiting.contains other.name).map fun other =>
        (other.name, step.name)
    else
      match producers.get? link with
      | some producer => [(producer.name, step.name)]
      | none => []

def edgesAmong (steps : List (Step κ ρ)) (producers : Producers κ ρ) : List Edge :=
  (steps.flatMap (edgesOf steps producers)).eraseDups

/-- The steps that `requested` needs: each implicit step can enter once, which bounds the
closure. -/
def close (requested implicit : List (Step κ ρ)) : Except Failure (Closure κ ρ) := do
  checkNames [] requested
  let producers ← Producers.ofSteps requested
  let names := requested.map (·.name)
  let optional ← Producers.ofSteps (implicit.filter fun step => !names.contains step.name)
  Closure.run optional (requested.length + implicit.length)
    ⟨requested, producers, requested⟩

def build (requested implicit : List (Step κ ρ)) : Except Failure (StepGraph κ ρ) := do
  let closure ← close requested implicit
  let graph : StepGraph κ ρ :=
    { steps := closure.steps, edges := edgesAmong closure.steps closure.producers }
  match cycle? graph.names graph.edges with
  | some names => throw (.cyclic names)
  | none => return graph

end StepGraph

end BuildPipeline
