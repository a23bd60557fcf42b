import BuildPipeline.Graph.Basic

namespace BuildPipeline

variable {κ ρ : Type}

/-- Emitting names in dependency order.  `pending` counts the dependencies of each step
that are not emitted yet; a step joins the queue when its count drops to zero. -/
structure Emission where
  queue : List String
  pending : List (String × Int)
  emitted : List String
deriving DecidableEq, Repr

namespace Emission

def count (pending : List (String × Int)) (name : String) : Int :=
  ((pending.find? fun entry => entry.1 == name).map (·.2)).getD 0

def lower (pending : List (String × Int)) (name : String) : List (String × Int) :=
  pending.map fun entry => if entry.1 == name then (entry.1, entry.2 - 1) else entry

def release (emission : Emission) (child : String) : Emission :=
  let pending := lower emission.pending child
  { emission with
    pending
    queue := if count pending child = 0 then emission.queue ++ [child] else emission.queue }

def advance (children : String → List String) (emission : Emission) : Emission :=
  match emission.queue with
  | [] => emission
  | name :: rest =>
      (children name).foldl release
        { emission with queue := rest, emitted := emission.emitted ++ [name] }

def run (children : String → List String) : Nat → Emission → Emission
  | 0, emission => emission
  | fuel + 1, emission =>
      if emission.queue.isEmpty then emission
      else run children fuel (emission.advance children)

end Emission

namespace StepGraph

/-- The place of a name, the last one if several steps share it. -/
def position (graph : StepGraph κ ρ) (name : String) : Nat :=
  graph.steps.length - graph.names.reverse.idxOf name

def children (graph : StepGraph κ ρ) (name : String) : List String :=
  (graph.dependents name).mergeSort fun a b => graph.position a ≤ graph.position b

def initialEmission (graph : StepGraph κ ρ) : Emission :=
  let pending := graph.distinctNames.map fun name =>
    (name, Int.ofNat (graph.dependencies name).length)
  { queue := graph.names.filter fun name => Emission.count pending name = 0
    pending
    emitted := [] }

/-- Names in an order that respects every edge, first come first served: a step enters the
queue at the start or when its last dependency is emitted, which bounds the emissions. -/
def order (graph : StepGraph κ ρ) : List String :=
  (Emission.run graph.children (2 * graph.steps.length) graph.initialEmission).emitted

def orderedSteps (graph : StepGraph κ ρ) : List (Step κ ρ) :=
  graph.order.filterMap graph.step?

end StepGraph

end BuildPipeline
