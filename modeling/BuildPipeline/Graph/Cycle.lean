import BuildPipeline.Graph.Basic

namespace BuildPipeline

/-- Looking for a cycle by depth-first search.  The path holds the steps being explored,
innermost first, each with the successors still to visit; a step whose successors are all
explored is finished. -/
structure Search where
  path : List (String × List String)
  finished : List String
deriving DecidableEq, Repr

namespace Search

def onPath (search : Search) (name : String) : Bool :=
  search.path.any fun entry => entry.1 == name

def cycleThrough (search : Search) (name : String) : List String :=
  (search.path.reverse.map (·.1)).dropWhile (· ≠ name) ++ [name]

inductive Move where
  | done
  | found (cycle : List String)
  | next (search : Search)

def move (successors : String → List String) (search : Search) : Move :=
  match search.path with
  | [] => .done
  | (name, []) :: outer => .next ⟨outer, name :: search.finished⟩
  | (name, successor :: rest) :: outer =>
      if search.onPath successor then .found (search.cycleThrough successor)
      else if successor ∈ search.finished then
        .next ⟨(name, rest) :: outer, search.finished⟩
      else
        .next ⟨(successor, successors successor) :: (name, rest) :: outer, search.finished⟩

inductive Outcome where
  | cycle (names : List String)
  | finished (names : List String)
deriving DecidableEq, Repr

def run (successors : String → List String) : Nat → Search → Outcome
  | 0, search => .finished search.finished
  | fuel + 1, search =>
      match search.move successors with
      | .done => .finished search.finished
      | .found cycle => .cycle cycle
      | .next search => run successors fuel search

def from? (successors : String → List String) (fuel : Nat) :
    List String → List String → Option (List String)
  | _, [] => none
  | finished, root :: roots =>
      if root ∈ finished then from? successors fuel finished roots
      else
        match run successors fuel ⟨[(root, successors root)], finished⟩ with
        | .cycle names => some names
        | .finished finished => from? successors fuel finished roots

end Search

/-- Every step enters and leaves the path at most once and every edge is looked at once,
which bounds the moves of a search. -/
def cycle? (names : List String) (edges : List Edge) : Option (List String) :=
  let sorted := Edge.sort edges
  let successors := fun name => (sorted.filter fun edge => edge.1 == name).map (·.2)
  Search.from? successors (2 * names.length + edges.length + 1) [] names

end BuildPipeline
