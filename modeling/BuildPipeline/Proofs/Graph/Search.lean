import BuildPipeline.Graph.Cycle
import Mathlib.Algebra.BigOperators.Group.Finset.Piecewise
import Mathlib.Algebra.GroupWithZero.Nat
import Mathlib.Algebra.Order.BigOperators.Group.Finset

namespace BuildPipeline

namespace Edge

def successors (edges : List Edge) (name : String) : List String :=
  ((sort edges).filter fun edge => edge.1 == name).map (·.2)

theorem mem_sort {edges : List Edge} {edge : Edge} : edge ∈ sort edges ↔ edge ∈ edges :=
  (List.mergeSort_perm _ _).mem_iff

theorem mem_successors {edges : List Edge} {before after : String} :
    after ∈ successors edges before ↔ (before, after) ∈ edges := by
  simp [successors, mem_sort]

theorem length_successors (edges : List Edge) (name : String) :
    (successors edges name).length = edges.countP fun edge => edge.1 == name := by
  rw [successors, List.length_map, ← List.countP_eq_length_filter, sort,
    (List.mergeSort_perm _ _).countP_eq]

/-- An edge starts at one step only, so the successors of several steps are no more than
the edges. -/
theorem sum_successors_le (edges : List Edge) (nodes : Finset String) :
    ∑ name ∈ nodes, (successors edges name).length ≤ edges.length := by
  simp only [length_successors]
  induction edges with
  | nil => simp
  | cons edge rest ih =>
      have here : ∑ name ∈ nodes, (if edge.1 == name then 1 else 0) ≤ 1 := by
        simp only [beq_iff_eq, Finset.sum_ite_eq]
        split <;> omega
      simp only [List.countP_cons, Finset.sum_add_distrib, List.length_cons]
      omega

end Edge

namespace Search

variable {successors : String → List String} {search next : Search}

/-- Where a search comes to when nothing bounds its moves. -/
inductive Ends (successors : String → List String) : Search → Outcome → Prop
  | done {search : Search} : search.move successors = .done →
      Ends successors search (.finished search.finished)
  | found {search : Search} {names : List String} : search.move successors = .found names →
      Ends successors search (.cycle names)
  | next {search next : Search} {outcome : Outcome} : search.move successors = .next next →
      Ends successors next outcome → Ends successors search outcome

inductive Goes (successors : String → List String) : Search → Search → Prop
  | leave (name : String) (outer : List (String × List String)) (finished : List String) :
      Goes successors ⟨(name, []) :: outer, finished⟩ ⟨outer, name :: finished⟩
  | pass (name successor : String) (rest : List String)
      (outer : List (String × List String))
      (finished : List String) : successor ∈ finished →
      Goes successors ⟨(name, successor :: rest) :: outer, finished⟩
        ⟨(name, rest) :: outer, finished⟩
  | enter (name successor : String) (rest : List String)
      (outer : List (String × List String))
      (finished : List String) : successor ∉ ((name, rest) :: outer).map (·.1) ++ finished →
      Goes successors ⟨(name, successor :: rest) :: outer, finished⟩
        ⟨(successor, successors successor) :: (name, rest) :: outer, finished⟩

theorem onPath_iff {name : String} : search.onPath name ↔ name ∈ search.path.map (·.1) := by
  simp [onPath]

theorem goes_of_move (moved : search.move successors = .next next) :
    Goes successors search next := by
  obtain ⟨path, finished⟩ := search
  unfold move at moved
  split at moved
  · cases moved
  · rename_i name outer atEnd
    cases atEnd
    cases moved
    exact .leave name outer finished
  · rename_i name successor rest outer atStep
    cases atStep
    split at moved
    · cases moved
    · rename_i free
      split at moved
      · rename_i known
        cases moved
        exact .pass name successor rest outer finished known
      · rename_i unknown
        cases moved
        refine .enter name successor rest outer finished ?_
        rw [onPath_iff] at free
        exact List.mem_append.not.mpr (not_or.mpr ⟨free, unknown⟩)

theorem done_of_move (moved : search.move successors = .done) : search.path = [] := by
  unfold move at moved
  split at moved
  · assumption
  · cases moved
  · split at moved
    · cases moved
    · split at moved <;> cases moved

theorem found_of_move {names : List String}
    (moved : search.move successors = .found names) :
    ∃ name successor rest outer, search.path = (name, successor :: rest) :: outer
      ∧ successor ∈ search.path.map (·.1) ∧ names = search.cycleThrough successor := by
  unfold move at moved
  split at moved
  · cases moved
  · cases moved
  · rename_i name successor rest outer atStep
    split at moved
    · rename_i known
      cases moved
      exact ⟨name, successor, rest, outer, atStep, onPath_iff.mp known, rfl⟩
    · split at moved <;> cases moved

structure Among (successors : String → List String) (nodes : Finset String)
    (search : Search) : Prop where
  closed : ∀ name ∈ nodes, ∀ successor ∈ successors name, successor ∈ nodes
  rests : ∀ entry ∈ search.path, ∀ successor ∈ entry.2, successor ∈ nodes

theorem Among.goes {nodes : Finset String} (among : Among successors nodes search)
    (goes : Goes successors search next) : Among successors nodes next := by
  obtain ⟨closed, rests⟩ := among
  cases goes with
  | leave name outer finished => exact ⟨closed, (List.forall_mem_cons.mp rests).2⟩
  | pass name successor rest outer finished known =>
      obtain ⟨here, later⟩ := List.forall_mem_cons.mp rests
      exact ⟨closed, List.forall_mem_cons.mpr ⟨(List.forall_mem_cons.mp here).2, later⟩⟩
  | enter name successor rest outer finished unknown =>
      obtain ⟨here, later⟩ := List.forall_mem_cons.mp rests
      obtain ⟨listed, here⟩ := List.forall_mem_cons.mp here
      exact ⟨closed, List.forall_mem_cons.mpr
        ⟨closed successor listed, List.forall_mem_cons.mpr ⟨here, later⟩⟩⟩

/-- What is left to do: leaving the steps on the path and looking at their remaining
successors, and the same for every node that has not been entered. -/
def fresh (nodes : Finset String) (search : Search) : Finset String :=
  nodes.filter fun name => name ∉ search.path.map (·.1) ++ search.finished

def weight (successors : String → List String) (nodes : Finset String) (search : Search) :
    Nat :=
  (search.path.map fun entry => entry.2.length + 1).sum
    + ∑ name ∈ search.fresh nodes, ((successors name).length + 1)

theorem weight_goes {nodes : Finset String} (among : Among successors nodes search)
    (goes : Goes successors search next) :
    next.weight successors nodes < search.weight successors nodes := by
  cases goes with
  | leave name outer finished =>
      have same : fresh nodes ⟨outer, name :: finished⟩
          = fresh nodes ⟨(name, []) :: outer, finished⟩ := by
        apply Finset.filter_congr
        intro other _
        simp [or_left_comm]
      rw [weight, weight, same]
      simp only [List.map_cons, List.sum_cons, List.length_nil]
      omega
  | pass name successor rest outer finished known =>
      have same : fresh nodes ⟨(name, rest) :: outer, finished⟩
          = fresh nodes ⟨(name, successor :: rest) :: outer, finished⟩ := rfl
      rw [weight, weight, same]
      simp only [List.map_cons, List.sum_cons, List.length_cons]
      omega
  | enter name successor rest outer finished unknown =>
      have listed : successor ∈ nodes :=
        among.rests _ List.mem_cons_self successor List.mem_cons_self
      -- The successor has not been entered before: its share in the sum pays for its
      -- list.
      have fewer : insert successor
            (fresh nodes
              ⟨(successor, successors successor) :: (name, rest) :: outer, finished⟩)
          ⊆ fresh nodes ⟨(name, successor :: rest) :: outer, finished⟩ := by
        intro other member
        rcases Finset.mem_insert.mp member with rfl | member
        · exact Finset.mem_filter.mpr ⟨listed, unknown⟩
        · obtain ⟨node, unentered⟩ := Finset.mem_filter.mp member
          exact Finset.mem_filter.mpr ⟨node, fun entered =>
            unentered (List.mem_cons_of_mem _ entered)⟩
      have entered : successor ∉
          fresh nodes ⟨(successor, successors successor) :: (name, rest) :: outer,
            finished⟩ := by
        simp [fresh]
      have total :=
        Finset.sum_le_sum_of_subset (f := fun name => (successors name).length + 1) fewer
      rw [Finset.sum_insert entered] at total
      rw [weight, weight]
      simp only [List.map_cons, List.sum_cons, List.length_cons]
      omega

theorem ends_run {nodes : Finset String} {fuel : Nat}
    (among : Among successors nodes search)
    (ample : search.weight successors nodes ≤ fuel) :
    Ends successors search (run successors fuel search) := by
  induction fuel generalizing search with
  | zero =>
      have empty : search.path = [] := by
        cases atPath : search.path with
        | nil => rfl
        | cons entry outer =>
            rw [weight, atPath, List.map_cons, List.sum_cons] at ample
            omega
      refine .done ?_
      rw [move, empty]
  | succ fuel ih =>
      rw [run]
      cases moved : search.move successors with
      | done => exact .done moved
      | found names => exact .found moved
      | next next =>
          have goes := goes_of_move moved
          have lower := weight_goes among goes
          exact .next moved (ih (among.goes goes) (by omega))

/-- On any edges, wherever a search stands, it ends. -/
theorem ends_always (edges : List Edge) (search : Search) :
    ∃ outcome, Ends (Edge.successors edges) search outcome := by
  let nodes : Finset String :=
    (edges.map (·.2) ++ search.path.flatMap fun entry => entry.2).toFinset
  have among : Among (Edge.successors edges) nodes search := by
    refine ⟨fun name _ successor edge => ?_, fun entry member successor listed => ?_⟩
    · have edge := Edge.mem_successors.mp edge
      exact List.mem_toFinset.mpr (List.mem_append_left _
        (List.mem_map.mpr ⟨(name, successor), edge, rfl⟩))
    · exact List.mem_toFinset.mpr (List.mem_append_right _
        (List.mem_flatMap.mpr ⟨entry, member, listed⟩))
  exact ⟨_, ends_run among le_rfl⟩

/-- What the search through all roots comes to, each root searched without a bound. -/
inductive Comes (successors : String → List String) :
    List String → List String → Option (List String) → Prop
  | nil {finished : List String} : Comes successors finished [] none
  | skip {finished roots : List String} {root : String} {cycle : Option (List String)} :
      root ∈ finished → Comes successors finished roots cycle →
      Comes successors finished (root :: roots) cycle
  | found {finished roots names : List String} {root : String} : root ∉ finished →
      Ends successors ⟨[(root, successors root)], finished⟩ (.cycle names) →
      Comes successors finished (root :: roots) (some names)
  | next {finished between roots : List String} {root : String}
      {cycle : Option (List String)} :
      root ∉ finished →
      Ends successors ⟨[(root, successors root)], finished⟩ (.finished between) →
      Comes successors between roots cycle →
      Comes successors finished (root :: roots) cycle

theorem weight_root {nodes : Finset String} {finished : List String} {root : String}
    (node : root ∈ nodes) (fresh : root ∉ finished) :
    weight successors nodes ⟨[(root, successors root)], finished⟩
      ≤ ∑ name ∈ nodes, ((successors name).length + 1) := by
  have entered : root ∉ Search.fresh nodes ⟨[(root, successors root)], finished⟩ := by
    simp [Search.fresh]
  have fewer : insert root (Search.fresh nodes ⟨[(root, successors root)], finished⟩) ⊆
      nodes := by
    intro name member
    rcases Finset.mem_insert.mp member with rfl | member
    · exact node
    · exact (Finset.mem_filter.mp member).1
  have total :=
    Finset.sum_le_sum_of_subset (f := fun name => (successors name).length + 1) fewer
  rw [Finset.sum_insert entered] at total
  simpa [weight] using total

theorem comes_from? (nodes : Finset String) {fuel : Nat} {finished roots : List String}
    (closed : ∀ name ∈ nodes, ∀ successor ∈ successors name, successor ∈ nodes)
    (ample : ∑ name ∈ nodes, ((successors name).length + 1) ≤ fuel)
    (listed : ∀ root ∈ roots, root ∈ nodes) :
    Comes successors finished roots (from? successors fuel finished roots) := by
  induction roots generalizing finished with
  | nil => exact .nil
  | cons root roots ih =>
      obtain ⟨node, listed⟩ := List.forall_mem_cons.mp listed
      rw [from?]
      split
      · rename_i known
        exact .skip known (ih listed)
      · rename_i fresh
        have among : Among successors nodes ⟨[(root, successors root)], finished⟩ :=
          ⟨closed, fun entry member => by
            cases List.mem_singleton.mp member
            exact closed root node⟩
        have ends := ends_run among ((weight_root node fresh).trans ample)
        cases atEnd : run successors fuel ⟨[(root, successors root)], finished⟩ with
        | cycle names =>
            rw [atEnd] at ends
            exact .found fresh ends
        | finished between =>
            rw [atEnd] at ends
            exact .next fresh ends (ih listed)

end Search

theorem comes_cycle? {names : List String} {edges : List Edge}
    (ends : ∀ edge ∈ edges, edge.2 ∈ names) :
    Search.Comes (Edge.successors edges) [] names (cycle? names edges) := by
  refine Search.comes_from? names.toFinset (fun name _ successor edge => ?_) ?_ (by simp)
  · exact List.mem_toFinset.mpr (ends _ (Edge.mem_successors.mp edge))
  · have total := Edge.sum_successors_le edges names.toFinset
    have distinct := List.toFinset_card_le names
    rw [Finset.sum_add_distrib, ← Finset.card_eq_sum_ones]
    omega

end BuildPipeline
