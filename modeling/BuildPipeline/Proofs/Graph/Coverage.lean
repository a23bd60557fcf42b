import BuildPipeline.Proofs.Graph.Order

namespace BuildPipeline

variable {κ ρ : Type}

namespace Emission

open StepGraph

variable {graph : StepGraph κ ρ} {emission : Emission}

/-- How often the dependencies of a name were emitted. -/
def met (graph : StepGraph κ ρ) (emitted : List String) (name : String) : Nat :=
  emitted.countP (· ∈ graph.dependencies name)

theorem met_snoc (emitted : List String) (next name : String) :
    met graph (emitted ++ [next]) name
      = met graph emitted name + if name ∈ graph.children next then 1 else 0 := by
  simp [met, List.countP_append, List.countP_singleton, mem_children]

/-- How often a name is emitted or queued: as often as it stands in the graph if it has no
dependencies, and otherwise once, from when its count has come down to zero. -/
def due (graph : StepGraph κ ρ) (emitted : List String) (name : String) : Nat :=
  if graph.dependencies name = [] then graph.names.count name
  else if (graph.dependencies name).length ≤ met graph emitted name then 1 else 0

structure Covers (graph : StepGraph κ ρ) (emission : Emission) : Prop where
  listed : ∀ name ∈ emission.emitted ++ emission.queue, name ∈ graph.names
  keys : ∀ name ∈ graph.names, name ∈ emission.pending.map (·.1)
  count_eq : ∀ name ∈ graph.names, count emission.pending name
    = (graph.dependencies name).length - (met graph emission.emitted name : Int)
  occurs : ∀ name ∈ graph.names,
    (emission.emitted ++ emission.queue).count name = due graph emission.emitted name

theorem Covers.initial (graph : StepGraph κ ρ) : Covers graph graph.initialEmission := by
  have known : ∀ name ∈ graph.names, name ∈ graph.distinctNames := fun name member =>
    List.mem_eraseDups.mpr member
  have counts : ∀ name ∈ graph.names,
      count graph.initialEmission.pending name = (graph.dependencies name).length :=
    fun name member =>
      count_map (fun name => Int.ofNat (graph.dependencies name).length) (known name member)
  refine
    { listed := fun name queued => (List.mem_filter.mp queued).1
      keys := fun name member => ?_
      count_eq := fun name member => ?_
      occurs := fun name member => ?_ }
  · simpa [initialEmission, Function.comp_def] using known name member
  · rw [counts name member]
    simp [met, initialEmission]
  · have queue : graph.initialEmission.emitted ++ graph.initialEmission.queue
        = graph.names.filter fun name => count graph.initialEmission.pending name = 0 := rfl
    rw [queue, due]
    split
    · rename_i free
      exact List.count_filter (by simp [counts name member, free])
    · rename_i bound
      have later : name ∉ graph.names.filter fun name =>
          count graph.initialEmission.pending name = 0 := by
        simp [counts name member, bound]
      rw [List.count_eq_zero_of_not_mem later, if_neg]
      simpa [met, initialEmission] using bound

theorem due_snoc (anchored : graph.Anchored) {emitted : List String}
    {pending : List (String × Int)} (next : String) {name : String}
    (counted : count pending name
      = (graph.dependencies name).length - (met graph emitted name : Int)) :
    due graph (emitted ++ [next]) name
      = due graph emitted name
        + ((graph.children next).filter fun child => count pending child = 1).count
          name := by
  rw [((children_nodup anchored next).filter _).count]
  simp only [List.mem_filter, decide_eq_true_eq, due, met_snoc, counted]
  by_cases child : name ∈ graph.children next
  · have bound : graph.dependencies name ≠ [] := List.ne_nil_of_mem (mem_children.mp child)
    simp only [child, true_and, if_true, if_neg bound]
    split <;> split <;> split <;> omega
  · simp only [child, false_and, if_false, Nat.add_zero]

theorem Covers.advance (anchored : graph.Anchored) (covers : Covers graph emission) :
    Covers graph (emission.advance graph.children) := by
  cases hqueue : emission.queue with
  | nil => simpa [Emission.advance, hqueue] using covers
  | cons next rest =>
      have listed := covers.listed
      have occurs := covers.occurs
      rw [hqueue] at listed occurs
      have recorded : ∀ child ∈ graph.children next, child ∈ emission.pending.map (·.1) :=
        fun child member => covers.keys child (mem_names_of_mem_children anchored member)
      obtain ⟨emitted, queued⟩ := advance_eq anchored hqueue recorded
      have regrouped : ∀ released, emission.emitted ++ [next] ++ (rest ++ released) =
          (emission.emitted ++ next :: rest) ++ released := by simp
      refine
        { listed := fun name member => ?_
          keys := fun name member => ?_
          count_eq := fun name member => ?_
          occurs := fun name member => ?_ }
      · rw [emitted, queued, regrouped, List.mem_append] at member
        rcases member with old | released
        · exact listed name old
        · exact mem_names_of_mem_children anchored (List.mem_filter.mp released).1
      · rw [advance_cons _ hqueue, keys_foldl_release]
        exact covers.keys name member
      · have counts := count_foldl_release (children_nodup anchored next)
          { emission with queue := rest, emitted := emission.emitted ++ [next] }
          (covers.keys name member)
        rw [emitted, advance_cons _ hqueue, counts, covers.count_eq name member, met_snoc]
        split <;> push_cast <;> omega
      · rw [emitted, queued, regrouped, List.count_append, occurs name member,
          due_snoc anchored next (covers.count_eq name member)]

theorem due_le (graph : StepGraph κ ρ) (emitted : List String) {name : String}
    (member : name ∈ graph.names) : due graph emitted name ≤ graph.names.count name := by
  have := List.count_pos_iff.mpr member
  unfold due
  split
  · exact le_rfl
  · split <;> omega

theorem Covers.length_le (covers : Covers graph emission) :
    emission.emitted.length + emission.queue.length ≤ graph.names.length := by
  rw [← List.length_append]
  refine (List.subperm_ext_iff.mpr fun name member => ?_).length_le
  have listed := covers.listed name member
  rw [covers.occurs name listed]
  exact due_le graph emission.emitted listed

theorem Covers.run (anchored : graph.Anchored) (fuel : Nat) {emission : Emission}
    (covers : Covers graph emission)
    (enough : graph.names.length ≤ emission.emitted.length + fuel) :
    Covers graph (Emission.run graph.children fuel emission)
      ∧ (Emission.run graph.children fuel emission).queue = [] := by
  induction fuel generalizing emission with
  | zero =>
      have := covers.length_le
      have idle : emission.queue = [] := List.eq_nil_of_length_eq_zero (by omega)
      exact ⟨covers, idle⟩
  | succ fuel ih =>
      rw [Emission.run]
      split
      · rename_i idle
        exact ⟨covers, List.isEmpty_iff.mp idle⟩
      · rename_i busy
        have waiting : emission.queue ≠ [] := by simpa using busy
        have longer := length_emitted_advance graph.children waiting
        exact ih (covers.advance anchored) (by omega)

end Emission

namespace StepGraph

open Emission

variable {graph : StepGraph κ ρ} {name : String}

theorem covers_order (anchored : graph.Anchored) :
    ∃ emission : Emission,
      Covers graph emission ∧ emission.queue = [] ∧ emission.emitted = graph.order := by
  obtain ⟨covers, idle⟩ := (Covers.initial graph).run anchored (2 * graph.steps.length)
    (by simp [names, initialEmission]; omega)
  exact ⟨_, covers, idle, rfl⟩

theorem mem_names_of_mem_order (anchored : graph.Anchored) (ordered : name ∈ graph.order) :
    name ∈ graph.names := by
  obtain ⟨emission, covers, idle, emitted⟩ := covers_order anchored
  refine covers.listed name ?_
  rwa [idle, List.append_nil, emitted]

theorem mem_order_of_dependencies (anchored : graph.Anchored) (member : name ∈ graph.names)
    (before : ∀ dependency ∈ graph.dependencies name, dependency ∈ graph.order) :
    name ∈ graph.order := by
  obtain ⟨emission, covers, idle, emitted⟩ := covers_order anchored
  have occurs := covers.occurs name member
  rw [idle, List.append_nil, emitted] at occurs
  rw [← List.count_pos_iff, occurs, due]
  split
  · exact List.count_pos_iff.mpr member
  · have all_met : (graph.dependencies name).length ≤ met graph graph.order name := by
      rw [met, List.countP_eq_length_filter]
      refine (List.subperm_of_subset (dependencies_nodup anchored name) ?_).length_le
      exact fun dependency listed =>
        List.mem_filter.mpr ⟨before dependency listed, by simpa using listed⟩
    rw [if_pos all_met]
    exact Nat.one_pos

/-- In a graph without cycles no name is left out of the order, whether or not steps share
names. -/
theorem mem_order_of_anchored (anchored : graph.Anchored) (acyclic : graph.Acyclic)
    (member : name ∈ graph.names) : name ∈ graph.order := by
  induction name using acyclic.wellFounded.induction with
  | _ name ih =>
      refine mem_order_of_dependencies anchored member fun dependency listed => ?_
      have edge := mem_dependencies.mp listed
      exact ih dependency edge (anchored.before_mem edge)

theorem name_step? {step : Step κ ρ} (found : graph.step? name = some step) :
    step.name = name := by
  simpa using List.find?_some found

theorem mem_orderedSteps_name (anchored : graph.Anchored) {step : Step κ ρ}
    (ordered : step ∈ graph.orderedSteps) : step.name ∈ graph.names := by
  obtain ⟨name, listed, found⟩ := List.mem_filterMap.mp ordered
  rw [name_step? found]
  exact mem_names_of_mem_order anchored listed

theorem exists_orderedStep (anchored : graph.Anchored) (acyclic : graph.Acyclic)
    (member : name ∈ graph.names) : ∃ step ∈ graph.orderedSteps, step.name = name := by
  obtain ⟨owner, listed, same⟩ := List.mem_map.mp member
  have found : (graph.step? name).isSome = true := by
    rw [step?, List.find?_isSome]
    exact ⟨owner, List.mem_reverse.mpr listed, by simpa using same⟩
  obtain ⟨step, found⟩ := Option.isSome_iff_exists.mp found
  exact ⟨step, List.mem_filterMap.mpr
    ⟨name, mem_order_of_anchored anchored acyclic member, found⟩, name_step? found⟩

end StepGraph

end BuildPipeline
