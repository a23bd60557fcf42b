import BuildPipeline.Proofs.Graph.Order
import BuildPipeline.Proofs.Graph.Waiting

namespace BuildPipeline.StepGraph

variable {κ ρ : Type} {graph : StepGraph κ ρ}

theorem idxOf_lt_of_precedes (wellFormed : graph.WellFormed) {before after : String}
    (edge : graph.Precedes before after) (ordered : after ∈ graph.order) :
    graph.order.idxOf before < graph.order.idxOf after := by
  obtain ⟨earlier, later, split⟩ := List.append_of_mem ordered
  have first :=
    dependencies_before wellFormed split before (mem_dependencies_iff_precedes.mpr edge)
  have fresh : after ∉ earlier := by
    have nodup := order_nodup wellFormed
    rw [split] at nodup
    exact fun member => (List.nodup_append.mp nodup).2.2 _ member _ List.mem_cons_self rfl
  rw [split, List.idxOf_append_of_mem first, List.idxOf_append_of_notMem fresh]
  exact Nat.lt_add_right _ (List.idxOf_lt_length_of_mem first)

theorem acyclic_of_whole (wellFormed : graph.WellFormed)
    (whole : ∀ name ∈ graph.names, name ∈ graph.order) : graph.Acyclic :=
  acyclic_of_rank graph.order.idxOf fun _ edge =>
    idxOf_lt_of_precedes wellFormed edge (whole _ (wellFormed.after_mem edge))

theorem orderedSteps_perm_iff (wellFormed : graph.WellFormed) :
    graph.orderedSteps.Perm graph.steps ↔ ∀ name ∈ graph.names, name ∈ graph.order := by
  constructor
  · intro perm name member
    rw [← names_orderedSteps wellFormed]
    exact (perm.map _).mem_iff.mpr member
  · intro whole
    refine (List.perm_ext_iff_of_nodup (orderedSteps_nodup wellFormed).of_map
      wellFormed.names_nodup.of_map).mpr fun step => ?_
    rw [mem_orderedSteps_iff wellFormed]
    exact ⟨And.left, fun member => ⟨member, whole _ (List.mem_map_of_mem member)⟩⟩

/-- The order lists no step twice, and none before all that it depends on; and it lists
all steps exactly if the search for a cycle finds none. -/
theorem ordered_iff_uncycled (wellFormed : graph.WellFormed) :
    graph.orderedSteps.Nodup
      ∧ (∀ step ∈ graph.orderedSteps, step ∈ graph.steps)
      ∧ (∀ before step after, graph.orderedSteps = before ++ step :: after →
          ∀ dependency ∈ graph.dependencies step.name,
            ∃ earlier ∈ before, earlier.name = dependency)
      ∧ (graph.orderedSteps.Perm graph.steps ↔ cycle? graph.names graph.edges = none) := by
  refine ⟨(orderedSteps_nodup wellFormed).of_map,
    fun step ordered => ((mem_orderedSteps_iff wellFormed).mp ordered).1, ?_, ?_⟩
  · intro before step after split dependency needed
    have names := names_orderedSteps wellFormed
    rw [split, List.map_append, List.map_cons] at names
    exact List.mem_map.mp (dependencies_before wellFormed names.symm dependency needed)
  · rw [← acyclic_iff_cycle? (fun _ edge => wellFormed.before_mem edge)
      (fun _ edge => wellFormed.after_mem edge), orderedSteps_perm_iff wellFormed]
    exact ⟨acyclic_of_whole wellFormed, fun acyclic _ =>
      mem_order_of_acyclic wellFormed acyclic⟩

def entangled : StepGraph Unit Unit where
  steps := ["src", "cli", "api"].map fun name => { name, work := () }
  edges := [("api", "cli"), ("cli", "api"), ("src", "cli")]

theorem entangled_ordered :
    entangled.WellFormed
      ∧ cycle? entangled.names entangled.edges = some ["cli", "api", "cli"]
      ∧ entangled.orderedSteps.Nodup
      ∧ ¬ entangled.orderedSteps.Perm entangled.steps := by
  have wellFormed : entangled.WellFormed := by decide
  have cycle : cycle? entangled.names entangled.edges = some ["cli", "api", "cli"] := by
    rw [cycle?_of_sorted (by decide)]
    rfl
  obtain ⟨nodup, -, -, whole⟩ := ordered_iff_uncycled wellFormed
  refine ⟨wellFormed, cycle, nodup, fun perm => ?_⟩
  rw [whole.mp perm] at cycle
  exact nomatch cycle

end BuildPipeline.StepGraph
