import BuildPipeline.Graph.Basic
import Mathlib.Data.Set.Finite.List
import Mathlib.Logic.Relation
import Mathlib.Order.WellFoundedSet

namespace BuildPipeline.StepGraph

variable {κ ρ : Type}

/-- What every graph of steps keeps to: names are distinct, edges form a set, and both
ends of an edge are steps of the graph. -/
structure WellFormed (graph : StepGraph κ ρ) : Prop where
  names_nodup : graph.names.Nodup
  edges_nodup : graph.edges.Nodup
  before_mem : ∀ {before after}, (before, after) ∈ graph.edges → before ∈ graph.names
  after_mem : ∀ {before after}, (before, after) ∈ graph.edges → after ∈ graph.names

instance (graph : StepGraph κ ρ) : Decidable graph.WellFormed :=
  decidable_of_iff
    (graph.names.Nodup ∧ graph.edges.Nodup
      ∧ ∀ edge ∈ graph.edges, edge.1 ∈ graph.names ∧ edge.2 ∈ graph.names)
    ⟨fun h =>
      ⟨h.1, h.2.1, fun member => (h.2.2 _ member).1, fun member => (h.2.2 _ member).2⟩,
      fun h => ⟨h.names_nodup, h.edges_nodup, fun _ member =>
        ⟨h.before_mem member, h.after_mem member⟩⟩⟩

/-- Steps may share a name; then they share the edges of that name as well. -/
structure Anchored (graph : StepGraph κ ρ) : Prop where
  edges_nodup : graph.edges.Nodup
  before_mem : ∀ {before after}, (before, after) ∈ graph.edges → before ∈ graph.names
  after_mem : ∀ {before after}, (before, after) ∈ graph.edges → after ∈ graph.names

theorem WellFormed.anchored {graph : StepGraph κ ρ} (wellFormed : graph.WellFormed) :
    graph.Anchored :=
  { wellFormed with }

def Precedes (graph : StepGraph κ ρ) (before after : String) : Prop :=
  (before, after) ∈ graph.edges

/-- No step comes before itself, however many edges lead back to it. -/
def Acyclic (graph : StepGraph κ ρ) : Prop :=
  ∀ name, ¬ Relation.TransGen graph.Precedes name name

theorem acyclic_of_rank {graph : StepGraph κ ρ} (rank : String → Nat)
    (climbs : ∀ edge ∈ graph.edges, rank edge.1 < rank edge.2) : graph.Acyclic := by
  have along : ∀ {before after}, Relation.TransGen graph.Precedes before after →
      rank before < rank after := by
    intro before after path
    induction path with
    | single edge => exact climbs _ edge
    | tail _ edge ih => exact ih.trans (climbs _ edge)
  exact fun name path => lt_irrefl _ (along path)

theorem acyclic_of_sink {graph grown : StepGraph κ ρ} {sink : String}
    (acyclic : graph.Acyclic) (last : ∀ after, ¬ grown.Precedes sink after)
    (among : ∀ {before after}, after ≠ sink → grown.Precedes before after →
      graph.Precedes before after) : grown.Acyclic := by
  have along :
      ∀ {before after}, Relation.TransGen grown.Precedes before after → after ≠ sink →
      Relation.TransGen graph.Precedes before after := by
    intro before after path
    induction path with
    | single edge => exact fun inner => .single (among inner edge)
    | tail _ edge ih =>
        intro inner
        refine .tail (ih ?_) (among inner edge)
        rintro rfl
        exact last _ edge
  intro name around
  refine acyclic name (along around ?_)
  rintro rfl
  obtain ⟨_, edge, _⟩ := Relation.TransGen.head'_iff.mp around
  exact last _ edge

theorem mem_dependencies_iff_precedes {graph : StepGraph κ ρ} {before after : String} :
    before ∈ graph.dependencies after ↔ graph.Precedes before after :=
  mem_dependencies

/-- Only finitely many steps stand on an edge, so a descent along edges that never ends
would come back to a step it has left. -/
theorem Acyclic.wellFounded {graph : StepGraph κ ρ} (acyclic : graph.Acyclic) :
    WellFounded graph.Precedes := by
  have order : IsStrictOrder String (Relation.TransGen graph.Precedes) :=
    { irrefl := acyclic
      trans := fun _ _ _ => Relation.TransGen.trans }
  let ends := graph.edges.map (·.1) ++ graph.edges.map (·.2)
  have grounded :=
    (List.finite_toSet ends).wellFoundedOn (r := Relation.TransGen graph.Precedes)
  rw [Set.wellFoundedOn_iff] at grounded
  refine Subrelation.wf (fun {before after} edge => ?_) grounded
  refine ⟨Relation.TransGen.single edge, ?_, ?_⟩
  · exact List.mem_append_left _ (List.mem_map.mpr ⟨(before, after), edge, rfl⟩)
  · exact List.mem_append_right _ (List.mem_map.mpr ⟨(before, after), edge, rfl⟩)

end BuildPipeline.StepGraph
