import BuildPipeline.Proofs.Graph.Agreement
import Mathlib.Order.ConditionallyCompleteLattice.Finset

namespace BuildPipeline

variable {κ ρ : Type}

namespace StepGraph

variable {graph : StepGraph κ ρ} {chain : List String} {last name : String}

/-- A chain that ends in a step: the steps before it, each a dependency of the next. -/
def Chain (graph : StepGraph κ ρ) (chain : List String) (name : String) : Prop :=
  (chain ++ [name]).IsChain graph.Precedes

theorem chain_nil (graph : StepGraph κ ρ) (name : String) : graph.Chain [] name :=
  List.isChain_singleton name

theorem chain_snoc :
    graph.Chain (chain ++ [last]) name ↔ graph.Chain chain last
      ∧ graph.Precedes last name := by
  unfold Chain
  rw [List.append_assoc, List.singleton_append, List.isChain_append_cons_cons]
  simp

def chainLengths (graph : StepGraph κ ρ) (name : String) : Set Nat :=
  { length | ∃ chain, graph.Chain chain name ∧ chain.length = length }

noncomputable def depth (graph : StepGraph κ ρ) (name : String) : Nat :=
  sSup (graph.chainLengths name)

/-- A chain climbs in the order, so it is no longer than the way to where it ends. -/
theorem Chain.length_le (wellFormed : graph.WellFormed) (acyclic : graph.Acyclic)
    (chained : graph.Chain chain name) : chain.length ≤ graph.order.idxOf name := by
  induction chain using List.reverseRecOn generalizing name with
  | nil => exact Nat.zero_le _
  | append_singleton earlier last ih =>
      obtain ⟨chained, edge⟩ := chain_snoc.mp chained
      have ordered := mem_order_of_acyclic wellFormed acyclic (wellFormed.after_mem edge)
      rw [List.length_append, List.length_singleton]
      exact (ih chained).trans_lt (idxOf_lt_of_precedes wellFormed edge ordered)

theorem isGreatest_depth (wellFormed : graph.WellFormed) (acyclic : graph.Acyclic)
    (name : String) : IsGreatest (graph.chainLengths name) (graph.depth name) := by
  have bounded : BddAbove (graph.chainLengths name) := by
    refine ⟨graph.order.idxOf name, ?_⟩
    rintro length ⟨chain, chained, rfl⟩
    exact chained.length_le wellFormed acyclic
  exact ⟨Nat.sSup_mem ⟨0, [], chain_nil graph name, rfl⟩ bounded, fun _ => le_csSup bounded⟩

theorem depth_lt_of_precedes (wellFormed : graph.WellFormed) (acyclic : graph.Acyclic)
    {before after : String} (edge : graph.Precedes before after) :
    graph.depth before < graph.depth after := by
  obtain ⟨chain, chained, longest⟩ := (isGreatest_depth wellFormed acyclic before).1
  have extended : graph.Chain (chain ++ [before]) after := chain_snoc.mpr ⟨chained, edge⟩
  have bound := (isGreatest_depth wellFormed acyclic after).2 ⟨_, extended, rfl⟩
  rw [List.length_append, longest] at bound
  exact bound

theorem depth_cases (wellFormed : graph.WellFormed) (acyclic : graph.Acyclic)
    (name : String) :
    graph.dependencies name = [] ∧ graph.depth name = 0
      ∨ ∃ before ∈ graph.dependencies name, graph.depth name = graph.depth before + 1 := by
  obtain ⟨chain, chained, longest⟩ := (isGreatest_depth wellFormed acyclic name).1
  rcases List.eq_nil_or_concat chain with rfl | ⟨earlier, last, rfl⟩
  · refine Or.inl ⟨List.eq_nil_iff_forall_not_mem.mpr fun before member => ?_, longest.symm⟩
    have deeper :=
      depth_lt_of_precedes wellFormed acyclic (mem_dependencies_iff_precedes.mp member)
    rw [← longest] at deeper
    exact absurd deeper (Nat.not_lt_zero _)
  · rw [List.concat_eq_append] at chained longest
    obtain ⟨chained, edge⟩ := chain_snoc.mp chained
    refine Or.inr ⟨last, mem_dependencies_iff_precedes.mpr edge, ?_⟩
    have deeper := depth_lt_of_precedes wellFormed acyclic edge
    have deep := (isGreatest_depth wellFormed acyclic last).2 ⟨earlier, chained, rfl⟩
    rw [List.length_append, List.length_singleton] at longest
    omega

theorem sublist_pair_of_lt {names : List String} {place : String → Nat}
    (sorted : names.Pairwise fun one other => place one ≤ place other) {one other : String}
    (first : one ∈ names) (second : other ∈ names) (before : place one < place other) :
    [one, other].Sublist names := by
  obtain ⟨front, back, rfl⟩ := List.append_of_mem second
  have behind : one ∉ other :: back := by
    intro member
    rcases List.mem_cons.mp member with rfl | member
    · exact lt_irrefl _ before
    · have later := List.rel_of_pairwise_cons (List.pairwise_append.mp sorted).2.1 member
      omega
  have ahead := (List.mem_append.mp first).resolve_right behind
  exact (List.singleton_sublist.mpr ahead).append
    (List.singleton_sublist.mpr List.mem_cons_self)

theorem position_lt_of_sublist (nodup : graph.names.Nodup) {one other : String}
    (declared : [one, other].Sublist graph.names) :
    graph.position one < graph.position other := by
  obtain ⟨front, back, split, ahead, behind⟩ := List.cons_sublist_iff.mp declared
  rw [split] at nodup
  have behind : other ∈ back.reverse :=
    List.mem_reverse.mpr (List.singleton_sublist.mp behind)
  have apart : one ∉ back.reverse := fun member =>
    List.disjoint_of_nodup_append nodup ahead (List.mem_reverse.mp member)
  have near := List.idxOf_lt_length_of_mem behind
  have count : graph.steps.length = front.length + back.length := by
    rw [← List.length_append, ← split, names, List.length_map]
  unfold position
  rw [split, List.reverse_append, List.idxOf_append_of_mem behind,
    List.idxOf_append_of_notMem apart]
  rw [List.length_reverse] at near ⊢
  omega

theorem children_sorted (graph : StepGraph κ ρ) (name : String) :
    (graph.children name).Pairwise fun one other =>
      graph.position one ≤ graph.position other := by
  refine (@List.pairwise_mergeSort _
    (fun one other => graph.position one ≤ graph.position other)
    (fun _ _ _ => ?_) (fun _ _ => ?_) (graph.dependents name)).imp of_decide_eq_true
  · simpa using le_trans
  · simpa using le_total _ _

end StepGraph

namespace Emission

open StepGraph

variable {graph : StepGraph κ ρ} {emission : Emission} {next : String}
  {rest released : List String}

/-- What first come, first served keeps: what is emitted and queued goes down layer by
layer, no two names of the queue are more than one layer apart, and of two names with the
same dependencies the one that is declared first comes first. -/
structure Layered (graph : StepGraph κ ρ) (emission : Emission) : Prop where
  sinks : (emission.emitted ++ emission.queue).Pairwise fun one other =>
    graph.depth one ≤ graph.depth other
  narrow : ∀ one ∈ emission.queue, ∀ other ∈ emission.queue,
    graph.depth one ≤ graph.depth other + 1
  declared : ∀ one other, [one, other].Sublist graph.names →
    (∀ dependency, dependency ∈ graph.dependencies one
      ↔ dependency ∈ graph.dependencies other) →
    one ∈ emission.emitted ++ emission.queue →
    [one, other].Sublist (emission.emitted ++ emission.queue)

theorem Sound.mem_of_alike (sound : Sound graph emission) {one other : String}
    (alike : ∀ dependency,
      dependency ∈ graph.dependencies one ↔ dependency ∈ graph.dependencies other)
    (listed : other ∈ graph.names) (free : one ∈ emission.emitted ++ emission.queue) :
    other ∈ emission.emitted ++ emission.queue :=
  (sound.mem_iff other).mpr ⟨listed, fun dependency waits =>
    ((sound.mem_iff one).mp free).2 dependency ((alike dependency).mpr waits)⟩

theorem Layered.initial (wellFormed : graph.WellFormed) (acyclic : graph.Acyclic) :
    Layered graph graph.initialEmission := by
  have sound := Sound.initial wellFormed
  have shallow : ∀ name ∈ graph.initialEmission.queue, graph.depth name = 0 := by
    intro name queued
    have free := ((sound.mem_iff name).mp (List.mem_append_right _ queued)).2
    rcases depth_cases wellFormed acyclic name with ⟨_, shallow⟩ | ⟨before, waits, _⟩
    · exact shallow
    · exact absurd (free before waits) List.not_mem_nil
  refine
    { sinks := ?_
      narrow :=
        fun one hone other hother => by simp [shallow one hone, shallow other hother]
      declared := ?_ }
  · exact List.pairwise_of_forall_mem_list fun one hone other _ =>
      (shallow one hone).trans_le (Nat.zero_le _)
  · intro one other declared alike queued
    have listed : other ∈ graph.names := declared.subset (by simp)
    have bare : ∀ name ∈ graph.initialEmission.queue,
        count graph.initialEmission.pending name = 0 := fun name member =>
      of_decide_eq_true (List.mem_filter.mp member).2
    have both := declared.filter fun name => count graph.initialEmission.pending name = 0
    rwa [List.filter_eq_self.mpr (by
      simp [bare one queued, bare other (sound.mem_of_alike alike listed queued)])] at both

/-- Nothing that is emitted or queued lies more than one layer below the head of the
queue. -/
theorem Layered.le_succ (layered : Layered graph emission)
    (hqueue : emission.queue = next :: rest) {name : String}
    (member : name ∈ emission.emitted ++ emission.queue) :
    graph.depth name ≤ graph.depth next + 1 := by
  have head : next ∈ emission.queue := hqueue ▸ List.mem_cons_self
  rcases List.mem_append.mp member with early | late
  · have := (List.pairwise_append.mp layered.sinks).2.2 name early next head
    omega
  · exact layered.narrow name late next head

theorem Layered.le_of_queued (layered : Layered graph emission)
    (hqueue : emission.queue = next :: rest) {name : String} (later : name ∈ rest) :
    graph.depth next ≤ graph.depth name := by
  have sinks := (List.pairwise_append.mp layered.sinks).2.1
  rw [hqueue] at sinks
  exact List.rel_of_pairwise_cons sinks later

theorem Layered.depth_released (wellFormed : graph.WellFormed) (acyclic : graph.Acyclic)
    (layered : Layered graph emission) (hqueue : emission.queue = next :: rest)
    {child : String} (waits : child ∈ graph.children next)
    (free : ∀ dependency ∈ graph.dependencies child, dependency ∈
      emission.emitted ++ [next]) :
    graph.depth child = graph.depth next + 1 := by
  have head : next ∈ emission.queue := hqueue ▸ List.mem_cons_self
  have deeper := depth_lt_of_precedes wellFormed acyclic
    (mem_dependencies_iff_precedes.mp (mem_children.mp waits))
  rcases depth_cases wellFormed acyclic child with ⟨_, shallow⟩ | ⟨before, member, below⟩
  · omega
  · have above : graph.depth before ≤ graph.depth next := by
      rcases List.mem_append.mp (free before member) with early | same
      · exact (List.pairwise_append.mp layered.sinks).2.2 before early next head
      · rw [List.mem_singleton.mp same]
    omega

theorem Layered.declared_released (wellFormed : graph.WellFormed)
    (sound : Sound graph emission) (layered : Layered graph emission)
    (among : released.Sublist (graph.children next)) {one other : String}
    (declared : [one, other].Sublist graph.names)
    (alike : ∀ dependency,
      dependency ∈ graph.dependencies one ↔ dependency ∈ graph.dependencies other)
    (free : one ∈ (emission.emitted ++ emission.queue) ++ released)
    (free' : other ∈ (emission.emitted ++ emission.queue) ++ released) :
    [one, other].Sublist ((emission.emitted ++ emission.queue) ++ released) := by
  by_cases old : one ∈ emission.emitted ++ emission.queue
  · exact (layered.declared one other declared alike old).trans
      (List.sublist_append_left _ _)
  · have late : other ∉ emission.emitted ++ emission.queue := fun early =>
      old (sound.mem_of_alike (fun dependency => (alike dependency).symm)
        (declared.subset (by simp)) early)
    refine List.Sublist.trans ?_ (List.sublist_append_right _ _)
    exact sublist_pair_of_lt ((children_sorted graph next).sublist among)
      ((List.mem_append.mp free).resolve_left old)
      ((List.mem_append.mp free').resolve_left late)
      (position_lt_of_sublist wellFormed.names_nodup declared)

theorem Layered.advance (wellFormed : graph.WellFormed) (acyclic : graph.Acyclic)
    (sound : Sound graph emission) (layered : Layered graph emission) :
    Layered graph (emission.advance graph.children) := by
  cases hqueue : emission.queue with
  | nil => simpa [Emission.advance, hqueue] using layered
  | cons next rest =>
      obtain ⟨released, emitted, queued, among, mem_released⟩ :=
        sound.released wellFormed hqueue
      have below : ∀ child ∈ released, graph.depth child = graph.depth next + 1 := by
        intro child member
        obtain ⟨waits, free⟩ := (mem_released child).mp member
        exact layered.depth_released wellFormed acyclic hqueue waits free
      have regrouped : (emission.advance graph.children).emitted
            ++ (emission.advance graph.children).queue
          = (emission.emitted ++ emission.queue) ++ released := by
        simp [emitted, queued, hqueue]
      refine
        { sinks := ?_
          narrow := ?_
          declared := fun one other declared alike free => ?_ }
      · rw [regrouped]
        refine List.pairwise_append.mpr ⟨layered.sinks, ?_, fun one hone other hother => ?_⟩
        · exact List.pairwise_of_forall_mem_list fun one hone other hother =>
            ((below one hone).trans (below other hother).symm).le
        · rw [below other hother]
          exact layered.le_succ hqueue hone
      · -- The queue spans two depths at most, and what is released lies in the deeper
        -- one.
        rw [queued]
        intro one hone other hother
        have near : graph.depth one ≤ graph.depth next + 1 := by
          rcases List.mem_append.mp hone with old | new
          · exact layered.le_succ hqueue (by simp [hqueue, old])
          · exact (below one new).le
        have far : graph.depth next ≤ graph.depth other := by
          rcases List.mem_append.mp hother with old | new
          · exact layered.le_of_queued hqueue old
          · exact (Nat.le_succ _).trans_eq (below other new).symm
        omega
      · have free' :=
          (sound.advance wellFormed).mem_of_alike alike (declared.subset (by simp)) free
        rw [regrouped] at free free' ⊢
        exact layered.declared_released wellFormed sound among declared alike free free'

end Emission

namespace StepGraph

variable {graph : StepGraph κ ρ}

/-- The order of a graph without cycles lists all steps, layer by layer, a step's layer
being the length of the longest chain of dependencies that ends in it.  Of two steps with
the same dependencies the one that is declared first comes first. -/
theorem ordered_in_layers (wellFormed : graph.WellFormed) (acyclic : graph.Acyclic) :
    graph.orderedSteps.Perm graph.steps
      ∧ (∀ name, IsGreatest (graph.chainLengths name) (graph.depth name))
      ∧ (graph.orderedSteps.Pairwise fun one other =>
          graph.depth one.name ≤ graph.depth other.name)
      ∧ ∀ one other, [one, other].Sublist graph.steps →
          (∀ dependency, dependency ∈ graph.dependencies one.name
            ↔ dependency ∈ graph.dependencies other.name) →
          [one, other].Sublist graph.orderedSteps := by
  obtain ⟨emission, sound, layered, idle, emitted⟩ := order_of_kept wellFormed
    (Emission.Layered graph) (.initial wellFormed acyclic)
    fun sound layered => layered.advance wellFormed acyclic sound
  have sinks := layered.sinks
  have declared := layered.declared
  rw [idle, List.append_nil, emitted] at sinks declared
  have whole : ∀ name ∈ graph.names, name ∈ graph.order := fun _ =>
    mem_order_of_acyclic wellFormed acyclic
  refine ⟨(orderedSteps_perm_iff wellFormed).mpr whole,
    isGreatest_depth wellFormed acyclic, ?_,
    fun one other listed alike => ?_⟩
  · rw [← names_orderedSteps wellFormed, List.pairwise_map] at sinks
    exact sinks
  · have hone : one ∈ graph.steps := listed.subset (by simp)
    have hother : other ∈ graph.steps := listed.subset (by simp)
    have named := declared one.name other.name (listed.map Step.name) alike
      (whole _ (List.mem_map_of_mem hone))
    have found := named.filterMap graph.step?
    rwa [List.filterMap_cons_some ((step?_eq_some_iff wellFormed).mpr ⟨hone, rfl⟩),
      List.filterMap_cons_some ((step?_eq_some_iff wellFormed).mpr ⟨hother, rfl⟩)] at found

def layeredStep (name : String) : Step Unit Unit :=
  { name, work := () }

def scattered : StepGraph Unit Unit where
  steps := ["release", "cli", "src", "api", "docs"].map layeredStep
  edges := [("src", "cli"), ("src", "api"), ("cli", "release"), ("docs", "release")]

/-- The two images, which are built from the same source, come in the order of their
declaration; and a release that depends on one of them lies at least two layers down. -/
theorem scattered_in_layers :
    scattered.WellFormed ∧ scattered.Acyclic
      ∧ scattered.orderedSteps.Perm scattered.steps
      ∧ (scattered.orderedSteps.Pairwise fun one other =>
          scattered.depth one.name ≤ scattered.depth other.name)
      ∧ [layeredStep "cli", layeredStep "api"].Sublist scattered.orderedSteps
      ∧ 2 ≤ scattered.depth "release" := by
  have wellFormed : scattered.WellFormed := by decide
  have acyclic : scattered.Acyclic :=
    acyclic_of_rank ["src", "docs", "cli", "api", "release"].idxOf (by decide)
  obtain ⟨whole, deepest, sinks, declared⟩ := ordered_in_layers wellFormed acyclic
  have listed : [layeredStep "cli", layeredStep "api"].Sublist scattered.steps :=
    .cons _ (.cons_cons _ (.cons _ (.cons_cons _ (List.nil_sublist _))))
  have chained : scattered.Chain ["src", "cli"] "release" := by
    simp [Chain, Precedes, scattered]
  exact ⟨wellFormed, acyclic, whole, sinks, declared _ _ listed fun _ => Iff.rfl,
    (deepest "release").2 ⟨_, chained, rfl⟩⟩

end StepGraph

end BuildPipeline
