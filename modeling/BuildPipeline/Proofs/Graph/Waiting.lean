import BuildPipeline.Proofs.Graph.Cycle
import BuildPipeline.Proofs.Graph.Need

namespace BuildPipeline

variable {κ ρ : Type} {requested implicit : List (Step κ ρ)}

theorem Producers.get?_claims_eq_some {steps : List (Step κ ρ)}
    (apart : steps.Pairwise Step.Apart) {step : Step κ ρ} {link : Link}
    (member : step ∈ steps) (created : link ∈ step.creates) :
    (claims steps).get? link = some step := by
  cases found : (claims steps).get? link with
  | none => exact absurd created (get?_claims_eq_none_iff.mp found step member)
  | some other =>
      obtain ⟨listed, shared⟩ := mem_of_get?_claims found
      rw [Step.eq_of_creates apart listed member shared created]

theorem Step.requires_of_waits {step : Step κ ρ} (waits : step.waitsForAll = true) :
    Link.allSteps ∈ step.requires :=
  List.contains_iff_mem.mp waits

namespace StepGraph

/-! `Awaits steps before after`: the step `after` requires a link that `before` creates;
or it waits for all, and nobody of the name `before` does. -/

inductive Awaits (steps : List (Step κ ρ)) : String → String → Prop
  | link {producer step : Step κ ρ} {link : Link} : producer ∈ steps → step ∈ steps →
      link ∈ step.requires → link.isWildcard = false → link ∈ producer.creates →
      Awaits steps producer.name step.name
  | wildcard {other step : Step κ ρ} {link : Link} : other ∈ steps → step ∈ steps →
      link ∈ step.requires → link.isWildcard = true →
      other.name ∉ (steps.filter Step.waitsForAll).map (·.name) →
      Awaits steps other.name step.name

theorem mem_edgesAmong_iff {steps : List (Step κ ρ)} (apart : steps.Pairwise Step.Apart)
    {before after : String} :
    (before, after) ∈ edgesAmong steps (Producers.claims steps)
      ↔ Awaits steps before after := by
  rw [edgesAmong, List.mem_eraseDups, List.mem_flatMap]
  constructor
  · rintro ⟨step, member, edge⟩
    obtain ⟨link, requires, edge⟩ := List.mem_flatMap.mp edge
    split at edge
    · rename_i wildcard
      obtain ⟨other, free, same⟩ := List.mem_map.mp edge
      obtain ⟨listed, free⟩ := List.mem_filter.mp free
      cases same
      exact .wildcard listed member requires wildcard (by simpa using free)
    · rename_i ordinary
      split at edge
      · rename_i producer found
        obtain ⟨listed, created⟩ := Producers.mem_of_get?_claims found
        cases List.mem_singleton.mp edge
        exact .link listed member requires (Bool.eq_false_iff.mpr ordinary) created
      · cases edge
  · intro awaits
    cases awaits with
    | @link producer step link listed member requires ordinary created =>
        refine ⟨step, member, List.mem_flatMap.mpr ⟨link, requires, ?_⟩⟩
        rw [ordinary, Producers.get?_claims_eq_some apart listed created]
        exact List.mem_singleton_self _
    | @wildcard other step link listed member requires wildcard free =>
        refine ⟨step, member, List.mem_flatMap.mpr ⟨link, requires, ?_⟩⟩
        rw [wildcard, if_pos rfl]
        exact List.mem_map.mpr ⟨other, List.mem_filter.mpr
          ⟨listed, by simpa using free⟩, rfl⟩

theorem acyclic_iff_cycle? {graph : StepGraph κ ρ}
    (starts : ∀ edge ∈ graph.edges, edge.1 ∈ graph.names)
    (ends : ∀ edge ∈ graph.edges, edge.2 ∈ graph.names) :
    graph.Acyclic ↔ cycle? graph.names graph.edges = none := by
  constructor
  · intro acyclic
    cases found : cycle? graph.names graph.edges with
    | none => rfl
    | some names =>
        obtain ⟨name, _, around⟩ := (isCycle_of_cycle? ends found).returns
        exact absurd around (acyclic name)
  · intro unfound
    obtain ⟨rank, climbs⟩ := climbs_of_cycle? starts ends unfound
    exact acyclic_of_rank rank climbs

def ofClosure (closure : Closure κ ρ) : StepGraph κ ρ :=
  ⟨closure.steps, edgesAmong closure.steps closure.producers⟩

theorem precedes_ofClosure {closure : Closure κ ρ}
    (closed : close requested implicit = .ok closure) {before after : String} :
    (ofClosure closure).Precedes before after ↔ Awaits closure.steps before after := by
  have sound := (close_eq_ok closed).2
  rw [Precedes, ofClosure, sound.producers]
  exact mem_edgesAmong_iff sound.apart

theorem ends_ofClosure {closure : Closure κ ρ}
    (closed : close requested implicit = .ok closure) :
    ∀ edge ∈ (ofClosure closure).edges,
      edge.1 ∈ (ofClosure closure).names ∧ edge.2 ∈ (ofClosure closure).names := by
  rw [ofClosure, (close_eq_ok closed).2.producers]
  exact fun _ => mem_edgesAmong

theorem acyclic_ofClosure_iff {closure : Closure κ ρ}
    (closed : close requested implicit = .ok closure) :
    (ofClosure closure).Acyclic
      ↔ cycle? (ofClosure closure).names (ofClosure closure).edges = none :=
  acyclic_iff_cycle? (fun edge member => (ends_ofClosure closed edge member).1)
    fun edge member => (ends_ofClosure closed edge member).2

theorem acyclic_of_build {graph : StepGraph κ ρ}
    (built : build requested implicit = .ok graph) :
    graph.Acyclic := by
  obtain ⟨closure, closed, rfl⟩ := build_eq_ok built
  refine (acyclic_ofClosure_iff closed).mpr ?_
  cases found : cycle? (ofClosure closure).names (ofClosure closure).edges with
  | none => rfl
  | some names =>
      have refused : build requested implicit = .error (.cyclic names) :=
        build_eq_error.mpr (.inr ⟨closure, names, closed, rfl, found⟩)
      cases built.symm.trans refused

theorem precedes_iff_awaits {graph : StepGraph κ ρ}
    (built : build requested implicit = .ok graph) {before after : String} :
    graph.Precedes before after ↔ Awaits graph.steps before after := by
  obtain ⟨closure, closed, rfl⟩ := build_eq_ok built
  exact precedes_ofClosure closed

theorem producer_before {graph : StepGraph κ ρ}
    (built : build requested implicit = .ok graph) {step : Step κ ρ}
    (member : step ∈ graph.steps) {link : Link} (requires : link ∈ step.requires)
    (ordinary : link.isWildcard = false) :
    ∃ producer ∈ graph.steps, link ∈ producer.creates
      ∧ graph.Precedes producer.name step.name := by
  have once := (closed_of_build built).produced step member link requires ordinary
  obtain ⟨producer, listed, created⟩ := List.countP_pos_iff.mp (once ▸ Nat.one_pos)
  have created := of_decide_eq_true created
  exact ⟨producer, listed, created, (precedes_iff_awaits built).mpr
    (.link listed member requires ordinary created)⟩

section

variable {graph : StepGraph κ ρ}

/-- One step requires an ordinary link that the other one creates. -/
def Feeds (graph : StepGraph κ ρ) (before after : String) : Prop :=
  ∃ producer ∈ graph.steps, ∃ step ∈ graph.steps, ∃ link ∈ step.requires,
    link.isWildcard = false ∧ link ∈ producer.creates
      ∧ producer.name = before ∧ step.name = after

def waiting (graph : StepGraph κ ρ) : List String :=
  (graph.steps.filter Step.waitsForAll).map (·.name)

theorem name_mem_waiting_iff {name : String} :
    name ∈ graph.waiting ↔ ∃ step ∈ graph.steps, step.waitsForAll = true
      ∧ step.name = name := by
  simp [waiting, and_assoc]

theorem mem_waiting {step : Step κ ρ} (member : step ∈ graph.steps)
    (waits : step.waitsForAll = true) : step.name ∈ graph.waiting :=
  name_mem_waiting_iff.mpr ⟨step, member, waits, rfl⟩

theorem not_mem_waiting (named : graph.names.Nodup) {step : Step κ ρ}
    (member : step ∈ graph.steps) (free : step.waitsForAll = false) :
    step.name ∉ graph.waiting := by
  intro listed
  obtain ⟨other, listed, waits, same⟩ := name_mem_waiting_iff.mp listed
  rw [List.inj_on_of_nodup_map named listed member same, free] at waits
  cases waits

theorem precedes_waiter (built : build requested implicit = .ok graph)
    {waiter other : Step κ ρ} (waits : waiter.waitsForAll = true)
    (waiting : waiter ∈ graph.steps) (member : other ∈ graph.steps)
    (free : other.name ∉ graph.waiting) :
    graph.Precedes other.name waiter.name :=
  (precedes_iff_awaits built).mpr
    (.wildcard member waiting (Step.requires_of_waits waits) Link.isWildcard_allSteps free)

/-- Whatever comes right after a step that waits for all requires a link of it, and waits
for all as well: otherwise the two would wait for each other. -/
theorem feeds_of_waiting (built : build requested implicit = .ok graph)
    {before after : String} (waits : before ∈ graph.waiting)
    (edge : graph.Precedes before after) :
    graph.Feeds before after ∧ after ∈ graph.waiting := by
  cases (precedes_iff_awaits built).mp edge with
  | @link producer step link listed member requires ordinary created =>
      refine ⟨⟨producer, listed, step, member, link, requires, ordinary, created, rfl, rfl⟩,
        ?_⟩
      by_contra free
      obtain ⟨waiter, waiting, waits, same⟩ := name_mem_waiting_iff.mp waits
      have back : graph.Precedes step.name producer.name :=
        same ▸ precedes_waiter built waits waiting member free
      exact acyclic_of_build built _ (.tail (.single edge) back)
  | wildcard _ _ _ _ free => exact absurd waits free

/-- Steps that wait for all do not wait for each other unless links make one need the
other. -/
theorem feeds_of_precedes (built : build requested implicit = .ok graph)
    {before after : String} (waits : before ∈ graph.waiting)
    (path : Relation.TransGen graph.Precedes before after) :
    Relation.TransGen graph.Feeds before after := by
  induction path using Relation.TransGen.head_induction_on with
  | single edge => exact .single (feeds_of_waiting built waits edge).1
  | head edge _ ih =>
      obtain ⟨feeds, waits⟩ := feeds_of_waiting built waits edge
      exact .head feeds (ih waits)

end

/-- Where every name and link has one claimant and every link a producer, a graph is
refused exactly if a step waits for itself, and what is reported is a cycle of its edges.
The search for it ends on any edges. -/
theorem build_cyclic_iff (requested implicit : List (Step κ ρ)) :
    ((∀ link one other,
        build requested implicit ≠ .error (.duplicateProvider link one other)) →
        (∀ step link, build requested implicit ≠ .error (.unsatisfiable step link)) →
        ∃ graph : StepGraph κ ρ,
          Closed requested implicit graph.steps
            ∧ (∀ before after, graph.Precedes before after
                ↔ Awaits graph.steps before after)
            ∧ ((∃ names, build requested implicit = .error (.cyclic names))
                ↔ ∃ name, Relation.TransGen graph.Precedes name name)
            ∧ (∀ names, build requested implicit = .error (.cyclic names) →
                Edge.IsCycle graph.edges names)
            ∧ (graph.Acyclic → build requested implicit = .ok graph))
      ∧ (∀ edges search, ∃ outcome, Search.Ends (Edge.successors edges) search outcome)
      ∧ (∀ names edges, (∀ edge ∈ edges, edge.2 ∈ names) →
          Search.Comes (Edge.successors edges) [] names (cycle? names edges)) := by
  refine ⟨fun undisputed satisfied => ?_, Search.ends_always, fun _ _ => comes_cycle?⟩
  cases closed : close requested implicit with
  | error failure =>
      have refused : build requested implicit = .error failure :=
        build_eq_error.mpr (.inl closed)
      cases fault_of_close closed with
      | unmet _ _ _ => exact absurd refused (satisfied _ _)
      | disputed link one other _ => exact absurd refused (undisputed link one other)
  | ok closure =>
      have acyclic_iff := acyclic_ofClosure_iff closed
      have cyclic_iff : ∀ names, build requested implicit = .error (.cyclic names)
          ↔ cycle? (ofClosure closure).names (ofClosure closure).edges = some names := by
        intro names
        rw [build_eq_error, closed]
        constructor
        · rintro (⟨⟨⟩⟩ | ⟨_, _, ⟨⟩, ⟨⟩, found⟩)
          exact found
        · exact fun found => .inr ⟨closure, names, rfl, rfl, found⟩
      refine ⟨ofClosure closure, closed_of_close closed, fun _ _ =>
        precedes_ofClosure closed, ?_, ?_,
        fun acyclic => build_of_close closed (acyclic_iff.mp acyclic)⟩
      · simp only [cyclic_iff]
        rw [← Option.isSome_iff_exists, ← Option.ne_none_iff_isSome,
          ne_eq, ← acyclic_iff, Acyclic, not_forall_not]
      · intro names refused
        exact isCycle_of_cycle? (fun edge member => (ends_ofClosure closed edge member).2)
          ((cyclic_iff names).mp refused)

def hen : Step Unit Unit :=
  { name := "hen", requires := [.internalImage "egg"],
    creates := [.internalImage "hen"], work := () }

def egg : Step Unit Unit :=
  { name := "egg", requires := [.internalImage "hen"],
    creates := [.internalImage "egg"], work := () }

theorem hen_egg_cyclic :
    build [hen] [egg] = .error (.cyclic ["hen", "egg", "hen"])
      ∧ ∃ graph : StepGraph Unit Unit, Closed [hen] [egg] graph.steps
          ∧ Edge.IsCycle graph.edges ["hen", "egg", "hen"]
          ∧ ∃ name, Relation.TransGen graph.Precedes name name := by
  have refused : build [hen] [egg] = .error (.cyclic ["hen", "egg", "hen"]) := by
    refine build_eq_error.mpr (.inr ⟨_, _, rfl, rfl, ?_⟩)
    rw [cycle?_of_sorted (by decide)]
    rfl
  refine ⟨refused, ?_⟩
  obtain ⟨graph, closed, _, cyclic, reported, _⟩ := (build_cyclic_iff [hen] [egg]).1
    (fun _ _ _ disputed => by cases refused.symm.trans disputed)
    (fun _ _ unmet => by cases refused.symm.trans unmet)
  exact ⟨graph, closed, reported _ refused, cyclic.mp ⟨_, refused⟩⟩

end StepGraph

end BuildPipeline
