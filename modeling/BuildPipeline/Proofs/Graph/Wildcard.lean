import BuildPipeline.Proofs.Graph.Ordinary

namespace BuildPipeline

variable {κ ρ : Type} {requested implicit : List (Step κ ρ)}

/-- The step that requires one link more, at a place among the others. -/
def Step.demanding (step : Step κ ρ) (place : Nat) (link : Link) : Step κ ρ :=
  { step with requires := step.requires.take place ++ link :: step.requires.drop place }

def Step.demandingAt (step : Step κ ρ) (name : String) (place : Nat) (link : Link) :
    Step κ ρ :=
  if step.name = name then step.demanding place link else step

def Step.IsPlain (step : Step κ ρ) : Prop :=
  ∀ link ∈ step.requires, link.isWildcard = false

namespace Step

variable {step : Step κ ρ} {place : Nat} {link : Link}

theorem mem_requires_demanding {other : Link} :
    other ∈ (step.demanding place link).requires
      ↔ other = link ∨ other ∈ step.requires := by
  have parts : other ∈ step.requires
      ↔ other ∈ step.requires.take place ∨ other ∈ step.requires.drop place := by
    rw [← List.mem_append, List.take_append_drop]
  rw [demanding, List.mem_append, List.mem_cons, parts]
  tauto

theorem waitsForAll_demanding :
    (step.demanding place link).waitsForAll = true
      ↔ link = .allSteps ∨ step.waitsForAll = true := by
  rw [waitsForAll, List.contains_iff_mem, mem_requires_demanding, waitsForAll,
    List.contains_iff_mem, eq_comm]

theorem IsPlain.free (plain : step.IsPlain) : step.waitsForAll = false := by
  by_contra waits
  have ordinary := plain _ (requires_of_waits (Bool.eq_true_of_not_eq_false waits))
  rw [Link.isWildcard_allSteps] at ordinary
  cases ordinary

theorem keepsOrdinary_demandingAt (name : String) (place : Nat)
    (wildcard : link.isWildcard = true) :
    KeepsOrdinary (κ := κ) (ρ := ρ) (·.demandingAt name place link) := by
  refine ⟨fun step => ?_, fun step => ?_, fun step => ?_⟩
  · unfold demandingAt
    split <;> rfl
  · unfold demandingAt
    split <;> rfl
  · unfold demandingAt
    split
    · rw [demanding, List.filter_append, List.filter_cons_of_neg (by simp [wildcard]),
        ← List.filter_append, List.take_append_drop]
    · rfl

end Step

namespace StepGraph

/-- A step of the name creates the link; or the link is a wildcard, and no step of the
name waits for all. -/
def Serves (graph : StepGraph κ ρ) (before : String) (link : Link) : Prop :=
  ∃ other ∈ graph.steps, other.name = before
    ∧ if link.isWildcard then before ∉ graph.waiting else link ∈ other.creates

theorem awaits_iff_serves {graph : StepGraph κ ρ} {before after : String} :
    Awaits graph.steps before after
      ↔ ∃ step ∈ graph.steps, step.name = after
          ∧ ∃ link ∈ step.requires, graph.Serves before link := by
  constructor
  · intro awaits
    cases awaits with
    | link member listed requires ordinary created =>
        exact ⟨_, listed, rfl, _, requires, _, member, rfl, by rwa [ordinary]⟩
    | wildcard member listed requires wildcard free =>
        exact ⟨_, listed, rfl, _, requires, _, member, rfl, by rwa [wildcard]⟩
  · rintro ⟨step, listed, rfl, link, requires, other, member, rfl, serves⟩
    split at serves
    · rename_i wildcard
      exact .wildcard member listed requires wildcard serves
    · rename_i ordinary
      exact .link member listed requires (Bool.eq_false_of_not_eq_true ordinary) serves

theorem serves_wildcard_iff {graph : StepGraph κ ρ} {before : String} {link : Link}
    (wildcard : link.isWildcard = true) :
    graph.Serves before link ↔ before ∈ graph.names ∧ before ∉ graph.waiting := by
  simp only [Serves, wildcard, if_true, names, List.mem_map, ← and_assoc, exists_and_right]

/-- Two graphs, the second of which has a wildcard among the links that one step requires;
none of the links that this step creates is required by others. -/
structure Adjusted (graph grown : StepGraph κ ρ) (waiter : Step κ ρ) (place : Nat)
    (link : Link) : Prop where
  steps : grown.steps = graph.steps.map (·.demandingAt waiter.name place link)
  member : waiter ∈ graph.steps
  alone : ∀ other ∈ graph.steps, other.name = waiter.name → other = waiter
  idle : ∀ other ∈ graph.steps, other ≠ waiter →
    ∀ link ∈ waiter.creates, link ∉ other.requires
  wildcard : link.isWildcard = true
  acyclic : graph.Acyclic
  awaited : ∀ {before after}, graph.Precedes before after ↔ Awaits graph.steps before after
  awaits : ∀ {before after}, grown.Precedes before after ↔ Awaits grown.steps before after

namespace Adjusted

variable {graph grown : StepGraph κ ρ} {waiter : Step κ ρ} {place : Nat} {link : Link}

theorem mem_iff (adjusted : Adjusted graph grown waiter place link) {step : Step κ ρ} :
    step ∈ grown.steps
      ↔ step = waiter.demanding place link ∨ step ∈ graph.steps
          ∧ step.name ≠ waiter.name := by
  rw [adjusted.steps, List.mem_map]
  constructor
  · rintro ⟨other, listed, rfl⟩
    unfold Step.demandingAt
    split
    · rename_i same
      exact .inl (congrArg (Step.demanding · place link) (adjusted.alone other listed same))
    · rename_i different
      exact .inr ⟨listed, different⟩
  · rintro (rfl | ⟨listed, different⟩)
    · exact ⟨waiter, adjusted.member, if_pos rfl⟩
    · exact ⟨step, listed, if_neg different⟩

theorem demanding_mem (adjusted : Adjusted graph grown waiter place link) :
    waiter.demanding place link ∈ grown.steps :=
  adjusted.mem_iff.mpr (.inl rfl)

theorem exists_former (adjusted : Adjusted graph grown waiter place link) {step : Step κ ρ}
    (member : step ∈ grown.steps) :
    ∃ former ∈ graph.steps, former.name = step.name ∧ former.creates = step.creates := by
  rcases adjusted.mem_iff.mp member with rfl | ⟨listed, _⟩
  · exact ⟨waiter, adjusted.member, rfl, rfl⟩
  · exact ⟨step, listed, rfl, rfl⟩

theorem exists_latter (adjusted : Adjusted graph grown waiter place link) {step : Step κ ρ}
    (member : step ∈ graph.steps) :
    ∃ latter ∈ grown.steps, latter.name = step.name ∧ latter.creates = step.creates := by
  by_cases same : step.name = waiter.name
  · obtain rfl := adjusted.alone step member same
    exact ⟨_, adjusted.demanding_mem, rfl, rfl⟩
  · exact ⟨step, adjusted.mem_iff.mpr (.inr ⟨member, same⟩), rfl, rfl⟩

theorem waiter_mem_waiting_iff (adjusted : Adjusted graph grown waiter place link) :
    waiter.name ∈ graph.waiting ↔ waiter.waitsForAll = true := by
  rw [name_mem_waiting_iff]
  constructor
  · rintro ⟨step, listed, waits, same⟩
    exact adjusted.alone step listed same ▸ waits
  · exact fun waits => ⟨waiter, adjusted.member, waits, rfl⟩

theorem mem_waiting_iff (adjusted : Adjusted graph grown waiter place link)
    {name : String} :
    name ∈ grown.waiting ↔ name ∈ graph.waiting ∨ name = waiter.name
      ∧ link = .allSteps := by
  have here := adjusted.demanding_mem
  simp only [name_mem_waiting_iff]
  constructor
  · rintro ⟨step, member, waits, rfl⟩
    rcases adjusted.mem_iff.mp member with rfl | ⟨listed, _⟩
    · rcases Step.waitsForAll_demanding.mp waits with every | former
      · exact .inr ⟨rfl, every⟩
      · exact .inl ⟨waiter, adjusted.member, former, rfl⟩
    · exact .inl ⟨step, listed, waits, rfl⟩
  · rintro (⟨step, listed, waits, rfl⟩ | ⟨rfl, every⟩)
    · by_cases same : step.name = waiter.name
      · obtain rfl := adjusted.alone step listed same
        exact ⟨_, here, Step.waitsForAll_demanding.mpr (.inr waits), rfl⟩
      · exact ⟨step, adjusted.mem_iff.mpr (.inr ⟨listed, same⟩), waits, rfl⟩
    · exact ⟨_, here, Step.waitsForAll_demanding.mpr (.inl every), rfl⟩

theorem serves_former (adjusted : Adjusted graph grown waiter place link) {before : String}
    {other : Link} (serves : grown.Serves before other) : graph.Serves before other := by
  obtain ⟨step, member, rfl, serves⟩ := serves
  obtain ⟨former, listed, named, creates⟩ := adjusted.exists_former member
  refine ⟨former, listed, named, ?_⟩
  revert serves
  split
  · exact fun free waits => free (adjusted.mem_waiting_iff.mpr (.inl waits))
  · exact fun created => creates ▸ created

theorem serves_latter (adjusted : Adjusted graph grown waiter place link) {before : String}
    {other : Link} (serves : graph.Serves before other) (different : before ≠ waiter.name) :
    grown.Serves before other := by
  obtain ⟨step, member, rfl, serves⟩ := serves
  obtain ⟨latter, listed, named, creates⟩ := adjusted.exists_latter member
  refine ⟨latter, listed, named, ?_⟩
  revert serves
  split
  · intro free waits
    exact (adjusted.mem_waiting_iff.mp waits).elim free fun every => different every.1
  · exact fun created => creates ▸ created

theorem precedes_waiter (adjusted : Adjusted graph grown waiter place link)
    {before : String} :
    graph.Precedes before waiter.name ↔ ∃ other ∈ waiter.requires,
      graph.Serves before other := by
  rw [adjusted.awaited, awaits_iff_serves]
  constructor
  · rintro ⟨step, listed, same, serves⟩
    exact adjusted.alone step listed same ▸ serves
  · exact fun serves => ⟨waiter, adjusted.member, rfl, serves⟩

theorem grown_precedes_waiter (adjusted : Adjusted graph grown waiter place link)
    {before : String} :
    grown.Precedes before waiter.name
      ↔ grown.Serves before link ∨ ∃ other ∈ waiter.requires,
          grown.Serves before other := by
  rw [adjusted.awaits, awaits_iff_serves]
  constructor
  · rintro ⟨step, listed, same, other, requires, serves⟩
    obtain rfl := (adjusted.mem_iff.mp listed).resolve_right fun former => former.2 same
    rcases Step.mem_requires_demanding.mp requires with rfl | requires
    · exact .inl serves
    · exact .inr ⟨other, requires, serves⟩
  · intro serves
    refine ⟨_, adjusted.demanding_mem, rfl, ?_⟩
    rcases serves with serves | ⟨other, requires, serves⟩
    · exact ⟨link, Step.mem_requires_demanding.mpr (.inl rfl), serves⟩
    · exact ⟨other, Step.mem_requires_demanding.mpr (.inr requires), serves⟩

theorem precedes_other (adjusted : Adjusted graph grown waiter place link)
    {before after : String} (different : after ≠ waiter.name)
    (edge : grown.Precedes before after) :
    graph.Precedes before after := by
  obtain ⟨step, listed, rfl, other, requires, serves⟩ :=
    awaits_iff_serves.mp (adjusted.awaits.mp edge)
  rcases adjusted.mem_iff.mp listed with rfl | ⟨former, _⟩
  · exact absurd rfl different
  · exact adjusted.awaited.mpr (awaits_iff_serves.mpr
      ⟨step, former, rfl, other, requires, adjusted.serves_former serves⟩)

theorem precedes_self (adjusted : Adjusted graph grown waiter place link)
    (other : link ≠ .allSteps) (free : ¬ waiter.waitsForAll = true) :
    grown.Precedes waiter.name waiter.name := by
  have here : waiter.name ∈ grown.names := List.mem_map.mpr ⟨_, adjusted.demanding_mem, rfl⟩
  refine adjusted.grown_precedes_waiter.mpr (.inl ?_)
  rw [serves_wildcard_iff adjusted.wildcard, adjusted.mem_waiting_iff,
    adjusted.waiter_mem_waiting_iff]
  exact ⟨here, fun waits => waits.elim free fun every => other every.2⟩

theorem not_self (adjusted : Adjusted graph grown waiter place link) (name : String) :
    ¬ graph.Precedes name name :=
  fun edge => adjusted.acyclic name (.single edge)

theorem plain_of_free (adjusted : Adjusted graph grown waiter place link) {step : Step κ ρ}
    (member : step ∈ graph.steps) (free : step.name ∉ graph.waiting) : step.IsPlain := by
  intro other requires
  by_contra wildcard
  have serves : graph.Serves step.name other :=
    (serves_wildcard_iff (Bool.eq_true_of_not_eq_false wildcard)).mpr
      ⟨List.mem_map_of_mem member, free⟩
  exact adjusted.not_self step.name (adjusted.awaited.mpr (awaits_iff_serves.mpr
    ⟨step, member, rfl, other, requires, serves⟩))

theorem mem_plain_iff (adjusted : Adjusted graph grown waiter place link) {step : Step κ ρ}
    (plain : step.IsPlain) :
    step ∈ grown.steps ↔ step ∈ graph.steps ∧ step.name ≠ waiter.name := by
  rw [adjusted.mem_iff, or_iff_right]
  rintro rfl
  have ordinary := plain link (Step.mem_requires_demanding.mpr (.inl rfl))
  rw [adjusted.wildcard] at ordinary
  cases ordinary

section

variable (joins : link = .allSteps ∨ waiter.waitsForAll = true)
include joins

theorem waiter_mem_waiting (adjusted : Adjusted graph grown waiter place link) :
    waiter.name ∈ grown.waiting := by
  rw [adjusted.mem_waiting_iff, adjusted.waiter_mem_waiting_iff]
  exact joins.symm.imp_right fun every => ⟨rfl, every⟩

theorem not_precedes (adjusted : Adjusted graph grown waiter place link) (after : String) :
    ¬ grown.Precedes waiter.name after := by
  intro edge
  obtain ⟨step, listed, rfl, other, requires, producer, member, same, serves⟩ :=
    awaits_iff_serves.mp (adjusted.awaits.mp edge)
  obtain rfl := (adjusted.mem_iff.mp member).resolve_right fun former => former.2 same
  split at serves
  · exact serves (adjusted.waiter_mem_waiting joins)
  · rename_i ordinary
    rcases adjusted.mem_iff.mp listed with rfl | ⟨among, different⟩
    · refine adjusted.not_self waiter.name (adjusted.precedes_waiter.mpr ?_)
      rcases Step.mem_requires_demanding.mp requires with rfl | requires
      · exact absurd adjusted.wildcard ordinary
      · exact ⟨other, requires, waiter, adjusted.member, rfl, by rwa [if_neg ordinary]⟩
    · exact adjusted.idle step among (fun same => different (congrArg _ same)) other
        serves requires

theorem acyclic_grown (adjusted : Adjusted graph grown waiter place link) : grown.Acyclic :=
  acyclic_of_sink adjusted.acyclic (adjusted.not_precedes joins) adjusted.precedes_other

theorem precedes_waiter_iff (adjusted : Adjusted graph grown waiter place link)
    {before : String} :
    grown.Precedes before waiter.name
      ↔ graph.Precedes before waiter.name ∨ before ≠ waiter.name
          ∧ graph.Serves before link := by
  rw [adjusted.grown_precedes_waiter, or_comm, adjusted.precedes_waiter]
  refine or_congr ⟨?_, ?_⟩ ⟨?_, ?_⟩
  · rintro ⟨other, requires, serves⟩
    exact ⟨other, requires, adjusted.serves_former serves⟩
  · rintro ⟨other, requires, serves⟩
    refine ⟨other, requires, adjusted.serves_latter serves ?_⟩
    rintro rfl
    exact adjusted.not_self waiter.name
      (adjusted.precedes_waiter.mpr ⟨other, requires, serves⟩)
  · intro serves
    refine ⟨?_, adjusted.serves_former serves⟩
    rintro rfl
    exact ((serves_wildcard_iff adjusted.wildcard).mp serves).2
      (adjusted.waiter_mem_waiting joins)
  · exact fun ⟨different, serves⟩ => adjusted.serves_latter serves different

end

end Adjusted

/-- What becomes of a graph once a step of it requires a wildcard as well: the steps are
the same, none waits for itself, this one waits for what it waited for and for every step
that requires no wildcard, and no other one waits for more than before. -/
structure Joins (graph grown : StepGraph κ ρ) (waiter : Step κ ρ) (place : Nat)
    (link : Link) : Prop where
  steps : grown.steps = graph.steps.map (·.demandingAt waiter.name place link)
  acyclic : grown.Acyclic
  waits : ∀ before, before ∈ grown.dependencies waiter.name
    ↔ before ∈ graph.dependencies waiter.name
      ∨ ∃ step ∈ grown.steps, step.IsPlain ∧ step.name = before
  others : ∀ step ∈ grown.steps, step.name ≠ waiter.name →
    ∀ before ∈ grown.dependencies step.name, before ∈ graph.dependencies step.name

/-- A step that requires no wildcard may share its name with one that waits for all; then
a wildcard does not stand for it. -/
def MissesNone (graph : StepGraph κ ρ) (waiter : Step κ ρ) : Prop :=
  ∀ step ∈ graph.steps, step.IsPlain → step.name ∈ graph.waiting →
    step.name ∈ graph.dependencies waiter.name

theorem missesNone_of_nodup {graph : StepGraph κ ρ} (named : graph.names.Nodup)
    (waiter : Step κ ρ) : graph.MissesNone waiter :=
  fun _ member plain waits => absurd waits (not_mem_waiting named member plain.free)

theorem Adjusted.joins_iff {graph grown : StepGraph κ ρ} {waiter : Step κ ρ} {place : Nat}
    {link : Link} (adjusted : Adjusted graph grown waiter place link)
    (joins : link = .allSteps ∨ waiter.waitsForAll = true) :
    Joins graph grown waiter place link ↔ graph.MissesNone waiter := by
  have serves_iff : ∀ before, graph.Serves before link
      ↔ before ∈ graph.names ∧ before ∉ graph.waiting :=
    fun _ => serves_wildcard_iff adjusted.wildcard
  constructor
  · intro result step member plain waits
    have different : step.name ≠ waiter.name := by
      intro same
      obtain rfl := adjusted.alone step member same
      have waits := adjusted.waiter_mem_waiting_iff.mp waits
      rw [plain.free] at waits
      cases waits
    have edge := (result.waits step.name).mpr
      (.inr ⟨step, (adjusted.mem_plain_iff plain).mpr ⟨member, different⟩, plain, rfl⟩)
    rw [mem_dependencies_iff_precedes] at edge ⊢
    exact ((adjusted.precedes_waiter_iff joins).mp edge).resolve_right fun serves =>
      ((serves_iff step.name).mp serves.2).2 waits
  · intro missesNone
    refine ⟨adjusted.steps, adjusted.acyclic_grown joins, fun before => ?_,
      fun step _ different before edge => ?_⟩
    · rw [mem_dependencies_iff_precedes, mem_dependencies_iff_precedes,
        adjusted.precedes_waiter_iff joins]
      constructor
      · rintro (edge | ⟨different, serves⟩)
        · exact .inl edge
        · obtain ⟨named, free⟩ := (serves_iff before).mp serves
          obtain ⟨step, member, rfl⟩ := List.mem_map.mp named
          have plain := adjusted.plain_of_free member free
          exact .inr ⟨step, (adjusted.mem_plain_iff plain).mpr
            ⟨member, different⟩, plain, rfl⟩
      · rintro (edge | ⟨step, member, plain, rfl⟩)
        · exact .inl edge
        · obtain ⟨member, different⟩ := (adjusted.mem_plain_iff plain).mp member
          by_cases waits : step.name ∈ graph.waiting
          · exact .inl (mem_dependencies_iff_precedes.mp
              (missesNone step member plain waits))
          · exact .inr ⟨different, (serves_iff _).mpr ⟨List.mem_map_of_mem member, waits⟩⟩
    · rw [mem_dependencies_iff_precedes] at edge ⊢
      exact adjusted.precedes_other different edge

theorem requested_of_idle {graph : StepGraph κ ρ}
    (built : build requested implicit = .ok graph) {waiter : Step κ ρ}
    (member : waiter ∈ graph.steps)
    (idle : ∀ other ∈ graph.steps, other ≠ waiter →
      ∀ link ∈ waiter.creates, link ∉ other.requires) :
    waiter ∈ requested := by
  obtain ⟨added, split, _, due⟩ := (closed_of_build built).added
  rw [split] at member idle
  refine (List.mem_append.mp member).resolve_right fun wanted => ?_
  obtain ⟨earlier, later, rfl⟩ := List.append_of_mem wanted
  have due := due earlier waiter later rfl
  obtain ⟨link, created, _, ⟨asker, asks, requires⟩, _⟩ := due.wanted
  have among : asker ∈ requested ++ (earlier ++ waiter :: later) := by
    rw [← List.append_assoc]
    exact List.mem_append_left _ asks
  exact idle asker among (fun same => due.not_mem (same ▸ asks)) link created requires

theorem eq_of_requested {graph : StepGraph κ ρ}
    (built : build requested implicit = .ok graph) {step other : Step κ ρ}
    (asked : step ∈ requested) (member : other ∈ graph.steps)
    (same : other.name = step.name) : other = step := by
  obtain ⟨added, split, _, due⟩ := (closed_of_build built).exists_due
  rw [split] at member
  rcases List.mem_append.mp member with listed | wanted
  · exact List.inj_on_of_nodup_map (undisputed_of_build built).1 listed asked same
  · obtain ⟨_, due⟩ := due other wanted
    exact absurd (same ▸ List.mem_map_of_mem asked) due.unnamed

/-- A step of a graph whose links nobody else requires, and a wildcard that it is to
require as well, at any place among its links.  It is a step that was asked for.  The
graph that is built then is as it should be exactly if the step waits for all by this
wildcard or by one that it has, and misses no step that shares its name with one that
waits for all; where names are distinct there is none. -/
theorem demanding_joins_iff {graph : StepGraph κ ρ}
    (built : build requested implicit = .ok graph) {waiter : Step κ ρ}
    (member : waiter ∈ graph.steps)
    (idle : ∀ other ∈ graph.steps, other ≠ waiter →
      ∀ link ∈ waiter.creates, link ∉ other.requires)
    {link : Link} (wildcard : link.isWildcard = true) (place : Nat) :
    waiter ∈ requested
      ∧ ((∃ grown, build (requested.map (·.demandingAt waiter.name place link))
          implicit = .ok grown
          ∧ Joins graph grown waiter place link)
        ↔ (link = .allSteps ∨ waiter.waitsForAll = true) ∧ graph.MissesNone waiter)
      ∧ (graph.names.Nodup → graph.MissesNone waiter) := by
  have asked := requested_of_idle built member idle
  refine ⟨asked, ?_, fun named => missesNone_of_nodup named waiter⟩
  -- No admissible step bears the name of the waiter, which was asked for itself.
  have kept : ∀ step ∈ admissible requested implicit,
      step.demandingAt waiter.name place link = step := by
    intro step admitted
    refine if_neg fun same => (mem_admissible.mp admitted).2 ?_
    exact same ▸ List.mem_map_of_mem asked
  obtain ⟨closure, closed, rfl⟩ := build_eq_ok built
  have changed : close (requested.map (·.demandingAt waiter.name place link)) implicit
      = .ok (closure.map (·.demandingAt waiter.name place link)) := by
    rw [close_map (Step.keepsOrdinary_demandingAt waiter.name place wildcard) kept, closed]
    rfl
  have adjusted : Adjusted (ofClosure closure)
      (ofClosure (closure.map (·.demandingAt waiter.name place link))) waiter place link :=
    { steps := rfl
      member := member
      alone := fun other listed same => eq_of_requested built asked listed same
      idle := idle
      wildcard := wildcard
      acyclic := acyclic_of_build built
      awaited := precedes_ofClosure closed
      awaits := precedes_ofClosure changed }
  constructor
  · rintro ⟨grown, regrown, result⟩
    obtain ⟨other, same, rfl⟩ := build_eq_ok regrown
    cases changed.symm.trans same
    have joins : link = .allSteps ∨ waiter.waitsForAll = true := by
      by_contra neither
      obtain ⟨other, free⟩ := not_or.mp neither
      exact result.acyclic waiter.name (.single (adjusted.precedes_self other free))
    exact ⟨joins, (adjusted.joins_iff joins).mp result⟩
  · rintro ⟨joins, missesNone⟩
    exact ⟨_, build_of_close changed ((acyclic_ofClosure_iff changed).mp
      (adjusted.acyclic_grown joins)), (adjusted.joins_iff joins).mpr missesNone⟩

def summary : Step Unit Unit :=
  { name := "summary", work := () }

theorem summary_joins :
    ∃ graph grown : StepGraph Unit Unit, build [sources, summary] [] = .ok graph
      ∧ build [sources, summary.demanding 0 .allSteps] [] = .ok grown
      ∧ Joins graph grown summary 0 .allSteps := by
  have built := @build_of_close Unit Unit [sources, summary] [] _ rfl
    (by rw [cycle?_of_sorted (by decide)]; rfl)
  obtain ⟨_, joins, unmissed⟩ := demanding_joins_iff built (.tail _ (.head _))
    (fun _ _ _ link created => nomatch created) Link.isWildcard_allSteps 0
  obtain ⟨grown, regrown, result⟩ := joins.mpr ⟨.inl rfl, unmissed (by decide)⟩
  exact ⟨_, grown, built, regrown, result⟩

/-- A wildcard with an identity is taken for a wildcard but does not make the step wait
for all. -/
theorem summary_waits_for_itself :
    (∃ graph : StepGraph Unit Unit, build [sources, summary] [] = .ok graph)
      ∧ Link.isWildcard ⟨Link.wildcardKind, "release"⟩ = true
      ∧ build [sources, summary.demanding 0 ⟨Link.wildcardKind, "release"⟩] []
          = .error (.cyclic ["summary", "summary"]) := by
  refine ⟨⟨_, @build_of_close Unit Unit [sources, summary] [] _ rfl
    (by rw [cycle?_of_sorted (by decide)]; rfl)⟩, by decide, ?_⟩
  refine build_eq_error.mpr (.inr ⟨_, _, rfl, rfl, ?_⟩)
  rw [cycle?_of_sorted (by decide)]
  rfl

end StepGraph

end BuildPipeline
