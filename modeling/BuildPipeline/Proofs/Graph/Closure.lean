import BuildPipeline.Graph.Build
import BuildPipeline.Proofs.Answer
import BuildPipeline.Proofs.Graph.Acyclic
import Mathlib.Data.List.Nodup

namespace BuildPipeline

variable {κ ρ : Type}

/-- Two steps that create no link in common. -/
def Step.Apart (one other : Step κ ρ) : Prop :=
  ∀ link ∈ one.creates, link ∉ other.creates

namespace Producers

/-- The producers of the links of a list of steps, in its order. -/
def claims (steps : List (Step κ ρ)) : Producers κ ρ :=
  steps.flatMap fun step => step.creates.map fun link => (link, step)

theorem mem_of_get?_claims {steps : List (Step κ ρ)} {link : Link} {step : Step κ ρ}
    (found : (claims steps).get? link = some step) :
    step ∈ steps ∧ link ∈ step.creates := by
  obtain ⟨entry, hentry, rfl⟩ := Option.map_eq_some_iff.mp found
  have same : entry.1 = link := by simpa using List.find?_some hentry
  obtain ⟨creator, member, hlink⟩ := List.mem_flatMap.mp (List.mem_of_find?_eq_some hentry)
  obtain ⟨created, hcreated, rfl⟩ := List.mem_map.mp hlink
  exact ⟨member, same ▸ hcreated⟩

theorem get?_claims_eq_none_iff {steps : List (Step κ ρ)} {link : Link} :
    (claims steps).get? link = none ↔ ∀ step ∈ steps, link ∉ step.creates := by
  rw [get?, Option.map_eq_none_iff, List.find?_eq_none]
  constructor
  · intro unknown step member created
    refine unknown (link, step) ?_ (by simp)
    exact List.mem_flatMap.mpr ⟨step, member, List.mem_map.mpr ⟨link, created, rfl⟩⟩
  · intro fresh entry member same
    obtain ⟨creator, listed, hlink⟩ := List.mem_flatMap.mp member
    obtain ⟨created, hcreated, rfl⟩ := List.mem_map.mp hlink
    have same : created = link := by simpa using same
    exact fresh creator listed (same ▸ hcreated)

theorem claim_claims {steps : List (Step κ ρ)} {step : Step κ ρ} {producers : Producers κ ρ}
    (claimed : (claims steps).claim step = .ok producers) :
    producers = claims (steps ++ [step]) ∧ ∀ other ∈ steps, other.Apart step := by
  unfold claim at claimed
  split at claimed
  · cases claimed
  · rename_i free
    cases claimed
    refine ⟨by simp [claims], fun other member link created shared => ?_⟩
    have unknown := List.findSome?_eq_none_iff.mp free link shared
    rw [Option.map_eq_none_iff, get?_claims_eq_none_iff] at unknown
    exact unknown other member created

theorem pairwise_snoc {steps : List (Step κ ρ)} {step : Step κ ρ}
    (apart : steps.Pairwise Step.Apart) (fresh : ∀ other ∈ steps, other.Apart step) :
    (steps ++ [step]).Pairwise Step.Apart := by
  refine List.pairwise_append.mpr ⟨apart, List.pairwise_singleton _ _,
    fun other member last => ?_⟩
  intro listed
  rw [List.mem_singleton.mp listed]
  exact fresh other member

theorem foldlM_claim {before steps : List (Step κ ρ)} {producers : Producers κ ρ}
    (claimed : steps.foldlM claim (claims before) = .ok producers)
    (apart : before.Pairwise Step.Apart) :
    producers = claims (before ++ steps) ∧ (before ++ steps).Pairwise Step.Apart := by
  induction steps generalizing before with
  | nil =>
      cases claimed
      simpa using apart
  | cons step rest ih =>
      rw [List.foldlM_cons, Answer.bind_eq_ok] at claimed
      obtain ⟨_, taken, claimed⟩ := claimed
      obtain ⟨rfl, fresh⟩ := claim_claims taken
      have later := ih claimed (pairwise_snoc apart fresh)
      rwa [List.append_assoc, List.singleton_append] at later

theorem ofSteps_eq {steps : List (Step κ ρ)} {producers : Producers κ ρ}
    (claimed : ofSteps steps = .ok producers) :
    producers = claims steps ∧ steps.Pairwise Step.Apart := by
  have from_none : steps.foldlM claim (claims []) = .ok producers := claimed
  exact foldlM_claim from_none List.Pairwise.nil

end Producers

namespace Closure

/-- What is true of the closure all along. -/
structure Sound (requested implicit : List (Step κ ρ)) (closure : Closure κ ρ) : Prop where
  added : ∃ added, closure.steps = requested ++ added
    ∧ ∀ step ∈ added, step ∈ implicit ∧ step.creates ≠ []
  producers : closure.producers = Producers.claims closure.steps
  apart : closure.steps.Pairwise Step.Apart

variable {requested implicit optional : List (Step κ ρ)} {closure next : Closure κ ρ}

theorem Sound.demand (sound : Sound requested implicit closure)
    (among : ∀ step ∈ optional, step ∈ implicit) {step : Step κ ρ} {link : Link}
    (demanded : closure.demand (Producers.claims optional) step link = .ok next) :
    Sound requested implicit next := by
  unfold Closure.demand at demanded
  split at demanded
  · cases demanded
    exact sound
  · split at demanded
    · cases demanded
    · rename_i candidate found
      obtain ⟨listed, creates⟩ := Producers.mem_of_get?_claims found
      rw [sound.producers, Answer.bind_eq_ok] at demanded
      obtain ⟨producers, claimed, grown⟩ := demanded
      cases grown
      obtain ⟨rfl, fresh⟩ := Producers.claim_claims claimed
      obtain ⟨added, split, each⟩ := sound.added
      refine ⟨⟨added ++ [candidate], by simp [split], fun other member => ?_⟩, rfl,
        Producers.pairwise_snoc sound.apart fresh⟩
      rcases List.mem_append.mp member with member | member
      · exact each other member
      · rw [List.mem_singleton.mp member]
        exact ⟨among candidate listed, List.ne_nil_of_mem creates⟩

theorem Sound.advance (sound : Sound requested implicit closure)
    (among : ∀ step ∈ optional, step ∈ implicit)
    (advanced : closure.advance (Producers.claims optional) = .ok next) :
    Sound requested implicit next := by
  unfold Closure.advance at advanced
  split at advanced
  · cases advanced
    exact sound
  · refine Answer.foldlM_keeps _ (fun sound demanded => sound.demand among demanded)
      ?_ advanced
    exact ⟨sound.added, sound.producers, sound.apart⟩

theorem Sound.run (sound : Sound requested implicit closure)
    (among : ∀ step ∈ optional, step ∈ implicit) {fuel : Nat}
    (ran : Closure.run (Producers.claims optional) fuel closure = .ok next) :
    Sound requested implicit next := by
  induction fuel generalizing closure with
  | zero =>
      cases ran
      exact sound
  | succ fuel ih =>
      rw [Closure.run] at ran
      split at ran
      · cases ran
        exact sound
      · obtain ⟨_, advanced, ran⟩ := Answer.bind_eq_ok.mp ran
        exact ih (sound.advance among advanced) ran

end Closure

namespace StepGraph

variable {requested implicit : List (Step κ ρ)}

theorem checkNames_eq_ok {seen : List String} {steps : List (Step κ ρ)}
    (checked : checkNames seen steps = .ok ()) :
    (steps.map (·.name)).Nodup ∧ ∀ step ∈ steps, step.name ∉ seen := by
  induction steps generalizing seen with
  | nil => simp
  | cons step rest ih =>
      rw [checkNames] at checked
      split at checked
      · cases checked
      · rename_i fresh
        obtain ⟨nodup, unseen⟩ := ih checked
        refine ⟨List.nodup_cons.mpr ⟨fun member => ?_, nodup⟩, ?_⟩
        · obtain ⟨other, listed, same⟩ := List.mem_map.mp member
          exact unseen other listed (same ▸ List.mem_cons_self)
        · rintro other member
          rcases List.mem_cons.mp member with rfl | later
          · exact fresh
          · exact fun known => unseen other later (List.mem_cons_of_mem _ known)

theorem close_eq_ok {closure : Closure κ ρ}
    (closed : close requested implicit = .ok closure) :
    (requested.map (·.name)).Nodup ∧ closure.Sound requested implicit := by
  unfold close at closed
  obtain ⟨_, named, closed⟩ := Answer.bind_eq_ok.mp closed
  obtain ⟨producers, claimed, closed⟩ := Answer.bind_eq_ok.mp closed
  obtain ⟨optional, offered, ran⟩ := Answer.bind_eq_ok.mp closed
  obtain ⟨rfl, apart⟩ := Producers.ofSteps_eq claimed
  obtain ⟨rfl, _⟩ := Producers.ofSteps_eq offered
  have start : Closure.Sound requested implicit
      ⟨requested, Producers.claims requested, requested⟩ :=
    ⟨⟨[], by simp, by simp⟩, rfl, apart⟩
  exact ⟨(checkNames_eq_ok named).1,
    start.run (fun _ member => (List.mem_filter.mp member).1) ran⟩

theorem build_eq_ok {graph : StepGraph κ ρ} (built : build requested implicit = .ok graph) :
    ∃ closure, close requested implicit = .ok closure
      ∧ graph = ⟨closure.steps, edgesAmong closure.steps closure.producers⟩ := by
  unfold build at built
  obtain ⟨closure, closed, built⟩ := Answer.bind_eq_ok.mp built
  refine ⟨closure, closed, ?_⟩
  dsimp only at built
  split at built
  · cases built
  · cases built
    rfl

theorem undisputed_of_build {graph : StepGraph κ ρ}
    (built : build requested implicit = .ok graph) :
    (requested.map (·.name)).Nodup ∧ graph.steps.Pairwise Step.Apart := by
  obtain ⟨closure, closed, rfl⟩ := build_eq_ok built
  exact (close_eq_ok closed).imp_right Closure.Sound.apart

theorem build_of_close {closure : Closure κ ρ}
    (closed : close requested implicit = .ok closure)
    (free : cycle? (closure.steps.map (·.name))
      (edgesAmong closure.steps closure.producers) = none) :
    build requested implicit =
      .ok ⟨closure.steps, edgesAmong closure.steps closure.producers⟩ := by
  unfold build
  rw [closed]
  simp only [bind, Except.bind, names, free]
  rfl

theorem cycle?_of_sorted {names : List String} {edges : List Edge}
    (sorted : edges.Pairwise fun a b =>
      (decide (a.1 < b.1) || (a.1 == b.1 && decide (a.2 ≤ b.2))) = true) :
    cycle? names edges =
      Search.from? (fun name => (edges.filter fun edge => edge.1 == name).map (·.2))
        (2 * names.length + edges.length + 1) [] names := by
  rw [cycle?, Edge.sort, List.mergeSort_of_pairwise sorted]

theorem nodup_eraseDups (edges : List Edge) : edges.eraseDups.Nodup := by
  induction length : edges.length using Nat.strong_induction_on generalizing edges with
  | _ bound ih =>
      cases edges with
      | nil => simp
      | cons edge rest =>
          rw [List.eraseDups_cons]
          refine List.nodup_cons.mpr ⟨by simp [List.mem_eraseDups], ih _ ?_ _ rfl⟩
          rw [← length]
          exact Nat.lt_succ_of_le (List.length_filter_le _ _)

theorem mem_edgesAmong {steps : List (Step κ ρ)} {before after : String}
    (edge : (before, after) ∈ edgesAmong steps (Producers.claims steps)) :
    before ∈ steps.map (·.name) ∧ after ∈ steps.map (·.name) := by
  rw [edgesAmong, List.mem_eraseDups, List.mem_flatMap] at edge
  obtain ⟨step, member, edge⟩ := edge
  obtain ⟨link, _, edge⟩ := List.mem_flatMap.mp edge
  split at edge
  · obtain ⟨other, free, same⟩ := List.mem_map.mp edge
    cases same
    exact ⟨List.mem_map_of_mem (List.mem_filter.mp free).1, List.mem_map_of_mem member⟩
  · split at edge
    · rename_i producer found
      cases List.mem_singleton.mp edge
      exact ⟨List.mem_map_of_mem (Producers.mem_of_get?_claims found).1,
        List.mem_map_of_mem member⟩
    · cases edge

/-- Whatever is built is anchored, also if two of its steps share a name. -/
theorem anchored_of_build {graph : StepGraph κ ρ}
    (built : build requested implicit = .ok graph) :
    graph.Anchored := by
  obtain ⟨closure, closed, rfl⟩ := build_eq_ok built
  have producers := (close_eq_ok closed).2.producers
  refine ⟨nodup_eraseDups _, fun edge => ?_, fun edge => ?_⟩
  · rw [producers] at edge
    exact (mem_edgesAmong edge).1
  · rw [producers] at edge
    exact (mem_edgesAmong edge).2

theorem wellFormed_of_build {graph : StepGraph κ ρ}
    (built : build requested implicit = .ok graph) (named : graph.names.Nodup) :
    graph.WellFormed :=
  { anchored_of_build built with names_nodup := named }

end StepGraph

end BuildPipeline
