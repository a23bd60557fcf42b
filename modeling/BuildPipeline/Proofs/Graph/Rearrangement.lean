import BuildPipeline.Proofs.Graph.Waiting
import Mathlib.Data.Multiset.Basic

namespace BuildPipeline

variable {κ ρ : Type}

structure Unordered (κ ρ : Type) where
  name : String
  requires : Multiset Link
  creates : Multiset Link
  inputs : Option (List String)
  provides : List (String × ρ)
  invalid : Option Error
  work : κ

def Unordered.Apart (one other : Unordered κ ρ) : Prop :=
  ∀ link ∈ one.creates, link ∉ other.creates

namespace Step

def unordered (step : Step κ ρ) : Unordered κ ρ :=
  { step with requires := step.requires, creates := step.creates }

variable {one other : Step κ ρ}

theorem name_of_unordered (same : one.unordered = other.unordered) :
    one.name = other.name :=
  congrArg Unordered.name same

theorem mem_requires_of_unordered (same : one.unordered = other.unordered) {link : Link} :
    link ∈ one.requires ↔ link ∈ other.requires :=
  (Multiset.coe_eq_coe.mp (congrArg Unordered.requires same)).mem_iff

theorem mem_creates_of_unordered (same : one.unordered = other.unordered) {link : Link} :
    link ∈ one.creates ↔ link ∈ other.creates :=
  (Multiset.coe_eq_coe.mp (congrArg Unordered.creates same)).mem_iff

theorem waitsForAll_of_unordered (same : one.unordered = other.unordered) :
    one.waitsForAll = other.waitsForAll := by
  rw [Bool.eq_iff_iff, waitsForAll, waitsForAll, List.contains_iff_mem,
    List.contains_iff_mem, mem_requires_of_unordered same]

end Step

/-- The same steps, but for their order and the order of their links. -/
def Rearranged (steps others : List (Step κ ρ)) : Prop :=
  (steps.map Step.unordered).Perm (others.map Step.unordered)

namespace Rearranged

variable {steps others more less : List (Step κ ρ)}

theorem symm (rearranged : Rearranged steps others) : Rearranged others steps :=
  List.Perm.symm rearranged

theorem of_perm (perm : steps.Perm others) : Rearranged steps others :=
  perm.map _

theorem exists_mem (rearranged : Rearranged steps others) {step : Step κ ρ}
    (member : step ∈ steps) :
    ∃ other ∈ others, other.unordered = step.unordered :=
  List.mem_map.mp (rearranged.mem_iff.mp (List.mem_map_of_mem member))

theorem names (rearranged : Rearranged steps others) :
    (steps.map (·.name)).Perm (others.map (·.name)) := by
  have perm := List.Perm.map Unordered.name rearranged
  rwa [List.map_map, List.map_map] at perm

theorem apart (rearranged : Rearranged steps others) (apart : steps.Pairwise Step.Apart) :
    others.Pairwise Step.Apart := by
  have unordered : ∀ {steps : List (Step κ ρ)},
      (steps.map Step.unordered).Pairwise Unordered.Apart ↔ steps.Pairwise Step.Apart :=
    List.pairwise_map
  rw [← unordered] at apart ⊢
  refine (rearranged.pairwise_iff fun free link created shared => ?_).mp apart
  exact free link shared created

theorem filter (rearranged : Rearranged steps others) (keeps : String → Bool) :
    Rearranged (steps.filter fun step => keeps step.name)
      (others.filter fun step => keeps step.name) := by
  have perm := List.Perm.filter (fun step => keeps step.name) rearranged
  rwa [List.filter_map, List.filter_map] at perm

theorem append (first : Rearranged steps others) (second : Rearranged more less) :
    Rearranged (steps ++ more) (others ++ less) := by
  rw [Rearranged, List.map_append, List.map_append]
  exact List.Perm.append first second

theorem met (rearranged : Rearranged steps others) {link : Link} (met : link.Met steps) :
    link.Met others := by
  intro ordinary
  obtain ⟨provider, member, created⟩ := met ordinary
  obtain ⟨other, listed, same⟩ := rearranged.exists_mem member
  exact ⟨other, listed, (Step.mem_creates_of_unordered same).mpr created⟩

theorem unclaimed (rearranged : Rearranged steps others) {link : Link}
    (free : ∀ provider ∈ steps, link ∉ provider.creates) :
    ∀ provider ∈ others, link ∉ provider.creates := by
  intro provider member created
  obtain ⟨other, listed, same⟩ := rearranged.symm.exists_mem member
  exact free other listed ((Step.mem_creates_of_unordered same).mpr created)

end Rearranged

namespace StepGraph

variable {requested implicit asked offered : List (Step κ ρ)}

theorem rearranged_admissible (asking : Rearranged requested asked)
    (offering : Rearranged implicit offered) :
    Rearranged (admissible requested implicit) (admissible asked offered) := by
  have named : ∀ name, (requested.map (·.name)).contains name =
      (asked.map (·.name)).contains name :=
    fun name => asking.names.contains_eq
  simp only [admissible, named]
  exact offering.filter fun name => !(asked.map (·.name)).contains name

theorem Needed.rearranged (asking : Rearranged requested asked)
    (offering : Rearranged implicit offered) {step : Step κ ρ}
    (needed : Needed requested implicit step) :
    ∃ other, other.unordered = step.unordered ∧ Needed asked offered other := by
  induction needed with
  | asked listed =>
      obtain ⟨other, member, same⟩ := asking.exists_mem listed
      exact ⟨other, same, .asked member⟩
  | wanted _ requires ordinary unasked admitted created ih =>
      obtain ⟨asker, alike, needed⟩ := ih
      obtain ⟨other, member, same⟩ :=
        (rearranged_admissible asking offering).exists_mem admitted
      exact ⟨other, same, .wanted needed
        ((Step.mem_requires_of_unordered alike).mpr requires)
        ordinary (asking.unclaimed unasked) member
          ((Step.mem_creates_of_unordered same).mpr created)⟩

theorem Compatible.rearranged (asking : Rearranged requested asked)
    (offering : Rearranged implicit offered) (compatible : Compatible requested implicit) :
    Compatible asked offered := by
  have admitting := rearranged_admissible asking offering
  refine ⟨asking.names.nodup_iff.mp compatible.named, asking.apart compatible.asked,
    admitting.apart compatible.offered,
    fun step admitted needed other listed link created shared => ?_⟩
  obtain ⟨source, same, needed⟩ := needed.rearranged asking.symm offering.symm
  obtain ⟨claimant, member, alike⟩ := asking.symm.exists_mem listed
  have unasked : source ∉ requested := by
    intro asked
    have named := asking.names.subset (List.mem_map_of_mem asked)
    exact (mem_admissible.mp admitted).2 (Step.name_of_unordered same ▸ named)
  exact compatible.between source (needed.mem.resolve_left unasked) needed
    claimant member link
    ((Step.mem_creates_of_unordered alike).mpr created)
    ((Step.mem_creates_of_unordered same).mpr shared)

theorem Satisfiable.rearranged (asking : Rearranged requested asked)
    (offering : Rearranged implicit offered)
    (satisfiable : Satisfiable requested implicit) :
    Satisfiable asked offered := by
  intro step needed link requires
  obtain ⟨other, same, needed⟩ := needed.rearranged asking.symm offering.symm
  exact (asking.append (rearranged_admissible asking offering)).met
    (satisfiable other needed link ((Step.mem_requires_of_unordered same).mpr requires))

theorem unordered_nodup {closure : Closure κ ρ}
    (closed : close requested implicit = .ok closure) :
    (closure.steps.map Step.unordered).Nodup := by
  obtain ⟨named, sound⟩ := close_eq_ok closed
  obtain ⟨added, split, nodup, standing⟩ := (closed_of_close closed).exists_due
  have apart := split ▸ sound.apart
  rw [split, List.map_append]
  refine List.nodup_append.mpr
    ⟨?_, List.Nodup.map_on (fun one first other second same => ?_) nodup, ?_⟩
  · refine List.Nodup.of_map Unordered.name ?_
    rwa [List.map_map]
  · -- A step is added for a link that it creates, and nothing else may create that link.
    obtain ⟨_, due⟩ := standing one first
    obtain ⟨link, created, _⟩ := due.wanted
    exact Step.eq_of_creates apart (List.mem_append_right _ first)
      (List.mem_append_right _ second)
      created ((Step.mem_creates_of_unordered same).mp created)
  · intro kept asked taken added same
    obtain ⟨one, first, rfl⟩ := List.mem_map.mp asked
    obtain ⟨other, second, rfl⟩ := List.mem_map.mp added
    obtain ⟨_, due⟩ := standing other second
    exact due.unnamed (List.mem_map.mpr ⟨one, first, Step.name_of_unordered same⟩)

theorem unordered_mem_of_close (asking : Rearranged requested asked)
    (offering : Rearranged implicit offered) {closure other : Closure κ ρ}
    (closed : close requested implicit = .ok closure)
    (arranged : close asked offered = .ok other) {kind : Unordered κ ρ}
    (member : kind ∈ closure.steps.map Step.unordered) :
    kind ∈ other.steps.map Step.unordered := by
  obtain ⟨step, listed, rfl⟩ := List.mem_map.mp member
  have needed := ((closed_of_close closed).least step).mp listed
  obtain ⟨twin, same, needed⟩ := needed.rearranged asking offering
  exact List.mem_map.mpr ⟨twin, ((closed_of_close arranged).least twin).mpr needed, same⟩

theorem rearranged_close (asking : Rearranged requested asked)
    (offering : Rearranged implicit offered) {closure other : Closure κ ρ}
    (closed : close requested implicit = .ok closure)
    (arranged : close asked offered = .ok other) :
    Rearranged closure.steps other.steps :=
  (List.perm_ext_iff_of_nodup (unordered_nodup closed)
    (unordered_nodup arranged)).mpr fun _ =>
    ⟨unordered_mem_of_close asking offering closed arranged,
      unordered_mem_of_close asking.symm offering.symm arranged closed⟩

theorem Awaits.rearranged {steps others : List (Step κ ρ)}
    (arranged : Rearranged steps others) {before after : String}
    (awaits : Awaits steps before after) : Awaits others before after := by
  cases awaits with
  | link listed member requires ordinary created =>
      obtain ⟨source, made, same⟩ := arranged.exists_mem listed
      obtain ⟨waiter, waits, alike⟩ := arranged.exists_mem member
      rw [← Step.name_of_unordered same, ← Step.name_of_unordered alike]
      exact .link made waits ((Step.mem_requires_of_unordered alike).mpr requires) ordinary
        ((Step.mem_creates_of_unordered same).mpr created)
  | wildcard listed member requires wildcard free =>
      obtain ⟨source, made, same⟩ := arranged.exists_mem listed
      obtain ⟨waiter, waits, alike⟩ := arranged.exists_mem member
      rw [← Step.name_of_unordered same, ← Step.name_of_unordered alike]
      refine .wildcard made waits ((Step.mem_requires_of_unordered alike).mpr requires)
        wildcard ?_
      intro waiting
      -- Who waits for all is told by names, so a waiter of the name has a twin among the
      -- others.
      obtain ⟨owner, held, named⟩ := List.mem_map.mp waiting
      obtain ⟨stands, waitsForAll⟩ := List.mem_filter.mp held
      obtain ⟨twin, found, equal⟩ := arranged.symm.exists_mem stands
      refine free (List.mem_map.mpr ⟨twin, List.mem_filter.mpr ⟨found, ?_⟩, ?_⟩)
      · rw [Step.waitsForAll_of_unordered equal, waitsForAll]
      · rw [Step.name_of_unordered equal, named, Step.name_of_unordered same]

theorem exists_build_iff :
    (∃ graph, build requested implicit = .ok graph)
      ↔ ∃ closure, close requested implicit = .ok closure
          ∧ (ofClosure closure).Acyclic := by
  constructor
  · rintro ⟨graph, built⟩
    have acyclic := acyclic_of_build built
    obtain ⟨closure, closed, rfl⟩ := build_eq_ok built
    exact ⟨closure, closed, acyclic⟩
  · rintro ⟨closure, closed, acyclic⟩
    exact ⟨ofClosure closure, build_of_close closed
      ((acyclic_ofClosure_iff closed).mp acyclic)⟩

theorem exists_build_of_rearranged (asking : Rearranged requested asked)
    (offering : Rearranged implicit offered)
    (builds : ∃ graph, build requested implicit = .ok graph) :
    ∃ graph, build asked offered = .ok graph := by
  obtain ⟨closure, closed, acyclic⟩ := exists_build_iff.mp builds
  obtain ⟨compatible, satisfiable⟩ := exists_close_iff.mp ⟨closure, closed⟩
  obtain ⟨other, arranged⟩ := exists_close_iff.mpr
    ⟨compatible.rearranged asking offering, satisfiable.rearranged asking offering⟩
  have back := (rearranged_close asking offering closed arranged).symm
  refine exists_build_iff.mpr ⟨other, arranged, fun name around => acyclic name ?_⟩
  refine around.lift id fun before after edge => ?_
  exact (precedes_ofClosure closed).mpr
    (((precedes_ofClosure arranged).mp edge).rearranged back)

theorem Needed.perm (asking : requested.Perm asked) (offering : implicit.Perm offered)
    {step : Step κ ρ} (needed : Needed requested implicit step) :
    Needed asked offered step := by
  induction needed with
  | asked listed => exact .asked (asking.subset listed)
  | wanted _ requires ordinary unasked admitted created ih =>
      obtain ⟨listed, unnamed⟩ := mem_admissible.mp admitted
      refine .wanted ih requires ordinary (fun provider member => ?_)
        (mem_admissible.mpr ⟨offering.subset listed, fun named => ?_⟩) created
      · exact unasked provider (asking.symm.subset member)
      · exact unnamed ((asking.map _).symm.subset named)

theorem nodup_of_build {graph : StepGraph κ ρ}
    (built : build requested implicit = .ok graph) :
    graph.steps.Nodup := by
  obtain ⟨closure, closed, rfl⟩ := build_eq_ok built
  exact (unordered_nodup closed).of_map

/-- However the steps that are asked for and the implicit ones are listed, and however
each of them lists its links: a graph is built or it is not, and if it is, it has the same
edges, and the same steps but for the order of their links. -/
theorem build_rearranged (asking : Rearranged requested asked)
    (offering : Rearranged implicit offered) :
    ((∃ graph, build requested implicit = .ok graph)
      ↔ ∃ graph, build asked offered = .ok graph)
      ∧ ∀ graph other, build requested implicit = .ok graph →
          build asked offered = .ok other →
          Rearranged graph.steps other.steps ∧ graph.edges.Perm other.edges
            ∧ (requested.Perm asked → implicit.Perm offered →
                graph.steps.Perm other.steps) := by
  refine ⟨⟨exists_build_of_rearranged asking offering,
      exists_build_of_rearranged asking.symm offering.symm⟩,
    fun graph other built arranged => ?_⟩
  have same : Rearranged graph.steps other.steps := by
    obtain ⟨closure, closed, rfl⟩ := build_eq_ok built
    obtain ⟨_, closed', rfl⟩ := build_eq_ok arranged
    exact rearranged_close asking offering closed closed'
  refine ⟨same, ?_, fun asking offering => ?_⟩
  · refine (List.perm_ext_iff_of_nodup (anchored_of_build built).edges_nodup
      (anchored_of_build arranged).edges_nodup).mpr fun edge =>
      ⟨fun member => ?_, fun member => ?_⟩
    · exact (precedes_iff_awaits arranged).mpr
        (((precedes_iff_awaits built).mp member).rearranged same)
    · exact (precedes_iff_awaits built).mpr
        (((precedes_iff_awaits arranged).mp member).rearranged same.symm)
  · refine (List.perm_ext_iff_of_nodup (nodup_of_build built) (nodup_of_build arranged)).mpr
      fun step => ?_
    rw [(closed_of_build built).least, (closed_of_build arranged).least]
    exact ⟨.perm asking offering, .perm asking.symm offering.symm⟩

def survey (tags : List String) : Step Unit Unit :=
  { name := "survey", requires := tags.map Link.internalImage, work := () }

def base : Step Unit Unit :=
  { name := "base", creates := [.internalImage "base"], work := () }

theorem survey_rearranged :
    Rearranged [survey ["base", "src"]] [survey ["src", "base"]]
      ∧ Rearranged [base, sources] [sources, base]
      ∧ ∃ graph, build [survey ["base", "src"]] [base, sources] = .ok graph
          ∧ (∃ other, build [survey ["src", "base"]] [sources, base] = .ok other
            ∧ Rearranged graph.steps other.steps ∧ graph.edges.Perm other.edges)
          ∧ ∃ other, build [survey ["base", "src"]] [sources, base] = .ok other
            ∧ graph.steps.Perm other.steps := by
  have swapped : (survey ["base", "src"]).unordered =
      (survey ["src", "base"]).unordered := by
    have links : (survey ["base", "src"]).requires.Perm (survey ["src", "base"]).requires :=
      List.Perm.swap _ _ _
    rw [Step.unordered, Multiset.coe_eq_coe.mpr links]
    rfl
  have kept : Rearranged [survey ["base", "src"]] [survey ["base", "src"]] :=
    .of_perm (.refl _)
  have asking : Rearranged [survey ["base", "src"]] [survey ["src", "base"]] :=
    List.Perm.of_eq (by rw [List.map_singleton, List.map_singleton, swapped])
  have listed : [base, sources].Perm [sources, base] := .swap _ _ _
  have offering : Rearranged [base, sources] [sources, base] := .of_perm listed
  have built := @build_of_close Unit Unit [survey ["base", "src"]] [base, sources] _ rfl
    (by rw [cycle?_of_sorted (by decide)]; rfl)
  obtain ⟨other, arranged⟩ := (build_rearranged asking offering).1.mp ⟨_, built⟩
  obtain ⟨last, permuted⟩ := (build_rearranged kept offering).1.mp ⟨_, built⟩
  obtain ⟨steps, edges, _⟩ := (build_rearranged asking offering).2 _ _ built arranged
  obtain ⟨_, _, perm⟩ := (build_rearranged kept offering).2 _ _ built permuted
  exact ⟨asking, offering, _, built, ⟨other, arranged, steps, edges⟩, last, permuted,
    perm (.refl _) listed⟩

end StepGraph

end BuildPipeline
