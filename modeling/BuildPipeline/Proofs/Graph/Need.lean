import BuildPipeline.Proofs.Graph.Closure

namespace BuildPipeline

variable {κ ρ : Type} {requested implicit : List (Step κ ρ)}

instance : Std.Symm (Step.Apart : Step κ ρ → Step κ ρ → Prop) where
  symm _ _ apart link created shared := apart link shared created

instance (one other : Step κ ρ) : Decidable (one.Apart other) :=
  inferInstanceAs (Decidable (∀ link ∈ one.creates, link ∉ other.creates))

theorem Step.eq_of_creates {steps : List (Step κ ρ)} (apart : steps.Pairwise Step.Apart)
    {one other : Step κ ρ} (first : one ∈ steps) (second : other ∈ steps) {link : Link}
    (created : link ∈ one.creates) (shared : link ∈ other.creates) : one = other := by
  by_contra different
  exact apart.forall first second different link created shared

/-- A link that is required is met by a step that creates it; a wildcard needs no
producer. -/
def Link.Met (steps : List (Step κ ρ)) (link : Link) : Prop :=
  link.isWildcard = false → ∃ provider ∈ steps, link ∈ provider.creates

instance (steps : List (Step κ ρ)) (link : Link) : Decidable (link.Met steps) :=
  inferInstanceAs
    (Decidable (link.isWildcard = false → ∃ provider ∈ steps, link ∈ provider.creates))

theorem Link.Met.append {steps : List (Step κ ρ)} {link : Link} (met : link.Met steps)
    (more : List (Step κ ρ)) : link.Met (steps ++ more) := by
  intro ordinary
  obtain ⟨provider, member, created⟩ := met ordinary
  exact ⟨provider, List.mem_append_left _ member, created⟩

namespace StepGraph

/-- The implicit steps that may be added: those that are not named like a step asked for. -/
def admissible (requested implicit : List (Step κ ρ)) : List (Step κ ρ) :=
  implicit.filter fun step => !(requested.map (·.name)).contains step.name

theorem mem_admissible {step : Step κ ρ} :
    step ∈ admissible requested implicit
      ↔ step ∈ implicit ∧ step.name ∉ requested.map (·.name) := by
  simp [admissible]

/-- The steps that the requested ones need: themselves, and whatever creates a link that
one of the needed steps requires and no requested step creates. -/
inductive Needed (requested implicit : List (Step κ ρ)) : Step κ ρ → Prop
  | asked {step : Step κ ρ} : step ∈ requested → Needed requested implicit step
  | wanted {asker step : Step κ ρ} {link : Link} : Needed requested implicit asker →
      link ∈ asker.requires → link.isWildcard = false →
      (∀ provider ∈ requested, link ∉ provider.creates) →
      step ∈ admissible requested implicit → link ∈ step.creates →
        Needed requested implicit step

theorem Needed.mem {step : Step κ ρ} (needed : Needed requested implicit step) :
    step ∈ requested ∨ step ∈ admissible requested implicit := by
  cases needed with
  | asked listed => exact .inl listed
  | wanted _ _ _ _ admitted _ => exact .inr admitted

/-- The lists that the closure goes through: a step is added when an earlier one requires
a link of it that no earlier one creates. -/
inductive Grown (requested implicit : List (Step κ ρ)) : List (Step κ ρ) → Prop
  | start : Grown requested implicit requested
  | add {steps : List (Step κ ρ)} {asker step : Step κ ρ} {link : Link} :
      Grown requested implicit steps → asker ∈ steps → link ∈ asker.requires →
      link.isWildcard = false → (∀ provider ∈ steps, link ∉ provider.creates) →
      step ∈ admissible requested implicit → link ∈ step.creates →
      Grown requested implicit (steps ++ [step])

/-- Why a step stands where it does among the added ones. -/
structure Due (requested implicit earlier : List (Step κ ρ)) (step : Step κ ρ) : Prop where
  implicit : step ∈ implicit
  unnamed : step.name ∉ requested.map (·.name)
  wanted : ∃ link ∈ step.creates, link.isWildcard = false
    ∧ (∃ asker ∈ requested ++ earlier, link ∈ asker.requires)
    ∧ ∀ provider ∈ requested ++ earlier, link ∉ provider.creates

theorem Due.not_mem {earlier : List (Step κ ρ)} {step : Step κ ρ}
    (due : Due requested implicit earlier step) : step ∉ requested ++ earlier := by
  intro member
  obtain ⟨link, created, _, _, fresh⟩ := due.wanted
  exact fresh step member created

namespace Grown

variable {steps : List (Step κ ρ)}

theorem added (grown : Grown requested implicit steps) :
    ∃ added, steps = requested ++ added ∧ added.Nodup
      ∧ ∀ earlier step later, added = earlier ++ step :: later →
          Due requested implicit earlier step := by
  induction grown with
  | start => exact ⟨[], by simp, List.nodup_nil, by simp⟩
  | @add steps asker step link _ asks requires ordinary fresh admitted created ih =>
      obtain ⟨added, rfl, nodup, due⟩ := ih
      obtain ⟨listed, unnamed⟩ := mem_admissible.mp admitted
      have last : Due requested implicit added step :=
        ⟨listed, unnamed, link, created, ordinary, ⟨asker, asks, requires⟩, fresh⟩
      refine ⟨added ++ [step], List.append_assoc _ _ _, ?_,
        fun earlier other later split => ?_⟩
      · refine List.nodup_append.mpr ⟨nodup, List.nodup_singleton step, ?_⟩
        intro other member same single equal
        rw [List.mem_singleton.mp single] at equal
        exact last.not_mem (List.mem_append_right _ (equal ▸ member))
      · rcases List.eq_nil_or_concat later with rfl | ⟨between, final, rfl⟩
        · obtain ⟨rfl, same⟩ := List.append_inj' split rfl
          cases same
          exact last
        · rw [List.concat_eq_append, ← List.cons_append, ← List.append_assoc] at split
          exact due _ _ _ (List.append_inj' split rfl).1

theorem mem_or_admissible (grown : Grown requested implicit steps) {step : Step κ ρ}
    (member : step ∈ steps) : step ∈ requested ∨ step ∈ admissible requested implicit := by
  induction grown with
  | start => exact .inl member
  | add _ _ _ _ _ admitted _ ih =>
      rcases List.mem_append.mp member with earlier | last
      · exact ih earlier
      · exact .inr (List.mem_singleton.mp last ▸ admitted)

theorem requested_mem (grown : Grown requested implicit steps) {step : Step κ ρ}
    (asked : step ∈ requested) : step ∈ steps := by
  obtain ⟨added, rfl, _⟩ := grown.added
  exact List.mem_append_left _ asked

theorem needed (grown : Grown requested implicit steps) :
    ∀ step ∈ steps, Needed requested implicit step := by
  induction grown with
  | start => exact fun _ => .asked
  | add grown asks requires ordinary fresh admitted created ih =>
      intro other member
      rcases List.mem_append.mp member with earlier | last
      · exact ih other earlier
      · rw [List.mem_singleton.mp last]
        exact .wanted (ih _ asks) requires ordinary
          (fun provider asked => fresh provider (grown.requested_mem asked))
          admitted created

theorem length_le (grown : Grown requested implicit steps) :
    steps.length ≤ requested.length + implicit.length := by
  obtain ⟨added, rfl, nodup, due⟩ := grown.added
  have among : added ⊆ implicit := by
    intro step member
    obtain ⟨earlier, later, split⟩ := List.append_of_mem member
    exact (due earlier step later split).implicit
  rw [List.length_append]
  exact Nat.add_le_add_left (nodup.subperm among).length_le _

end Grown

theorem mem_of_needed {steps : List (Step κ ρ)} (grown : Grown requested implicit steps)
    (met : ∀ step ∈ steps, ∀ link ∈ step.requires, link.Met steps)
    (apart : (admissible requested implicit).Pairwise Step.Apart) {step : Step κ ρ}
    (needed : Needed requested implicit step) : step ∈ steps := by
  induction needed with
  | asked asked => exact grown.requested_mem asked
  | wanted _ requires ordinary unasked admitted created ih =>
      obtain ⟨provider, member, shared⟩ := met _ ih _ requires ordinary
      rcases grown.mem_or_admissible member with asked | optional
      · exact absurd shared (unasked provider asked)
      · exact Step.eq_of_creates apart optional admitted shared created ▸ member

/-- Why a closure fails. -/
inductive Fault (requested implicit : List (Step κ ρ)) : Failure → Prop
  | unmet {step : Step κ ρ} {link : Link} : Needed requested implicit step →
      link ∈ step.requires →
      ¬ link.Met (requested ++ admissible requested implicit) →
      Fault requested implicit (.unsatisfiable step.name link.text)
  | disputed (link one other : String) :
      ¬ ((requested.map (·.name)).Nodup
        ∧ (requested ++ admissible requested implicit).Pairwise Step.Apart) →
      Fault requested implicit (.duplicateProvider link one other)

def Satisfiable (requested implicit : List (Step κ ρ)) : Prop :=
  ∀ step, Needed requested implicit step → ∀ link ∈ step.requires,
    link.Met (requested ++ admissible requested implicit)

/-- When no name and no link has two claimants: among the steps asked for, among the
implicit steps that may be added, and between a step asked for and one that is needed. -/
structure Compatible (requested implicit : List (Step κ ρ)) : Prop where
  named : (requested.map (·.name)).Nodup
  asked : requested.Pairwise Step.Apart
  offered : (admissible requested implicit).Pairwise Step.Apart
  between : ∀ step ∈ admissible requested implicit, Needed requested implicit step →
    ∀ other ∈ requested, other.Apart step

theorem compatible_of_apart (named : (requested.map (·.name)).Nodup)
    (apart : (requested ++ admissible requested implicit).Pairwise Step.Apart) :
    Compatible requested implicit := by
  obtain ⟨asked, offered, between⟩ := List.pairwise_append.mp apart
  exact ⟨named, asked, offered, fun step admitted _ other member =>
    between other member step admitted⟩

/-- The reasons of a closure that fails, a dispute about a link that nobody needs told
apart. -/
inductive Cause (requested implicit : List (Step κ ρ)) : Failure → Prop
  | unmet {step : Step κ ρ} {link : Link} : Needed requested implicit step →
      link ∈ step.requires →
      ¬ link.Met (requested ++ admissible requested implicit) →
      Cause requested implicit (.unsatisfiable step.name link.text)
  | disputed (link one other : String) : ¬ Compatible requested implicit →
      Cause requested implicit (.duplicateProvider link one other)

theorem Cause.fault {failure : Failure} (cause : Cause requested implicit failure) :
    Fault requested implicit failure := by
  cases cause with
  | unmet needed requires unmet => exact .unmet needed requires unmet
  | disputed link one other incompatible =>
      exact .disputed link one other fun free =>
        incompatible (compatible_of_apart free.1 free.2)

end StepGraph

namespace Producers

theorem has_claims_iff {steps : List (Step κ ρ)} {link : Link} :
    (claims steps).has link ↔ ∃ provider ∈ steps, link ∈ provider.creates := by
  constructor
  · intro known
    obtain ⟨entry, member, same⟩ := List.any_eq_true.mp known
    obtain ⟨provider, listed, entered⟩ := List.mem_flatMap.mp member
    obtain ⟨created, creates, rfl⟩ := List.mem_map.mp entered
    exact ⟨provider, listed, (beq_iff_eq.mp same : created = link) ▸ creates⟩
  · rintro ⟨provider, listed, creates⟩
    refine List.any_eq_true.mpr ⟨(link, provider), ?_, beq_self_eq_true link⟩
    exact List.mem_flatMap.mpr ⟨provider, listed, List.mem_map.mpr ⟨link, creates, rfl⟩⟩

theorem claim_error {steps : List (Step κ ρ)} {step : Step κ ρ} {failure : Failure}
    (failed : (claims steps).claim step = .error failure) :
    ∃ other ∈ steps, ∃ link ∈ step.creates, link ∈ other.creates
      ∧ failure = .duplicateProvider link.text other.name step.name := by
  unfold claim at failed
  split at failed
  · rename_i link other found
    cases failed
    obtain ⟨created, listed, claimed⟩ := List.exists_of_findSome?_eq_some found
    obtain ⟨_, known, same⟩ := Option.map_eq_some_iff.mp claimed
    cases same
    obtain ⟨member, shared⟩ := mem_of_get?_claims known
    exact ⟨other, member, link, listed, shared, rfl⟩
  · cases failed

theorem foldlM_claim_error {before steps : List (Step κ ρ)} {failure : Failure}
    (failed : steps.foldlM claim (claims before) = .error failure) :
    (∃ link one other, failure = .duplicateProvider link one other)
      ∧ ¬ (before ++ steps).Pairwise Step.Apart := by
  induction steps generalizing before with
  | nil => cases failed
  | cons step rest ih =>
      rw [List.foldlM_cons] at failed
      cases claimed : (claims before).claim step with
      | ok producers =>
          obtain ⟨rfl, _⟩ := claim_claims claimed
          rw [claimed] at failed
          obtain ⟨duplicate, shared⟩ := ih failed
          rw [List.append_assoc] at shared
          exact ⟨duplicate, shared⟩
      | error other =>
          rw [claimed] at failed
          cases failed
          obtain ⟨other, member, link, created, shared, rfl⟩ := claim_error claimed
          refine ⟨⟨_, _, _, rfl⟩, fun apart => ?_⟩
          exact (List.pairwise_append.mp apart).2.2 other member step
            List.mem_cons_self link shared created

theorem ofSteps_error {steps : List (Step κ ρ)} {failure : Failure}
    (failed : ofSteps steps = .error failure) :
    (∃ link one other, failure = .duplicateProvider link one other)
      ∧ ¬ steps.Pairwise Step.Apart := by
  have from_none : steps.foldlM claim (claims []) = .error failure := failed
  exact foldlM_claim_error from_none

end Producers

namespace Closure

open StepGraph

/-- Where the loop comes to when nothing bounds its turns. -/
inductive Ends (optional : Producers κ ρ) :
    Closure κ ρ → Except Failure (Closure κ ρ) → Prop
  | done {closure : Closure κ ρ} : closure.queue = [] → Ends optional closure (.ok closure)
  | fails {closure : Closure κ ρ} {failure : Failure} : closure.queue ≠ [] →
      closure.advance optional = .error failure → Ends optional closure (.error failure)
  | next {closure next : Closure κ ρ} {outcome : Except Failure (Closure κ ρ)} :
      closure.queue ≠ [] → closure.advance optional = .ok next →
        Ends optional next outcome →
      Ends optional closure outcome

/-- What is true of the closure all along: the steps that left the queue come first, and
the links looked at are met. -/
structure Closing (requested implicit done : List (Step κ ρ)) (looked : List Link)
    (closure : Closure κ ρ) : Prop where
  grown : Grown requested implicit closure.steps
  producers : closure.producers = Producers.claims closure.steps
  split : closure.steps = done ++ closure.queue
  met : ∀ link ∈ looked, link.Met closure.steps

variable {done : List (Step κ ρ)} {looked : List Link} {closure : Closure κ ρ}

theorem Closing.look (closing : Closing requested implicit done looked closure)
    {link : Link} (met : link.Met closure.steps) :
    Closing requested implicit done (looked ++ [link]) closure := by
  refine ⟨closing.grown, closing.producers, closing.split, fun other member => ?_⟩
  rcases List.mem_append.mp member with earlier | last
  · exact closing.met other earlier
  · exact List.mem_singleton.mp last ▸ met

theorem Closing.join (closing : Closing requested implicit done looked closure)
    {asker candidate : Step κ ρ} {link : Link} (asks : asker ∈ closure.steps)
    (requires : link ∈ asker.requires) (ordinary : link.isWildcard = false)
    (fresh : ∀ provider ∈ closure.steps, link ∉ provider.creates)
    (admitted : candidate ∈ admissible requested implicit)
    (created : link ∈ candidate.creates) :
    Closing requested implicit done (looked ++ [link])
      ⟨closure.steps ++ [candidate], Producers.claims (closure.steps ++ [candidate]),
        closure.queue ++ [candidate]⟩ := by
  have joined : Closing requested implicit done looked
      ⟨closure.steps ++ [candidate], Producers.claims (closure.steps ++ [candidate]),
        closure.queue ++ [candidate]⟩ := by
    refine ⟨closing.grown.add asks requires ordinary fresh admitted created, rfl, ?_, ?_⟩
    · rw [closing.split, List.append_assoc]
    · exact fun other member => (closing.met other member).append _
  exact joined.look fun _ => ⟨candidate, by simp, created⟩

theorem Closing.disputed (closing : Closing requested implicit done looked closure)
    {asker candidate : Step κ ρ} {link : Link} (asks : asker ∈ closure.steps)
    (requires : link ∈ asker.requires) (ordinary : link.isWildcard = false)
    (fresh : ∀ provider ∈ closure.steps, link ∉ provider.creates)
    (admitted : candidate ∈ admissible requested implicit)
    (created : link ∈ candidate.creates) {failure : Failure}
    (failed : (Producers.claims closure.steps).claim candidate = .error failure) :
    Cause requested implicit failure := by
  obtain ⟨other, member, common, ours, theirs, rfl⟩ := Producers.claim_error failed
  refine .disputed _ _ _ fun compatible => ?_
  rcases closing.grown.mem_or_admissible member with asked | optional
  · have unasked : ∀ provider ∈ requested, link ∉ provider.creates := fun provider listed =>
      fresh provider (closing.grown.requested_mem listed)
    have needed : Needed requested implicit candidate :=
      .wanted (closing.grown.needed asker asks) requires ordinary unasked admitted created
    exact compatible.between candidate admitted needed other asked common theirs ours
  · have same := Step.eq_of_creates compatible.offered optional admitted theirs ours
    exact fresh other member (same ▸ created)

theorem Closing.demand (closing : Closing requested implicit done looked closure)
    {asker : Step κ ρ} (asks : asker ∈ closure.steps) {link : Link}
    (requires : link ∈ asker.requires) :
    Answer.Yields (Closing requested implicit done (looked ++ [link]))
      (Cause requested implicit)
      (closure.demand (Producers.claims (admissible requested implicit)) asker link) := by
  unfold Closure.demand
  split
  · rename_i provided
    refine closing.look fun ordinary => ?_
    rw [ordinary, Bool.false_or, closing.producers] at provided
    exact Producers.has_claims_iff.mp provided
  · rename_i missing
    rw [Bool.or_eq_true, not_or, closing.producers, Producers.has_claims_iff] at missing
    have ordinary : link.isWildcard = false := Bool.eq_false_iff.mpr missing.1
    have fresh : ∀ provider ∈ closure.steps, link ∉ provider.creates :=
      fun provider member created => missing.2 ⟨provider, member, created⟩
    split
    · rename_i unknown
      refine .unmet (closing.grown.needed asker asks) requires fun met => ?_
      obtain ⟨provider, member, created⟩ := met ordinary
      rcases List.mem_append.mp member with asked | optional
      · exact fresh provider (closing.grown.requested_mem asked) created
      · exact Producers.get?_claims_eq_none_iff.mp unknown provider optional created
    · rename_i candidate found
      obtain ⟨admitted, created⟩ := Producers.mem_of_get?_claims found
      rw [closing.producers]
      cases claimed : (Producers.claims closure.steps).claim candidate with
      | ok producers =>
          obtain ⟨rfl, _⟩ := Producers.claim_claims claimed
          exact closing.join asks requires ordinary fresh admitted created
      | error failure =>
          exact closing.disputed asks requires ordinary fresh admitted created claimed

theorem Closing.advance
    (closing : Closing requested implicit done (done.flatMap Step.requires) closure)
    {step : Step κ ρ} {rest : List (Step κ ρ)} (queue : closure.queue = step :: rest) :
    Answer.Yields
      (Closing requested implicit (done ++ [step]) ((done ++ [step]).flatMap Step.requires))
      (Cause requested implicit)
      (closure.advance (Producers.claims (admissible requested implicit))) := by
  have first : Closing requested implicit (done ++ [step]) (done.flatMap Step.requires)
      { closure with queue := rest } := by
    refine ⟨closing.grown, closing.producers, ?_, closing.met⟩
    rw [closing.split, queue, List.append_assoc]
    rfl
  have looked : (done ++ [step]).flatMap Step.requires
      = done.flatMap Step.requires ++ step.requires := by
    simp
  rw [Closure.advance, queue, looked]
  refine Answer.Yields.foldlM first fun looked link closure requires closing => ?_
  refine closing.demand ?_ requires
  rw [closing.split]
  simp

theorem Ends.yields {outcome : Except Failure (Closure κ ρ)}
    (ends : Ends (Producers.claims (admissible requested implicit)) closure outcome)
    (closing : Closing requested implicit done (done.flatMap Step.requires) closure) :
    Answer.Yields
      (fun last =>
        Closing requested implicit last.steps (last.steps.flatMap Step.requires) last)
      (Cause requested implicit) outcome := by
  induction ends generalizing done with
  | done empty =>
      have all := closing.split
      rw [empty, List.append_nil] at all
      subst all
      exact closing
  | @fails closure failure waiting failed =>
      obtain ⟨step, rest, queue⟩ := List.exists_cons_of_ne_nil waiting
      have yields := closing.advance queue
      rwa [failed] at yields
  | next waiting advanced _ ih =>
      obtain ⟨step, rest, queue⟩ := List.exists_cons_of_ne_nil waiting
      have yields := closing.advance queue
      rw [advanced] at yields
      exact ih yields

/-- Every turn takes a step off the queue for good, and no more steps than there are can
be added. -/
theorem Closing.ends_run {fuel : Nat}
    (closing : Closing requested implicit done (done.flatMap Step.requires) closure)
    (ample : requested.length + implicit.length ≤ done.length + fuel) :
    Ends (Producers.claims (admissible requested implicit)) closure
      (Closure.run (Producers.claims (admissible requested implicit)) fuel closure) := by
  induction fuel generalizing done closure with
  | zero =>
      have bound := closing.grown.length_le
      rw [closing.split, List.length_append] at bound
      exact .done (List.eq_nil_of_length_eq_zero (by omega))
  | succ fuel ih =>
      rw [Closure.run]
      split
      · rename_i empty
        exact .done (List.isEmpty_iff.mp empty)
      · rename_i waiting
        rw [List.isEmpty_iff] at waiting
        obtain ⟨step, rest, queue⟩ := List.exists_cons_of_ne_nil waiting
        have yields := closing.advance queue
        cases advanced :
          closure.advance (Producers.claims (admissible requested implicit)) with
        | error failure => exact .fails waiting advanced
        | ok next =>
            rw [advanced] at yields
            refine .next waiting advanced (ih yields ?_)
            rw [List.length_append, List.length_singleton]
            omega

theorem closing_start (requested implicit : List (Step κ ρ)) :
    Closing requested implicit [] [] ⟨requested, Producers.claims requested, requested⟩ :=
  ⟨.start, rfl, rfl, by simp⟩

end Closure

namespace StepGraph

theorem checkNames_error {seen : List String} {steps : List (Step κ ρ)} {failure : Failure}
    (failed : checkNames seen steps = .error failure) :
    (∃ link one other, failure = .duplicateProvider link one other)
      ∧ ¬ ((steps.map (·.name)).Nodup ∧ ∀ step ∈ steps, step.name ∉ seen) := by
  induction steps generalizing seen with
  | nil => cases failed
  | cons step rest ih =>
      rw [checkNames] at failed
      split at failed
      · rename_i known
        cases failed
        exact ⟨⟨_, _, _, rfl⟩, fun free => free.2 step List.mem_cons_self known⟩
      · obtain ⟨duplicate, shared⟩ := ih failed
        refine ⟨duplicate, fun free => shared ?_⟩
        obtain ⟨nodup, unseen⟩ := free
        rw [List.map_cons, List.nodup_cons] at nodup
        refine ⟨nodup.2, fun other member => ?_⟩
        rw [List.mem_cons, not_or]
        refine ⟨fun same => nodup.1 (List.mem_map.mpr ⟨other, member, same⟩), ?_⟩
        exact unseen other (List.mem_cons_of_mem _ member)

theorem close_yields (requested implicit : List (Step κ ρ)) :
    Answer.Yields
      (fun closure =>
        Closure.Closing requested implicit closure.steps
          (closure.steps.flatMap Step.requires) closure)
      (Cause requested implicit) (close requested implicit) := by
  have named : Answer.Yields (fun _ => True) (Cause requested implicit)
      (checkNames [] requested) := by
    cases checked : checkNames [] requested with
    | ok _ => trivial
    | error failure =>
        obtain ⟨⟨link, one, other, rfl⟩, shared⟩ := checkNames_error checked
        exact .disputed _ _ _ fun compatible => shared ⟨compatible.named, by simp⟩
  have claimed : Answer.Yields (fun producers => producers = Producers.claims requested)
      (Cause requested implicit) (Producers.ofSteps requested) := by
    cases claimed : Producers.ofSteps requested with
    | ok producers => exact (Producers.ofSteps_eq claimed).1
    | error failure =>
        obtain ⟨⟨link, one, other, rfl⟩, shared⟩ := Producers.ofSteps_error claimed
        exact .disputed _ _ _ fun compatible => shared compatible.asked
  have offered : Answer.Yields
      (fun optional => optional = Producers.claims (admissible requested implicit))
      (Cause requested implicit) (Producers.ofSteps (admissible requested implicit)) := by
    cases offered : Producers.ofSteps (admissible requested implicit) with
    | ok optional => exact (Producers.ofSteps_eq offered).1
    | error failure =>
        obtain ⟨⟨link, one, other, rfl⟩, shared⟩ := Producers.ofSteps_error offered
        exact .disputed _ _ _ fun compatible => shared compatible.offered
  refine named.bind fun _ _ _ => claimed.bind ?_
  rintro _ _ rfl
  refine offered.bind ?_
  rintro _ _ rfl
  have start := Closure.closing_start requested implicit
  exact (start.ends_run (by simp)).yields start

/-- Steps that offer links in dispute are refused, whether they are needed or not. -/
theorem admissible_apart {closure : Closure κ ρ}
    (closed : close requested implicit = .ok closure) :
    (admissible requested implicit).Pairwise Step.Apart := by
  unfold close at closed
  obtain ⟨_, _, closed⟩ := Answer.bind_eq_ok.mp closed
  obtain ⟨_, _, closed⟩ := Answer.bind_eq_ok.mp closed
  obtain ⟨_, offered, _⟩ := Answer.bind_eq_ok.mp closed
  exact (Producers.ofSteps_eq offered).2

theorem closing_of_close {closure : Closure κ ρ}
    (closed : close requested implicit = .ok closure) :
    Closure.Closing requested implicit closure.steps (closure.steps.flatMap Step.requires)
      closure := by
  have yields := close_yields requested implicit
  rwa [closed] at yields

theorem cause_of_close {failure : Failure}
    (failed : close requested implicit = .error failure) :
    Cause requested implicit failure := by
  have yields := close_yields requested implicit
  rwa [failed] at yields

theorem fault_of_close {failure : Failure}
    (failed : close requested implicit = .error failure) :
    Fault requested implicit failure :=
  (cause_of_close failed).fault

theorem build_eq_error {failure : Failure} :
    build requested implicit = .error failure ↔
      close requested implicit = .error failure
        ∨ ∃ closure names, close requested implicit = .ok closure ∧ failure = .cyclic names
            ∧ cycle? (closure.steps.map (·.name))
                (edgesAmong closure.steps closure.producers) = some names := by
  unfold build
  cases closed : close requested implicit with
  | error other => simp [bind, Except.bind]
  | ok closure =>
      cases found : cycle? (closure.steps.map (·.name))
          (edgesAmong closure.steps closure.producers) with
      | none => simp [bind, Except.bind, names, found, pure, Except.pure]
      | some cycle =>
          simp [bind, Except.bind, names, found, throw, throwThe,
            MonadExceptOf.throw, eq_comm]

/-- The least closure: the requested steps, then implicit ones, each for a link that was
missing; every link has one producer, and the steps are those that are needed. -/
structure Closed (requested implicit steps : List (Step κ ρ)) : Prop where
  added : ∃ added, steps = requested ++ added ∧ added.Nodup
    ∧ ∀ earlier step later, added = earlier ++ step :: later →
        Due requested implicit earlier step
  produced : ∀ step ∈ steps, ∀ link ∈ step.requires, link.isWildcard = false →
    steps.countP (fun provider => decide (link ∈ provider.creates)) = 1
  least : ∀ step, step ∈ steps ↔ Needed requested implicit step

theorem Closed.exists_due {steps : List (Step κ ρ)}
    (closed : Closed requested implicit steps) :
    ∃ added, steps = requested ++ added ∧ added.Nodup
      ∧ ∀ step ∈ added, ∃ earlier, Due requested implicit earlier step := by
  obtain ⟨added, split, nodup, due⟩ := closed.added
  refine ⟨added, split, nodup, fun step member => ?_⟩
  obtain ⟨earlier, later, place⟩ := List.append_of_mem member
  exact ⟨earlier, due earlier step later place⟩

theorem countP_creates_le_one {steps : List (Step κ ρ)} (apart : steps.Pairwise Step.Apart)
    (link : Link) :
    steps.countP (fun provider => decide (link ∈ provider.creates)) ≤ 1 := by
  induction steps with
  | nil => simp
  | cons step rest ih =>
      obtain ⟨here, later⟩ := List.pairwise_cons.mp apart
      rw [List.countP_cons]
      split
      · rename_i created
        have none : rest.countP (fun provider => decide (link ∈ provider.creates)) = 0 := by
          refine List.countP_eq_zero.mpr fun other member => ?_
          simpa using here other member link (of_decide_eq_true created)
        omega
      · exact ih later

theorem closed_of_close {closure : Closure κ ρ}
    (closed : close requested implicit = .ok closure) :
    Closed requested implicit closure.steps := by
  have closing := closing_of_close closed
  have apart := (close_eq_ok closed).2.apart
  have met : ∀ step ∈ closure.steps, ∀ link ∈ step.requires, link.Met closure.steps :=
    fun step member link requires =>
      closing.met link (List.mem_flatMap.mpr ⟨step, member, requires⟩)
  refine ⟨closing.grown.added, fun step member link requires ordinary => ?_, fun step => ?_⟩
  · obtain ⟨provider, listed, created⟩ := met step member link requires ordinary
    refine Nat.le_antisymm (countP_creates_le_one apart link) ?_
    exact List.countP_pos_iff.mpr ⟨provider, listed, decide_eq_true created⟩
  · exact ⟨closing.grown.needed step, mem_of_needed closing.grown met
      (admissible_apart closed)⟩

theorem exists_close_iff :
    (∃ closure, close requested implicit = .ok closure)
      ↔ Compatible requested implicit ∧ Satisfiable requested implicit := by
  constructor
  · rintro ⟨closure, closed⟩
    obtain ⟨named, sound⟩ := close_eq_ok closed
    have closing := closing_of_close closed
    have least := (closed_of_close closed).least
    obtain ⟨added, split, _⟩ := closing.grown.added
    refine ⟨⟨named, ?_, admissible_apart closed,
      fun step admitted needed other asked => ?_⟩,
      fun step needed link requires ordinary => ?_⟩
    · exact (List.pairwise_append.mp (split ▸ sound.apart)).1
    · refine sound.apart.forall (closing.grown.requested_mem asked)
        ((least step).mpr needed) ?_
      rintro rfl
      exact (mem_admissible.mp admitted).2 (List.mem_map_of_mem asked)
    · obtain ⟨provider, member, created⟩ := closing.met link
        (List.mem_flatMap.mpr ⟨step, (least step).mpr needed, requires⟩) ordinary
      exact ⟨provider, List.mem_append.mpr (closing.grown.mem_or_admissible member),
        created⟩
  · rintro ⟨compatible, satisfiable⟩
    cases closed : close requested implicit with
    | ok closure => exact ⟨closure, rfl⟩
    | error failure =>
        cases cause_of_close closed with
        | unmet needed requires unmet =>
            exact absurd (satisfiable _ needed _ requires) unmet
        | disputed link one other incompatible => exact absurd compatible incompatible

theorem closed_of_build {graph : StepGraph κ ρ}
    (built : build requested implicit = .ok graph) :
    Closed requested implicit graph.steps := by
  obtain ⟨closure, closed, rfl⟩ := build_eq_ok built
  exact closed_of_close closed

/-- The closure of the requested steps: its loop ends by itself; the graph has the least
set of steps that meets all their links; and where no name and no link is disputed, it is
refused for want of a producer exactly if a needed step requires a link that nobody can
create. -/
theorem build_closes (requested implicit : List (Step κ ρ)) :
    Closure.Ends (Producers.claims (admissible requested implicit))
        ⟨requested, Producers.claims requested, requested⟩
        (Closure.run (Producers.claims (admissible requested implicit))
          (requested.length + implicit.length)
            ⟨requested, Producers.claims requested, requested⟩)
      ∧ (∀ graph, build requested implicit = .ok graph →
          Closed requested implicit graph.steps)
      ∧ ((requested.map (·.name)).Nodup →
          (requested ++ admissible requested implicit).Pairwise Step.Apart →
          ((∃ step link, build requested implicit = .error (.unsatisfiable step link))
            ↔ ∃ step, Needed requested implicit step ∧ ∃ link ∈ step.requires,
                ¬ link.Met (requested ++ admissible requested implicit))) := by
  refine ⟨(Closure.closing_start requested implicit).ends_run (by simp),
    fun _ built => closed_of_build built, ?_⟩
  intro named apart
  constructor
  · rintro ⟨step, link, refused⟩
    rcases build_eq_error.mp refused with failed | ⟨_, _, _, cyclic, _⟩
    · cases fault_of_close failed with
      | unmet needed requires unmet => exact ⟨_, needed, _, requires, unmet⟩
    · cases cyclic
  · rintro ⟨step, needed, link, requires, unmet⟩
    cases closed : close requested implicit with
    | ok closure =>
        have closing := closing_of_close closed
        have member := ((closed_of_close closed).least step).mpr needed
        have met := closing.met link (List.mem_flatMap.mpr ⟨step, member, requires⟩)
        refine absurd (fun ordinary => ?_) unmet
        obtain ⟨provider, listed, created⟩ := met ordinary
        exact ⟨provider, List.mem_append.mpr (closing.grown.mem_or_admissible listed),
          created⟩
    | error failure =>
        cases fault_of_close closed with
        | unmet _ _ _ => exact ⟨_, _, build_eq_error.mpr (.inl closed)⟩
        | disputed link one other disputed => exact absurd ⟨named, apart⟩ disputed

def probe : Step Unit Unit :=
  { name := "unit", requires := [.internalImage "bin"], work := () }

def binary : Step Unit Unit :=
  { name := "bin", requires := [.internalImage "src"],
    creates := [.internalImage "bin"], work := () }

def sources : Step Unit Unit :=
  { name := "src", creates := [.internalImage "src"], work := () }

theorem probe_closes :
    (∃ graph, build [probe] [sources, binary] = .ok graph
        ∧ Closed [probe] [sources, binary] graph.steps)
      ∧ ∃ step link, build [probe] [binary] = .error (.unsatisfiable step link) := by
  have built := @build_of_close Unit Unit [probe] [sources, binary] _ rfl
    (by rw [cycle?_of_sorted (by decide)]; rfl)
  refine ⟨⟨_, built, (build_closes _ _).2.1 _ built⟩, ?_⟩
  refine ((build_closes [probe] [binary]).2.2 (by decide) (by decide)).mpr ?_
  have asked : Needed [probe] [binary] probe := .asked List.mem_cons_self
  have requires : Link.internalImage "bin" ∈ probe.requires := by decide
  have admitted : binary ∈ admissible [probe] [binary] := by
    simp [mem_admissible, binary, probe]
  have needed : Needed [probe] [binary] binary :=
    .wanted asked requires (by decide) (by decide) admitted (by decide)
  exact ⟨binary, needed, .internalImage "src", by decide, by decide⟩

end StepGraph

end BuildPipeline
