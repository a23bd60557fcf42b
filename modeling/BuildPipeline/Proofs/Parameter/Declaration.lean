import BuildPipeline.Execution.Coordinator

namespace BuildPipeline

variable {κ ρ : Type}

namespace Register

def producer? (register : Register ρ) (name : String) : Option String :=
  (register.find? name).map (·.2.producer)

def declaring (register : Register ρ) (name producer : String) (resolver : ρ) :
    Register ρ :=
  { register with declared := ⟨name, producer, resolver⟩ :: register.declared }

theorem producer?_congr {first second : Register ρ}
    (same : first.declared = second.declared) (name : String) :
    first.producer? name = second.producer? name := by
  simp only [producer?, find?, same]

theorem has_iff {register : Register ρ} {name : String} :
    register.has name = true
      ↔ ∃ producer, register.producer? name = some producer
          ∧ producer ∈ register.succeeded := by
  rw [has, producer?]
  cases register.find? name with
  | none => simp
  | some found => simp

theorem producer?_declaring (register : Register ρ) (name producer other : String)
    (resolver : ρ) :
    (register.declaring name producer resolver).producer? other =
      if name = other then some producer else register.producer? other := by
  unfold producer? declaring find?
  rw [findIn]
  split <;> rfl

theorem declare_cons (register : Register ρ) (producer name : String) (resolver : ρ)
    (rest : List (String × ρ)) :
    register.declare producer ((name, resolver) :: rest) =
      match register.producer? name with
      | none => (register.declaring name producer resolver).declare producer rest
      | some owner =>
          if owner = producer then
            (register.declaring name producer resolver).declare producer rest
          else (register, some (conflict name owner producer)) := by
  rw [declare, producer?]
  rcases register.find? name with _ | ⟨place, existing⟩
  · rfl
  · rfl

def isFree (register : Register ρ) (producer name : String) : Bool :=
  (register.producer? name).all (· == producer)

theorem isFree_iff {register : Register ρ} {producer name : String} :
    register.isFree producer name = true
      ↔ ∀ owner ∈ register.producer? name, owner = producer := by
  rw [isFree]
  cases register.producer? name <;> simp

theorem isFree_eq_false_iff {register : Register ρ} {producer name : String} :
    register.isFree producer name = false
      ↔ ∃ owner, register.producer? name = some owner ∧ owner ≠ producer := by
  rw [isFree]
  cases register.producer? name <;> simp

theorem declare_of_free {register : Register ρ} {producer name : String}
    (free : register.isFree producer name = true) (resolver : ρ)
    (rest : List (String × ρ)) :
    register.declare producer ((name, resolver) :: rest) =
      (register.declaring name producer resolver).declare producer rest := by
  rw [declare_cons]
  cases owned : register.producer? name with
  | none => rfl
  | some owner => exact if_pos (isFree_iff.mp free owner owned)

theorem declare_of_owned {register : Register ρ} {producer name owner : String}
    (owned : register.producer? name = some owner) (apart : owner ≠ producer)
    (resolver : ρ) (rest : List (String × ρ)) :
    register.declare producer ((name, resolver) :: rest) =
      (register, some (conflict name owner producer)) := by
  rw [declare_cons, owned]
  exact if_neg apart

def taken (register : Register ρ) (producer : String) (provides : List (String × ρ)) :
    List (Declaration ρ) :=
  (provides.takeWhile fun entry => register.isFree producer entry.1).map
    fun entry => ⟨entry.1, producer, entry.2⟩

theorem isFree_declaring {register : Register ρ} {producer name : String}
    (free : register.isFree producer name = true)
    (resolver : ρ) (other : String) :
    (register.declaring name producer resolver).isFree producer other
      = register.isFree producer other := by
  rw [isFree, producer?_declaring]
  split
  · rename_i same
    rw [← same, free]
    exact beq_self_eq_true producer
  · rfl

theorem taken_declaring {register : Register ρ} {producer name : String}
    (free : register.isFree producer name = true)
    (resolver : ρ) (provides : List (String × ρ)) :
    (register.declaring name producer resolver).taken producer provides
      = register.taken producer provides := by
  simp only [taken, isFree_declaring free]

theorem declare_fst (register : Register ρ) (producer : String)
    (provides : List (String × ρ)) :
    (register.declare producer provides).1 =
      { register with
        declared := (register.taken producer provides).reverse ++ register.declared } := by
  induction provides generalizing register with
  | nil => rfl
  | cons entry rest ih =>
      obtain ⟨name, resolver⟩ := entry
      cases free : register.isFree producer name with
      | true =>
          rw [declare_of_free free, ih, taken_declaring free]
          simp [declaring, taken, free]
      | false =>
          obtain ⟨owner, owned, apart⟩ := isFree_eq_false_iff.mp free
          rw [declare_of_owned owned apart]
          simp [taken, free]

theorem declare_eq_none_iff (register : Register ρ) (producer : String)
    (provides : List (String × ρ)) :
    (register.declare producer provides).2 = none
      ↔ ∀ name ∈ provides.map (·.1), ∀ owner ∈ register.producer? name,
          owner = producer := by
  induction provides generalizing register with
  | nil => simp [declare]
  | cons entry rest ih =>
      obtain ⟨name, resolver⟩ := entry
      rw [List.map_cons, List.forall_mem_cons, ← isFree_iff]
      cases free : register.isFree producer name with
      | true =>
          rw [declare_of_free free, ih, and_iff_right rfl]
          -- The names after one that is free are as free as before.
          exact forall₂_congr fun other _ => by
            rw [← isFree_iff, isFree_declaring free, isFree_iff]
      | false =>
          obtain ⟨owner, owned, apart⟩ := isFree_eq_false_iff.mp free
          simp [declare_of_owned owned apart]

theorem declare_of_accepted {register : Register ρ} {producer name : String} {resolver : ρ}
    {rest : List (String × ρ)}
    (accepted : (register.declare producer ((name, resolver) :: rest)).2 = none) :
    register.declare producer ((name, resolver) :: rest) =
      (register.declaring name producer resolver).declare producer rest :=
  declare_of_free
    (isFree_iff.mpr ((declare_eq_none_iff _ _ _).mp accepted name List.mem_cons_self)) _ _

theorem producer?_declare (register : Register ρ) (producer : String)
    (provides : List (String × ρ))
    (accepted : (register.declare producer provides).2 = none) (name : String) :
    (register.declare producer provides).1.producer? name =
      if name ∈ provides.map (·.1) then some producer else register.producer? name := by
  induction provides generalizing register with
  | nil => rfl
  | cons entry rest ih =>
      obtain ⟨first, resolver⟩ := entry
      have taken := declare_of_accepted accepted
      rw [taken] at accepted ⊢
      rw [ih _ accepted, producer?_declaring]
      by_cases here : first = name
      · simp [here]
      · have passed : name ≠ first := Ne.symm here
        simp only [if_neg here, List.map_cons, List.mem_cons, passed, false_or]

theorem succeeded_declare (register : Register ρ) (producer : String)
    (provides : List (String × ρ))
    (accepted : (register.declare producer provides).2 = none) :
    (register.declare producer provides).1.succeeded = register.succeeded := by
  induction provides generalizing register with
  | nil => rfl
  | cons entry rest ih =>
      have taken := declare_of_accepted accepted
      rw [taken] at accepted ⊢
      exact ih _ accepted

/-- What stops a declaration is the first name in it that belongs to somebody else. -/
theorem declare_eq_some (register : Register ρ) {producer : String}
    {provides : List (String × ρ)} {failure : Failure}
    (refused : (register.declare producer provides).2 = some failure) :
    ∃ passed name left owner, provides.map (·.1) = passed ++ name :: left
      ∧ (∀ other ∈ passed, ∀ known ∈ register.producer? other, known = producer)
      ∧ register.producer? name = some owner ∧ owner ≠ producer
      ∧ failure = conflict name owner producer := by
  induction provides generalizing register with
  | nil => cases refused
  | cons entry rest ih =>
      obtain ⟨here, resolver⟩ := entry
      cases own : register.isFree producer here with
      | true =>
          rw [declare_of_free own] at refused
          obtain ⟨passed, name, left, owner, split, free, owned, apart, eq⟩ := ih _ refused
          have beyond : here ≠ name := by
            rintro rfl
            rw [producer?_declaring, if_pos rfl] at owned
            exact apart (Option.some.inj owned).symm
          rw [producer?_declaring, if_neg beyond] at owned
          refine ⟨here :: passed, name, left, owner, congrArg (here :: ·) split, ?_,
            owned, apart, eq⟩
          refine List.forall_mem_cons.mpr ⟨isFree_iff.mp own, fun other member => ?_⟩
          rw [← isFree_iff, ← isFree_declaring own resolver, isFree_iff]
          exact free other member
      | false =>
          obtain ⟨owner, owned, apart⟩ := isFree_eq_false_iff.mp own
          rw [declare_of_owned owned apart] at refused
          exact ⟨[], here, rest.map (·.1), owner, rfl, by simp, owned, apart,
            (Option.some.inj refused).symm⟩

end Register

namespace Environment

open Register

/-- No parameter is provided by two steps, nor by a step and somebody else before the
run. -/
def Undisputed (register : Register ρ) (steps : List (Step κ ρ)) : Prop :=
  ∀ step ∈ steps, ∀ name ∈ step.provides.map (·.1),
    (∀ owner ∈ register.producer? name, owner = step.name)
      ∧ ∀ other ∈ steps, name ∈ other.provides.map (·.1) → other.name = step.name

def Claims (register : Register ρ) (steps : List (Step κ ρ)) (name owner : String) : Prop :=
  register.producer? name = some owner
    ∨ ∃ step ∈ steps, name ∈ step.provides.map (·.1) ∧ step.name = owner

/-- The dispute that the declarations come to first: nothing is disputed before the second
step, and of the names that this step provides, the disputed one is the first that
somebody else claims. -/
def Disputes (register : Register ρ) (steps : List (Step κ ρ))
    (name first second : String) : Prop :=
  ∃ before step after passed left, steps = before ++ step :: after
    ∧ Undisputed register before ∧ step.name = second
    ∧ step.provides.map (·.1) = passed ++ name :: left
    ∧ (∀ other ∈ passed, ∀ owner, Claims register before other owner → owner = second)
    ∧ Claims register before name first ∧ first ≠ second

theorem declareAll_cons (register : Register ρ) (step : Step κ ρ) (rest : List (Step κ ρ)) :
    declareAll register (step :: rest) =
      match (register.declare step.name step.provides).2 with
      | some failure => ((register.declare step.name step.provides).1, some failure)
      | none => declareAll (register.declare step.name step.provides).1 rest := by
  rw [declareAll]
  rcases register.declare step.name step.provides with ⟨declared, _ | failure⟩ <;> rfl

theorem claims_nil {register : Register ρ} {name owner : String} :
    Claims (κ := κ) register [] name owner ↔ register.producer? name = some owner := by
  simp [Claims]

theorem claims_declare {register : Register ρ} {step : Step κ ρ} {rest : List (Step κ ρ)}
    (accepted : (register.declare step.name step.provides).2 = none) {name owner : String} :
    Claims (register.declare step.name step.provides).1 rest name owner
      ↔ Claims register (step :: rest) name owner := by
  have own := (declare_eq_none_iff register step.name step.provides).mp accepted
  simp only [Claims, List.mem_cons, exists_eq_or_imp, producer?_declare _ _ _ accepted]
  by_cases provided : name ∈ step.provides.map (·.1)
  · have known : register.producer? name = some owner → step.name = owner :=
      fun knows => (own name provided owner knows).symm
    rw [if_pos provided, Option.some.injEq, and_iff_right provided, ← or_assoc,
      or_iff_right_of_imp known]
  · simp only [provided, if_false, false_and, false_or]

theorem undisputed_iff_claims {register : Register ρ} {steps : List (Step κ ρ)} :
    Undisputed register steps
      ↔ ∀ step ∈ steps, ∀ name ∈ step.provides.map (·.1), ∀ owner,
          Claims register steps name owner → owner = step.name := by
  refine forall₂_congr fun step _ => forall₂_congr fun name _ => ?_
  simp only [Claims, or_imp, forall_and]
  refine and_congr Iff.rfl ⟨?_, fun among other member provided =>
    among other.name ⟨other, member, provided, rfl⟩⟩
  rintro among owner ⟨other, member, provided, rfl⟩
  exact among other member provided

theorem undisputed_cons {register : Register ρ} {step : Step κ ρ} {rest : List (Step κ ρ)}
    (accepted : (register.declare step.name step.provides).2 = none) :
    Undisputed register (step :: rest)
      ↔ Undisputed (register.declare step.name step.provides).1 rest := by
  have own := (declare_eq_none_iff register step.name step.provides).mp accepted
  simp only [undisputed_iff_claims, claims_declare accepted, List.forall_mem_cons]
  -- The steps behind the first see that it claims its names, so none of them does as well.
  refine and_iff_right_of_imp fun later name provided owner claims => ?_
  rcases claims with known | ⟨other, member, shared, rfl⟩
  · exact own name provided owner known
  · rcases List.mem_cons.mp member with rfl | listed
    · rfl
    · have claims : Claims register (step :: rest) name step.name :=
        .inr ⟨step, List.mem_cons_self, provided, rfl⟩
      exact (later other listed name shared step.name claims).symm

/-- All steps can declare their parameters exactly if none of these is disputed. -/
theorem declareAll_eq_none_iff (register : Register ρ) (steps : List (Step κ ρ)) :
    (declareAll register steps).2 = none ↔ Undisputed register steps := by
  induction steps generalizing register with
  | nil => simp [declareAll, Undisputed]
  | cons step rest ih =>
      rw [declareAll_cons]
      cases answer : (register.declare step.name step.provides).2 with
      | none => rw [undisputed_cons answer, ih]
      | some failure =>
          simp only [reduceCtorEq, false_iff]
          intro undisputed
          have accepted : (register.declare step.name step.provides).2 = none :=
            (declare_eq_none_iff register step.name step.provides).mpr fun name provided =>
              (undisputed step List.mem_cons_self name provided).1
          simp [accepted] at answer

section Declared

variable {register declared : Register ρ} {steps : List (Step κ ρ)}

theorem declareAll_cons_eq {step : Step κ ρ}
    (accepted : declareAll register (step :: steps) = (declared, none)) :
    (register.declare step.name step.provides).2 = none
      ∧ declareAll (register.declare step.name step.provides).1 steps =
          (declared, none) := by
  rw [declareAll_cons] at accepted
  cases answer : (register.declare step.name step.provides).2 with
  | none => exact ⟨rfl, by simpa only [answer] using accepted⟩
  | some failure => simp [answer] at accepted

theorem succeeded_declareAll (accepted : declareAll register steps = (declared, none)) :
    declared.succeeded = register.succeeded := by
  induction steps generalizing register with
  | nil =>
      cases accepted
      rfl
  | cons step rest ih =>
      obtain ⟨first, later⟩ := declareAll_cons_eq accepted
      rw [ih later, succeeded_declare _ _ _ first]

theorem producer?_declareAll_of_known
    (accepted : declareAll register steps = (declared, none)) {name owner : String}
    (known : register.producer? name = some owner) :
    declared.producer? name = some owner := by
  induction steps generalizing register with
  | nil =>
      cases accepted
      exact known
  | cons step rest ih =>
      obtain ⟨first, later⟩ := declareAll_cons_eq accepted
      refine ih later ?_
      rw [producer?_declare _ _ _ first]
      split
      · rename_i provided
        exact congrArg some ((declare_eq_none_iff _ _ _).mp first name provided
          owner known).symm
      · exact known

theorem producer?_declareAll (accepted : declareAll register steps = (declared, none))
    {step : Step κ ρ} (member : step ∈ steps) {name : String}
    (provided : name ∈ step.provides.map (·.1)) :
    declared.producer? name = some step.name := by
  induction steps generalizing register with
  | nil => cases member
  | cons first rest ih =>
      obtain ⟨own, later⟩ := declareAll_cons_eq accepted
      rcases List.mem_cons.mp member with rfl | listed
      · refine producer?_declareAll_of_known later ?_
        rw [producer?_declare _ _ _ own, if_pos provided]
      · exact ih later listed

end Declared

/-- What stops the declarations of all steps is the first dispute. -/
theorem declareAll_eq_some {register : Register ρ} {steps : List (Step κ ρ)}
    {failure : Failure} (refused : (declareAll register steps).2 = some failure) :
    ∃ name first second, Disputes register steps name first second
      ∧ failure = conflict name first second := by
  induction steps generalizing register with
  | nil => cases refused
  | cons step rest ih =>
      rw [declareAll_cons] at refused
      cases answer : (register.declare step.name step.provides).2 with
      | none =>
          simp only [answer] at refused
          obtain ⟨name, first, second, disputes, eq⟩ := ih refused
          obtain ⟨before, later, after, passed, left, split, agreed, named,
              provided, free, claimed, apart⟩ := disputes
          refine ⟨name, first, second, ⟨step :: before, later, after, passed, left,
            congrArg (step :: ·) split, (undisputed_cons answer).mpr agreed, named,
            provided, ?_, (claims_declare answer).mp claimed, apart⟩, eq⟩
          exact fun other member owner claims =>
            free other member owner ((claims_declare answer).mpr claims)
      | some conflicting =>
          simp only [answer, Option.some.injEq] at refused
          obtain ⟨passed, name, left, owner, provided, free, owned, apart, eq⟩ :=
            declare_eq_some register answer
          refine ⟨name, owner, step.name,
            ⟨[], step, rest, passed, left, rfl, by simp [Undisputed], rfl,
            provided, ?_, claims_nil.mpr owned, apart⟩, refused.symm.trans eq⟩
          exact fun other member known claims =>
            free other member known (claims_nil.mp claims)

end Environment

end BuildPipeline
