import BuildPipeline.Proofs.Graph.Waiting

namespace BuildPipeline

variable {κ ρ : Type} {requested implicit : List (Step κ ρ)}

/-- A change to steps that leaves their names, the links that they create and the ordinary
ones that they require. -/
structure Step.KeepsOrdinary (change : Step κ ρ → Step κ ρ) : Prop where
  name : ∀ step, (change step).name = step.name
  creates : ∀ step, (change step).creates = step.creates
  requires : ∀ step, (change step).requires.filter (!·.isWildcard)
    = step.requires.filter (!·.isWildcard)

namespace Producers

def map (change : Step κ ρ → Step κ ρ) (producers : Producers κ ρ) : Producers κ ρ :=
  List.map (fun entry => (entry.1, change entry.2)) producers

variable {change : Step κ ρ → Step κ ρ}

theorem get?_map (producers : Producers κ ρ) (link : Link) :
    (producers.map change).get? link = (producers.get? link).map change := by
  rw [get?, map, List.find?_map, Option.map_map, get?, Option.map_map]
  rfl

theorem has_map (producers : Producers κ ρ) (link : Link) :
    (producers.map change).has link = producers.has link := by
  rw [has, map, List.any_map]
  rfl

theorem claim_map (keeps : Step.KeepsOrdinary change) (producers : Producers κ ρ)
    (step : Step κ ρ) :
    (producers.map change).claim (change step) =
      (producers.claim step).map (map change) := by
  have disputes : ∀ links : List Link,
      (links.findSome? fun link =>
        ((producers.map change).get? link).map fun other => (link, other))
        = (links.findSome? fun link => (producers.get? link).map fun other =>
          (link, other)).map
            fun dispute => (dispute.1, change dispute.2) := by
    intro links
    induction links with
    | nil => rfl
    | cons link rest ih =>
        rw [List.findSome?_cons, List.findSome?_cons, get?_map, ih]
        cases producers.get? link <;> rfl
  rw [claim, claim, keeps.creates, keeps.name, disputes]
  cases step.creates.findSome? fun link => (producers.get? link).map fun other =>
    (link, other) with
  | some dispute =>
      obtain ⟨link, other⟩ := dispute
      simp only [Option.map_some, keeps.name]
      rfl
  | none =>
      simp only [Option.map_none, Except.map, map, List.map_append, List.map_map,
        Function.comp_def]

theorem ofSteps_map (keeps : Step.KeepsOrdinary change) (steps : List (Step κ ρ)) :
    ofSteps (steps.map change) = (ofSteps steps).map (map change) :=
  Answer.foldlM_eq_map (claim_map keeps) steps []

end Producers

namespace Closure

def map (change : Step κ ρ → Step κ ρ) (closure : Closure κ ρ) : Closure κ ρ :=
  ⟨closure.steps.map change, closure.producers.map change, closure.queue.map change⟩

variable {change : Step κ ρ → Step κ ρ}

theorem foldlM_demand_ordinary (optional : Producers κ ρ) (step : Step κ ρ)
    (links : List Link) (closure : Closure κ ρ) :
    links.foldlM (demand optional step) closure
      = (links.filter (!·.isWildcard)).foldlM (demand optional step) closure := by
  induction links generalizing closure with
  | nil => rfl
  | cons link rest ih =>
      cases wildcard : link.isWildcard with
      | true =>
          have skipped : demand optional step closure link = .ok closure := by
            rw [demand, wildcard]
            rfl
          rw [List.foldlM_cons, skipped, Answer.ok_bind,
            List.filter_cons_of_neg (by simp [wildcard]), ih]
      | false =>
          rw [List.filter_cons_of_pos (by simp [wildcard]), List.foldlM_cons,
            List.foldlM_cons]
          exact bind_congr ih

theorem demand_map (keeps : Step.KeepsOrdinary change) (optional : Producers κ ρ)
    (step : Step κ ρ) (closure : Closure κ ρ) (link : Link) :
    demand (optional.map change) (change step) (closure.map change) link
      = (demand optional step closure link).map (map change) := by
  have has : (closure.map change).producers.has link = closure.producers.has link :=
    Producers.has_map _ _
  rw [demand, demand, has, Producers.get?_map, keeps.name]
  split
  · rfl
  · cases optional.get? link with
    | none => rfl
    | some candidate =>
        have claimed := Producers.claim_map keeps closure.producers candidate
        simp only [Option.map_some]
        rw [show (closure.map change).producers =
          closure.producers.map change from rfl, claimed]
        cases closure.producers.claim candidate with
        | error failure => rfl
        | ok producers =>
            simp [Except.map, map, bind, Except.bind, pure, Except.pure]

theorem advance_map (keeps : Step.KeepsOrdinary change) (optional : Producers κ ρ)
    (closure : Closure κ ρ) :
    (closure.map change).advance (optional.map change)
      = (closure.advance optional).map (map change) := by
  obtain ⟨steps, producers, queue⟩ := closure
  cases queue with
  | nil => rfl
  | cons step rest =>
      have looked := Answer.foldlM_eq_map (demand_map keeps optional step)
        (step.requires.filter (!·.isWildcard)) ⟨steps, producers, rest⟩
      rw [List.map_id', ← keeps.requires, ← foldlM_demand_ordinary, keeps.requires,
        ← foldlM_demand_ordinary] at looked
      exact looked

theorem run_map (keeps : Step.KeepsOrdinary change) (optional : Producers κ ρ) (fuel : Nat)
    (closure : Closure κ ρ) :
    run (optional.map change) fuel (closure.map change)
      = (run optional fuel closure).map (map change) := by
  induction fuel generalizing closure with
  | zero => rfl
  | succ fuel ih =>
      have queue : (closure.map change).queue.isEmpty = closure.queue.isEmpty :=
        List.isEmpty_map
      rw [run, run, queue]
      split
      · rfl
      · rw [advance_map keeps]
        exact Answer.map_bind_eq_map ih

end Closure

namespace StepGraph

variable {change : Step κ ρ → Step κ ρ}

theorem checkNames_map (keeps : Step.KeepsOrdinary change) (seen : List String)
    (steps : List (Step κ ρ)) :
    checkNames seen (steps.map change) = checkNames seen steps := by
  induction steps generalizing seen with
  | nil => rfl
  | cons step rest ih => rw [List.map_cons, checkNames, checkNames, keeps.name, ih]

/-- The closure looks at nothing but names, links created and ordinary links required: a
change to steps that were asked for leaves the implicit ones that may be added as they
are. -/
theorem close_map (keeps : Step.KeepsOrdinary change)
    (kept : ∀ step ∈ admissible requested implicit, change step = step) :
    close (requested.map change) implicit = (close requested implicit).map
      (Closure.map change) := by
  have names : (requested.map change).map (·.name) = requested.map (·.name) := by
    rw [List.map_map]
    exact List.map_congr_left fun step _ => keeps.name step
  have offered : implicit.filter (fun step =>
      !((requested.map change).map (·.name)).contains step.name)
        = (admissible requested implicit).map change := by
    rw [names, List.map_congr_left kept, List.map_id']
    rfl
  unfold close
  rw [checkNames_map keeps, Producers.ofSteps_map keeps]
  refine Answer.bind_eq_map fun _ => Answer.map_bind_eq_map fun producers => ?_
  simp only [offered]
  rw [Producers.ofSteps_map keeps]
  refine Answer.map_bind_eq_map fun optional => ?_
  rw [List.length_map]
  exact Closure.run_map keeps optional _ ⟨requested, producers, requested⟩

end StepGraph

end BuildPipeline
