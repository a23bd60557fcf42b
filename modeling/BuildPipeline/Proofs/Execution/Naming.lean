import BuildPipeline.Proofs.Execution.Report
import BuildPipeline.Proofs.Graph.Waiting

namespace BuildPipeline

variable {κ ρ σ : Type} {requested implicit : List (Step κ ρ)} {graph : StepGraph κ ρ}

namespace StepGraph

/-- Of the implicit steps that are needed, no two have the same name. -/
def Unshared (requested implicit : List (Step κ ρ)) : Prop :=
  ∀ one ∈ admissible requested implicit, ∀ other ∈ admissible requested implicit,
    Needed requested implicit one → Needed requested implicit other →
      one.name = other.name →
      one = other

theorem disputed_of_names (repeated : ¬ (requested.map (·.name)).Nodup) :
    ∃ link one other, build requested implicit =
      .error (.duplicateProvider link one other) := by
  cases checked : checkNames [] requested with
  | ok _ => exact absurd (checkNames_eq_ok checked).1 repeated
  | error failure =>
      obtain ⟨⟨link, one, other, rfl⟩, _⟩ := checkNames_error checked
      have failed : close requested implicit =
          .error (.duplicateProvider link one other) := by
        rw [close, checked]
        rfl
      exact ⟨link, one, other, build_eq_error.mpr (.inl failed)⟩

theorem names_nodup_iff_unshared (built : build requested implicit = .ok graph) :
    graph.names.Nodup ↔ Unshared requested implicit := by
  have closed := closed_of_build built
  constructor
  · intro distinct one _ other _ first second same
    exact List.inj_on_of_nodup_map distinct ((closed.least one).mpr first)
      ((closed.least other).mpr second) same
  · intro unshared
    obtain ⟨added, split, nodup, standing⟩ := closed.exists_due
    have admitted : ∀ step ∈ added, step ∈ admissible requested implicit := by
      intro step member
      obtain ⟨_, due⟩ := standing step member
      exact mem_admissible.mpr ⟨due.implicit, due.unnamed⟩
    have needed : ∀ step ∈ added, Needed requested implicit step := fun step member =>
      (closed.least step).mp (split ▸ List.mem_append_right _ member)
    rw [names, split, List.map_append]
    refine List.nodup_append.mpr ⟨(undisputed_of_build built).1, ?_, ?_⟩
    · exact List.Nodup.map_on (fun one first other second same =>
        unshared one (admitted one first) other (admitted other second) (needed one first)
          (needed other second) same) nodup
    · intro name asked other listed same
      obtain ⟨step, member, rfl⟩ := List.mem_map.mp listed
      exact (mem_admissible.mp (admitted step member)).2 (same ▸ asked)

end StepGraph

namespace Environment

open StepGraph

/-- Steps asked for that share a name are refused, and no other step of a graph is named
like one of them. The names of a graph are distinct exactly if no two of these others
share one; then, in whatever world it is run, the result has one entry for each step, as
has the ledger wherever the run stands, and nothing is launched twice. -/
theorem run_once_each (requested implicit : List (Step κ ρ)) :
    (¬ (requested.map (·.name)).Nodup →
        ∃ link one other, build requested implicit =
          .error (.duplicateProvider link one other))
      ∧ ∀ graph, build requested implicit = .ok graph →
          (∀ step ∈ graph.steps, step ∈ requested ∨ step.name ∉ requested.map (·.name))
            ∧ (graph.names.Nodup ↔ Unshared requested implicit)
            ∧ (graph.names.Nodup →
                ∀ (env : Environment κ ρ σ) (parallelism : Int) (turns : Nat)
                  (register : Register ρ) (world : σ),
                  (∀ result stand,
                      env.run graph parallelism turns register world =
                        (.finished result, stand) →
                        result.steps.map (·.name) = graph.names)
                    ∧ (env.run graph parallelism turns register world).2.ledger.recorded =
                        graph.names
                    ∧ ∀ log, env.Logs log → ∃ launched,
                        log (env.run graph parallelism turns register world).2.world
                            = launched ++ log world
                          ∧ launched.Nodup) := by
  refine ⟨disputed_of_names, fun graph built =>
    ⟨fun step member => ?_, names_nodup_iff_unshared built,
      fun distinct env parallelism turns register world => ?_⟩⟩
  · have needed := ((closed_of_build built).least step).mp member
    exact needed.mem.imp_right fun admitted => (mem_admissible.mp admitted).2
  have wellFormed := wellFormed_of_build built distinct
  refine ⟨fun result stand finished =>
    names_report wellFormed (acyclic_of_build built) finished,
    recorded_of_run env wellFormed parallelism turns register world, fun log logs => ?_⟩
  rcases logs.run wellFormed parallelism turns register world with
    unchanged | ⟨_, actions, reached, trace, logged, _⟩
  · exact ⟨[], unchanged, List.nodup_nil⟩
  · exact ⟨_, logged, List.nodup_reverse.mpr (started_nodup wellFormed trace)⟩

def catalog (tags : List String) : Step Unit Unit :=
  { name := "catalog", requires := tags.map Link.internalImage, work := () }

def packing (name tag : String) : Step Unit Unit :=
  { name, creates := [.internalImage tag], work := () }

def indexed : StepGraph Unit Unit :=
  ⟨[catalog ["index"], packing "pack" "index"], [("pack", "catalog")]⟩

theorem indexed_once_each :
    (∃ link one other, build [catalog ["index"], catalog []] [packing "pack" "index"]
        = .error (.duplicateProvider link one other))
      ∧ build [catalog ["index"]] [packing "pack" "index"] = .ok indexed
      ∧ indexed.names.Nodup
      ∧ Unshared [catalog ["index"]] [packing "pack" "index"]
      ∧ (∃ result stand,
          (steady fun _ => .ok ()).run indexed 2 5 {} [] = (.finished result, stand)
            ∧ result.steps.map (·.name) = ["catalog", "pack"])
      ∧ ((steady fun _ => .ok ()).run indexed 2 5 {} []).2.world.Nodup := by
  have built : build [catalog ["index"]] [packing "pack" "index"] = .ok indexed :=
    @build_of_close Unit Unit [catalog ["index"]] [packing "pack" "index"] _ rfl
      (by rw [cycle?_of_sorted (by decide)]; rfl)
  have distinct : indexed.names.Nodup := by decide
  have finishes : EndsWith (fun _ _ => true)
      ((steady fun _ => .ok ()).run indexed 2 5 {} []) = true := by
    decide +kernel
  obtain ⟨result, stand, finished, _⟩ := exists_of_endsWith finishes
  obtain ⟨_, unshared, runs⟩ := (run_once_each _ _).2 _ built
  obtain ⟨reports, _, logged⟩ := runs distinct (steady fun _ => .ok ()) 2 5 {} []
  obtain ⟨launched, log, nodup⟩ := logged _ (steady_logs _)
  refine ⟨(run_once_each (σ := List String) _ _).1 (by decide), built, distinct,
    unshared.mp distinct, ⟨result, stand, finished, reports result stand finished⟩, ?_⟩
  rw [List.append_nil] at log
  exact log ▸ nodup

/-- A catalog with the data beside the index, packed by another step of the same name. -/
def mispacked : StepGraph Unit Unit :=
  ⟨[catalog ["index", "data"], packing "pack" "index", packing "pack" "data"],
    [("pack", "catalog")]⟩

/-- Two steps of one name are taken in without a word.  With room for one step at a time
there is one result for both, one of them is never started and the run is a success; with
room for two the run has no result at all. -/
theorem mispacked_built :
    build [catalog ["index", "data"]] [packing "pack" "index", packing "pack" "data"] =
      .ok mispacked
      ∧ packing "pack" "index" ∈ mispacked.steps ∧ packing "pack" "data" ∈ mispacked.steps
      ∧ packing "pack" "index" ≠ packing "pack" "data" ∧ ¬ mispacked.names.Nodup
      ∧ EndsWith (fun result stand => result.succeeded
            && result.steps.map (·.name) == ["catalog", "pack"]
            && stand.world == ["catalog", "pack"])
          ((steady fun _ => .ok ()).run mispacked 1 5 {} []) = true
      ∧ EndsWith (fun _ _ => true) ((steady fun _ => .ok ()).run mispacked 2 5 {} []) =
          false := by
  refine ⟨?_, .tail _ (.head _), .tail _ (.tail _ (.head _)), fun same => ?_, by decide,
    by decide +kernel, by decide +kernel⟩
  · exact @build_of_close Unit Unit [catalog ["index", "data"]]
      [packing "pack" "index", packing "pack" "data"] _ rfl
      (by rw [cycle?_of_sorted (by decide)]; rfl)
  · exact absurd (congrArg Step.creates same) (by decide)

end Environment

end BuildPipeline
