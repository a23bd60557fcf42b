import BuildPipeline.Execution.Coordinator
import Mathlib.Data.List.Nodup

namespace BuildPipeline

variable {κ ρ σ : Type}

def StepResult.readied (result : StepResult) : StepResult :=
  { result with state := .runnable }

theorem StepResult.name_readied (result : StepResult) :
    result.readied.name = result.name := rfl

namespace Ledger

def recorded (ledger : Ledger ρ) : List String :=
  ledger.results.map (·.name)

theorem result_update_self (ledger : Ledger ρ) {name : String}
    {change : StepResult → StepResult}
    (named : ∀ result, (change result).name = result.name)
    (present : name ∈ ledger.recorded) :
    (ledger.update name change).result name = change (ledger.result name) := by
  obtain ⟨register, results⟩ := ledger
  induction results with
  | nil => simp [recorded] at present
  | cons first rest ih =>
      by_cases here : first.name = name
      · simp [result, result?, update, here, named]
      · have later : name ∈ recorded ⟨register, rest⟩ :=
          (List.mem_cons.mp present).resolve_left (Ne.symm here)
        simpa [result, result?, update, here] using ih later

theorem result_update_of_ne (ledger : Ledger ρ) {name other : String}
    {change : StepResult → StepResult}
    (named : ∀ result, (change result).name = result.name) (ne : other ≠ name) :
    (ledger.update name change).result other = ledger.result other := by
  obtain ⟨register, results⟩ := ledger
  induction results with
  | nil => rfl
  | cons first rest ih =>
      by_cases here : first.name = name
      · have passed : first.name ≠ other := here ▸ ne.symm
        simpa [result, result?, update, here, named, ne.symm, passed] using ih
      · by_cases found : first.name = other
        · simp [result, result?, update, found, ne]
        · simpa [result, result?, update, here, found] using ih

@[simp] theorem recorded_update (ledger : Ledger ρ) (name : String)
    {change : StepResult → StepResult}
    (named : ∀ result, (change result).name = result.name) :
    (ledger.update name change).recorded = ledger.recorded :=
  names_update ledger name change named

theorem result_of_not_mem {ledger : Ledger ρ} {name : String}
    (absent : name ∉ ledger.recorded) :
    ledger.result name = { name } := by
  have none : ledger.result? name = none := by
    apply List.find?_eq_none.mpr
    intro result member same
    exact absent (List.mem_map.mpr ⟨result, member, by simpa using same⟩)
  simp [result, none]

theorem name_result (ledger : Ledger ρ) (name : String) :
    (ledger.result name).name = name := by
  cases found : ledger.result? name with
  | none => simp [result, found]
  | some entry =>
      have same := List.find?_some found
      simpa [result, found] using same

def ready (ledger : Ledger ρ) (name : String) : Ledger ρ :=
  ledger.update name StepResult.readied

@[simp] theorem recorded_ready (ledger : Ledger ρ) (name : String) :
    (ledger.ready name).recorded = ledger.recorded :=
  recorded_update ledger name StepResult.name_readied

theorem result_ready_self {ledger : Ledger ρ} {name : String}
    (present : name ∈ ledger.recorded) :
    (ledger.ready name).result name = (ledger.result name).readied :=
  result_update_self ledger StepResult.name_readied present

theorem result_ready_of_ne (ledger : Ledger ρ) {name other : String} (ne : other ≠ name) :
    (ledger.ready name).result other = ledger.result other :=
  result_update_of_ne ledger StepResult.name_readied ne

theorem results_eq_map {ledger : Ledger ρ} (nodup : ledger.recorded.Nodup) :
    ledger.results = ledger.recorded.map ledger.result := by
  rw [recorded, List.map_map]
  conv_lhs => rw [← List.map_id ledger.results]
  apply List.map_congr_left
  intro entry member
  cases found : ledger.result? entry.name with
  | none => simpa using List.find?_eq_none.mp found entry member
  | some other =>
      have same := List.find?_some found
      have listed := List.mem_of_find?_eq_some found
      have : other = entry :=
        List.inj_on_of_nodup_map nodup listed member (by simpa using same)
      simp [result, found, this]

theorem result_congr {first second : Ledger ρ} (same : first.results = second.results)
    (name : String) : first.result name = second.result name := by
  simp [result, result?, same]

theorem recorded_congr {first second : Ledger ρ} (same : first.results = second.results) :
    first.recorded = second.recorded := by
  simp [recorded, same]

end Ledger

namespace Environment

variable (env : Environment κ ρ σ)

@[simp] theorem inFlight_finish (name : String) (state : StepState) (error : Option Error)
    (progress : Progress ρ σ) :
    (env.finish name state error progress).inFlight = progress.inFlight := rfl

@[simp] theorem dispatched_finish (name : String) (state : StepState) (error : Option Error)
    (progress : Progress ρ σ) :
    (env.finish name state error progress).dispatched = progress.dispatched := rfl

@[simp] theorem stopped_finish (name : String) (state : StepState) (error : Option Error)
    (progress : Progress ρ σ) :
    (env.finish name state error progress).stopped = progress.stopped := rfl

@[simp] theorem recorded_finish (name : String) (state : StepState) (error : Option Error)
    (progress : Progress ρ σ) :
    (env.finish name state error progress).ledger.recorded = progress.ledger.recorded :=
  Ledger.recorded_update _ _ fun _ => StepResult.name_ended _ _ _ _

theorem result_finish_self {name : String} (state : StepState) (error : Option Error)
    {progress : Progress ρ σ} (present : name ∈ progress.ledger.recorded) :
    (env.finish name state error progress).ledger.result name =
      (progress.ledger.result name).ended (env.now progress.world) state error :=
  Ledger.result_update_self _ (fun _ => StepResult.name_ended _ _ _ _) present

theorem result_finish_of_ne {name other : String} (state : StepState) (error : Option Error)
    (progress : Progress ρ σ) (ne : other ≠ name) :
    (env.finish name state error progress).ledger.result other =
      progress.ledger.result other :=
  Ledger.result_update_of_ne _ (fun _ => StepResult.name_ended _ _ _ _) ne

@[simp] theorem inFlight_start (progress : Progress ρ σ) (step : Step κ ρ) :
    (env.start progress step).inFlight = progress.inFlight ++ [step.name] := rfl

@[simp] theorem dispatched_start (progress : Progress ρ σ) (step : Step κ ρ) :
    (env.start progress step).dispatched = step.name :: progress.dispatched := rfl

@[simp] theorem recorded_start (progress : Progress ρ σ) (step : Step κ ρ) :
    (env.start progress step).ledger.recorded = progress.ledger.recorded :=
  Ledger.recorded_update _ _ fun _ => StepResult.name_begun _ _

theorem result_start_self {progress : Progress ρ σ} {step : Step κ ρ}
    (present : step.name ∈ progress.ledger.recorded) :
    (env.start progress step).ledger.result step.name =
      (progress.ledger.result step.name).begun (env.now progress.world) :=
  Ledger.result_update_self _ (fun _ => StepResult.name_begun _ _) present

theorem result_start_of_ne (progress : Progress ρ σ) {step : Step κ ρ} {other : String}
    (ne : other ≠ step.name) :
    (env.start progress step).ledger.result other = progress.ledger.result other :=
  Ledger.result_update_of_ne _ (fun _ => StepResult.name_begun _ _) ne

def stateOf : Except Error Unit → StepState
  | .ok _ => .succeeded
  | .error _ => .failed

def errorOf? : Except Error Unit → Option Error
  | .ok _ => none
  | .error error => some (failureOf error)

theorem record_eq_finish {progress : Progress ρ σ} {completion : Completion}
    (flying : completion.name ∈ progress.inFlight) :
    ∃ landed : Progress ρ σ,
      env.record progress completion =
          env.finish completion.name (stateOf completion.outcome)
            (errorOf? completion.outcome) landed
        ∧ landed.inFlight = progress.inFlight.erase completion.name
        ∧ landed.dispatched = progress.dispatched
        ∧ landed.stopped = progress.stopped
        ∧ landed.ledger.results = progress.ledger.results := by
  obtain ⟨name, outcome⟩ := completion
  cases outcome with
  | ok value =>
      refine ⟨{ progress with
        inFlight := progress.inFlight.erase name
        ledger := { progress.ledger with
          register := progress.ledger.register.markSucceeded name } }, ?_,
            rfl, rfl, rfl, rfl⟩
      simp only [record, if_pos flying]
      rfl
  | error error =>
      refine ⟨env.tell (.failure name (failureOf error)) { progress with
        inFlight := progress.inFlight.erase name }, ?_, rfl, rfl, rfl, rfl⟩
      simp only [record, if_pos flying]
      rfl

theorem inFlight_record {progress : Progress ρ σ} {completion : Completion}
    (flying : completion.name ∈ progress.inFlight) :
    (env.record progress completion).inFlight =
      progress.inFlight.erase completion.name := by
  obtain ⟨landed, eq, inFlight, _⟩ := record_eq_finish env flying
  rw [eq, inFlight_finish, inFlight]

@[simp] theorem dispatched_record (progress : Progress ρ σ) (completion : Completion) :
    (env.record progress completion).dispatched = progress.dispatched := by
  by_cases flying : completion.name ∈ progress.inFlight
  · obtain ⟨landed, eq, _, dispatched, _⟩ := record_eq_finish env flying
    rw [eq, dispatched_finish, dispatched]
  · simp [record, flying]

@[simp] theorem stopped_record (progress : Progress ρ σ) (completion : Completion) :
    (env.record progress completion).stopped = progress.stopped := by
  by_cases flying : completion.name ∈ progress.inFlight
  · obtain ⟨landed, eq, _, _, stopped, _⟩ := record_eq_finish env flying
    rw [eq, stopped_finish, stopped]
  · simp [record, flying]

@[simp] theorem recorded_record (progress : Progress ρ σ) (completion : Completion) :
    (env.record progress completion).ledger.recorded = progress.ledger.recorded := by
  by_cases flying : completion.name ∈ progress.inFlight
  · obtain ⟨landed, eq, _, _, _, results⟩ := record_eq_finish env flying
    rw [eq, recorded_finish, Ledger.recorded_congr results]
  · simp [record, flying]

theorem result_record_self {progress : Progress ρ σ} {completion : Completion}
    (flying : completion.name ∈ progress.inFlight)
    (present : completion.name ∈ progress.ledger.recorded) :
    ∃ moment,
      (env.record progress completion).ledger.result completion.name =
        (progress.ledger.result completion.name).ended moment (stateOf completion.outcome)
          (errorOf? completion.outcome) := by
  obtain ⟨landed, eq, _, _, _, results⟩ := record_eq_finish env flying
  rw [← Ledger.recorded_congr results] at present
  refine ⟨env.now landed.world, ?_⟩
  rw [eq, result_finish_self env _ _ present, Ledger.result_congr results]

theorem outcome_of_succeeded {progress : Progress ρ σ} {completion : Completion}
    (flying : completion.name ∈ progress.inFlight)
    (present : completion.name ∈ progress.ledger.recorded)
    (succeeded : (env.record progress completion).ledger.state completion.name =
      .succeeded) :
    completion.outcome = .ok () := by
  obtain ⟨moment, self⟩ := result_record_self env flying present
  rw [Ledger.state, self, StepResult.state_ended] at succeeded
  cases outcome : completion.outcome with
  | ok => rfl
  | error failure =>
      rw [outcome] at succeeded
      cases succeeded

theorem result_record_of_ne (progress : Progress ρ σ) {completion : Completion}
    {other : String} (ne : other ≠ completion.name) :
    (env.record progress completion).ledger.result other =
      progress.ledger.result other := by
  by_cases flying : completion.name ∈ progress.inFlight
  · obtain ⟨landed, eq, _, _, _, results⟩ := record_eq_finish env flying
    rw [eq, result_finish_of_ne env _ _ _ ne, Ledger.result_congr results]
  · simp [record, flying]

/-! A part of the world that the hook has no access to. -/

section Aside

variable {env} {α : Type} {view : σ → α}
  (aside : ∀ ledger event world, view (env.hook ledger event world).2 = view world)

include aside

theorem view_finish (name : String) (state : StepState) (error : Option Error)
    (progress : Progress ρ σ) :
    view (env.finish name state error progress).world = view progress.world :=
  aside _ _ _

theorem view_record (progress : Progress ρ σ) (completion : Completion) :
    view (env.record progress completion).world = view progress.world := by
  unfold record
  split
  · cases completion.outcome with
    | ok => exact view_finish aside _ _ _ _
    | error => exact (view_finish aside _ _ _ _).trans (aside _ _ _)
  · rfl

end Aside

end Environment

end BuildPipeline
