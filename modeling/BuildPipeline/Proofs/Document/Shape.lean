import BuildPipeline.Cluster.Client
import BuildPipeline.Proofs.Answer

namespace BuildPipeline

open Document

namespace Document.Value

theorem sameKey_string_iff {name : Value} {key : String} :
    name.sameKey (.string key) = true ↔ name.string? = some key := by
  cases name <;> simp [sameKey, string?, number?]

def isRecord (value : Value) : Bool :=
  match value.bare with
  | .mapping _ => true
  | _ => false

def entries (value : Value) : Entries :=
  match value.bare with
  | .mapping entries => entries
  | _ => []

def under? (value : Value) (key : String) : Option Value :=
  Entries.get? value.entries (.string key)

def under (value : Value) (key : String) : Value :=
  ofOption (value.under? key)

def items? (value : Value) : Option (List Value) :=
  value.elements.toOption

def recordUnder (value : Value) (key : String) : Value :=
  (value.under key).orElse (.mapping [])

variable {value : Value}

theorem field?_eq (record : value.isRecord = true) (key : String) :
    value.field? key = .ok (value.under? key) := by
  cases bare : value.bare with
  | mapping found => simp only [field?, under?, entries, bare]
  | _ => simp [isRecord, bare] at record

theorem field?_eq_error (other : value.isRecord = false) (key : String) :
    value.field? key = .error .missingField := by
  cases bare : value.bare with
  | mapping found => simp [isRecord, bare] at other
  | _ => simp only [field?, bare]

theorem field_eq (record : value.isRecord = true) (key : String) :
    value.field key = .ok (value.under key) := by
  rw [field, field?_eq record]
  rfl

theorem fieldOr_eq (record : value.isRecord = true) (key : String) (default : Value) :
    value.fieldOr key default = .ok ((value.under? key).getD default) := by
  rw [fieldOr, field?_eq record]
  rfl

theorem elements_eq {items : List Value} (found : value.items? = some items) :
    value.elements = .ok items := by
  unfold items? at found
  cases listed : value.elements with
  | ok values =>
      rw [listed] at found
      exact congrArg Except.ok (Option.some.inj found)
  | error fault =>
      rw [listed] at found
      cases found

theorem isTrue_record (record : value.isRecord = true) :
    value.isTrue = !value.entries.isEmpty := by
  cases bare : value.bare with
  | mapping found => simp only [Value.isTrue, entries, bare]
  | _ => simp [isRecord, bare] at record

theorem isRecord_orElse (record : value.isRecord = true) :
    (value.orElse (.mapping [])).isRecord = true := by
  unfold orElse
  split
  · exact record
  · rfl

theorem under?_orElse (record : value.isRecord = true) (key : String) :
    (value.orElse (.mapping [])).under? key = value.under? key := by
  unfold orElse
  split
  · rfl
  · rename_i blank
    have vacant : value.entries = [] := by simpa [isTrue_record record] using blank
    rw [under?, under?, vacant]
    rfl

/-- What a cluster shows of a pod: a record with its name, and with a status that lists
how its containers stand.  What is left out of the status is not known yet. -/
def isContainerStatus (container : Value) : Bool :=
  container.isRecord && (container.recordUnder "state").isRecord
    && ((container.recordUnder "state").recordUnder "terminated").isRecord

def isPod (pod : Value) : Bool :=
  pod.isRecord && ((pod.under? "metadata").getD (.mapping [])).isRecord
    && (pod.recordUnder "status").isRecord
    && (((pod.recordUnder "status").under "containerStatuses").orElse (.list [])).items?.any
        (·.all isContainerStatus)

end Document.Value

open Document.Value

theorem PodPhase.ofPod_of_isPod {pod : Value} (isPod : pod.isPod = true) :
    ∃ phase, ofPod pod = .ok phase := by
  simp only [Value.isPod, Bool.and_eq_true] at isPod
  obtain ⟨⟨⟨record, _⟩, status⟩, _⟩ := isPod
  refine ⟨ofName ((pod.recordUnder "status").under "phase"), ?_⟩
  rw [ofPod, field_eq record, Answer.ok_bind, ← recordUnder, field_eq status,
    Answer.ok_bind]
  rfl

namespace PodFailure

theorem ofContainers_of_isContainerStatus (name message : Value) {containers : List Value}
    (each : containers.all isContainerStatus = true) :
    ∃ exitCode told, ofContainers name message containers =
      .ok (.podFailed name exitCode told) := by
  induction containers with
  | nil => exact ⟨.null, message, rfl⟩
  | cons container rest ih =>
      rw [List.all_cons, Bool.and_eq_true] at each
      obtain ⟨shaped, others⟩ := each
      simp only [isContainerStatus, Bool.and_eq_true] at shaped
      obtain ⟨⟨record, state⟩, ending⟩ := shaped
      have terminates : terminated container =
          .ok ((container.recordUnder "state").recordUnder "terminated") := by
        rw [terminated, field_eq record, Answer.ok_bind, ← recordUnder, field_eq state,
          Answer.ok_bind]
        rfl
      rw [ofContainers, terminates, Answer.ok_bind, field_eq ending, Answer.ok_bind]
      split
      · rw [field_eq ending, Answer.ok_bind, field_eq ending, Answer.ok_bind]
        exact ⟨_, _, rfl⟩
      · exact ih others

theorem ofPod_of_isPod {pod : Value} (isPod : pod.isPod = true) :
    ∃ name exitCode told, ofPod pod = .ok (.podFailed name exitCode told) := by
  simp only [Value.isPod, Bool.and_eq_true] at isPod
  obtain ⟨⟨⟨record, metadata⟩, status⟩, listed⟩ := isPod
  obtain ⟨containers, found, each⟩ := (Option.any_eq_true _ _).mp listed
  rw [ofPod, fieldOr_eq record, Answer.ok_bind, fieldOr_eq metadata, Answer.ok_bind,
    field_eq record, Answer.ok_bind, ← recordUnder]
  dsimp only
  rw [fieldOr_eq status, Answer.ok_bind, field_eq status, Answer.ok_bind, elements_eq found,
    Answer.ok_bind]
  exact ⟨_, ofContainers_of_isContainerStatus _ _ each⟩

end PodFailure

end BuildPipeline
