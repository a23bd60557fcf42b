import BuildPipeline.Error.Chain

namespace BuildPipeline

open Document

variable {σ : Type}

structure ObjectName where
  kind : String
  project : String
  name : String
deriving DecidableEq, Repr

/-- How the rest of a cluster is reached.  A read on behalf of a run gives up when the run
is cancelled; `pause` waits between two looks at a pod and says whether the run is
cancelled by then. -/
structure ClusterClient (σ : Type) where
  get : Bool → ObjectName → σ → Except Error Value × σ
  create : Value → σ → Except Error Value × σ
  pause : σ → Bool × σ

namespace Document.Value

def subscript (value : Value) (key : String) : Except Misuse Value :=
  match value with
  | .mapping entries =>
      match Entries.get? entries (.string key) with
      | some found => .ok found
      | none => .error .missingKey
  | _ => .error .wrongType

end Document.Value

inductive PodPhase where
  | succeeded
  | failed
  | unfinished
deriving DecidableEq, Repr

namespace PodPhase

def ofName (name : Value) : PodPhase :=
  if name.sameKey (.string "Succeeded") then .succeeded
  else if name.sameKey (.string "Failed") then .failed
  else .unfinished

def ofPod (pod : Value) : Except Misuse PodPhase := do
  let status ← pod.field "status"
  let phase ← (status.orElse (.mapping [])).field "phase"
  return ofName phase

end PodPhase

/-! Why a pod failed: the first of its containers that ended with a code other than zero
tells. -/

namespace PodFailure

def terminated (container : Value) : Except Misuse Value := do
  let state ← container.field "state"
  let terminated ← (state.orElse (.mapping [])).field "terminated"
  return terminated.orElse (.mapping [])

def isFailureCode : Value → Bool
  | .null => false
  | code => !code.sameKey (.int 0)

def ofContainers (name message : Value) : List Value → Except Misuse Failure
  | [] => .ok (.podFailed name .null message)
  | container :: rest => do
      let ending ← terminated container
      let code ← ending.field "exitCode"
      if isFailureCode code then
        let told ← ending.field "message"
        let reason ← ending.field "reason"
        return .podFailed name code ((told.orElse reason).orElse message)
      else ofContainers name message rest

def ofPod (pod : Value) : Except Misuse Failure := do
  let metadata ← pod.fieldOr "metadata" (.mapping [])
  let name ← metadata.fieldOr "name" (.string "?")
  let status ← pod.field "status"
  let status := status.orElse (.mapping [])
  let message ← status.fieldOr "message" (.string "")
  let containers ← status.field "containerStatuses"
  let containers ← (containers.orElse (.list [])).elements
  ofContainers name message containers

end PodFailure

namespace ClusterClient

def waitingCancelled (project name : Value) : Failure :=
  .cancelled ("cancelled while waiting for pod " ++ project.text ++ "/" ++ name.text)

def nameText (name : Value) : String :=
  if name.isTrue then name.text else ""

def settle (client : ClusterClient σ) (project name : Value) :
    Nat → Value → σ → Except Error Value × σ
  | patience, current, world =>
      match PodPhase.ofPod current with
      | .error fault => (.error (Error.ofFailure (.misuse fault)), world)
      | .ok .succeeded => (.ok current, world)
      | .ok .failed =>
          match PodFailure.ofPod current with
          | .error fault => (.error (Error.ofFailure (.misuse fault)), world)
          | .ok failure => (.error (Error.ofFailure failure), world)
      | .ok .unfinished =>
          match patience with
          | 0 => (.error (Error.ofFailure (.runtime "poll limit")), world)
          | patience + 1 =>
              match client.pause world with
              | (true, world) =>
                  (.error (Error.ofFailure (waitingCancelled project name)), world)
              | (false, world) =>
                  match client.get true ⟨"Pod", project.text, nameText name⟩ world with
                  | (.error error, world) => (.error error, world)
                  | (.ok current, world) =>
                      settle client project name patience current world

/-! Running a pod: it is created and then waited for.  A pod of that name that exists
already is waited for instead, so that the work is never started twice. -/

def isConflict (error : Error) : Bool :=
  match error.head with
  | .alreadyExists _ _ _ => true
  | _ => false

def podIdentity (pod : Value) : Except Misuse (Value × Value) := do
  let metadata ← pod.subscript "metadata"
  let project ← metadata.subscript "namespace"
  let name ← metadata.subscript "name"
  return (project, name)

def runPod (client : ClusterClient σ) (patience : Nat) (pod : Value) (world : σ) :
    Except Error Value × σ :=
  match podIdentity pod with
  | .error fault => (.error (Error.ofFailure (.misuse fault)), world)
  | .ok (project, name) =>
      match client.create pod world with
      | (.ok current, world) => client.settle project name patience current world
      | (.error error, world) =>
          if isConflict error then
            match client.get true ⟨"Pod", project.text, nameText name⟩ world with
            | (.error error, world) => (.error error, world)
            | (.ok current, world) => client.settle project name patience current world
          else (.error error, world)

/-- A client that refuses every call, for looking at a graph without a cluster. -/
def offlineGet (object : ObjectName) : Failure :=
  .cluster ("offline: cannot get " ++ object.kind ++ " " ++ object.project ++ "/"
    ++ object.name) none

def offlineCreate (object : Value) : Failure :=
  match object.field "kind" with
  | .ok kind => .cluster ("offline: cannot create " ++ kind.text) none
  | .error fault => .misuse fault

def offline : ClusterClient Unit where
  get _ object world := (.error (Error.ofFailure (offlineGet object)), world)
  create object world := (.error (Error.ofFailure (offlineCreate object)), world)
  pause world := (false, world)

end ClusterClient

end BuildPipeline
