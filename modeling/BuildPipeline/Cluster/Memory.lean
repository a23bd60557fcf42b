import BuildPipeline.Cluster.Client
import BuildPipeline.Execution.Context
import BuildPipeline.Table

namespace BuildPipeline

open Document

/-! A cluster kept in memory.  Its pods go through phases laid down beforehand, one for
each time that they are looked at; a phase may cancel the run. -/

inductive PodMoment where
  | status (status : Value)
  | cancels

structure MemoryCluster where
  objects : List (ObjectName × Value) := []
  phases : List (String × List PodMoment) := []
  getErrors : List (String × Error) := []
  createErrors : List (String × Error) := []
  looks : List ObjectName := []
  created : List Value := []
  context : Context := {}

namespace MemoryCluster

def find? (cluster : MemoryCluster) (object : ObjectName) : Option Value :=
  (cluster.objects.find? fun entry => entry.1 == object).map (·.2)

def store (cluster : MemoryCluster) (object : ObjectName) (value : Value) : MemoryCluster :=
  { cluster with
    objects :=
      cluster.objects.filter (fun entry => entry.1 != object) ++ [(object, value)] }

def phaseStatus (phase : String) : Value :=
  .object [("phase", .string phase)]

def withStatus (value status : Value) : Value :=
  match value with
  | .mapping entries => .mapping (Entries.put entries (.string "status") status)
  | value => value

def moment (cluster : MemoryCluster) (name : String) (look : Nat) : PodMoment :=
  let moments := (Table.get? cluster.phases name).getD []
  (moments[look]? <|> moments.getLast?).getD (.status (phaseStatus "Succeeded"))

def lookLimit : Nat := 61

def serve (cluster : MemoryCluster) (object : ObjectName) (value : Value) :
    Except Error Value × MemoryCluster :=
  if object.kind ≠ "Pod" then (.ok value, cluster)
  else
    let look := cluster.looks.count object
    let seen := { cluster with looks := object :: cluster.looks }
    if lookLimit ≤ look then (.error (Error.ofFailure (.runtime "poll limit")), seen)
    else
      match cluster.moment object.name look with
      | .status status => (.ok (withStatus value status), seen)
      | .cancels =>
          (.ok (withStatus value (phaseStatus "Running")),
            { seen with context := seen.context.cancel })

def described (object : ObjectName) : String :=
  object.kind ++ " " ++ object.project ++ "/" ++ object.name

def get (object : ObjectName) (cluster : MemoryCluster) :
    Except Error Value × MemoryCluster :=
  match Table.get? cluster.getErrors object.name with
  | some error => (.error error, cluster)
  | none =>
      match cluster.find? object with
      | none =>
          (.error (Error.ofFailure (.notFound (described object ++ " not found") none)),
            cluster)
      | some value => cluster.serve object value

def nameOf (value : Value) : Except Misuse ObjectName := do
  let metadata ← value.subscript "metadata"
  let kind ← value.subscript "kind"
  let project ← metadata.subscript "namespace"
  let name ← metadata.subscript "name"
  return ⟨kind.text, project.text, name.text⟩

def createNamed (object : ObjectName) (value : Value) (cluster : MemoryCluster) :
    Except Error Value × MemoryCluster :=
  match Table.get? cluster.createErrors object.name with
  | some error => (.error error, cluster)
  | none =>
      match cluster.find? object with
      | some _ =>
          let failure :=
            Failure.alreadyExists (described object ++ " already exists") none false
          (.error (Error.ofFailure failure), cluster)
      | none =>
          let stored := cluster.store object value
          serve { stored with created := stored.created ++ [value] } object value

def create (value : Value) (cluster : MemoryCluster) : Except Error Value × MemoryCluster :=
  match nameOf value with
  | .error fault => (.error (Error.ofFailure (.misuse fault)), cluster)
  | .ok object => createNamed object value cluster

def pause (cluster : MemoryCluster) : Bool × MemoryCluster :=
  let context := cluster.context.wait 0.0
  (context.isCancelled, { cluster with context })

def client : ClusterClient MemoryCluster where
  get _ := get
  create := create
  pause := pause

end MemoryCluster

end BuildPipeline
