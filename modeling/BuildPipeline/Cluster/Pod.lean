import BuildPipeline.Job.Basic

namespace BuildPipeline

open Document

structure SecretMount where
  volume : String
  path : String
  secret : String
deriving DecidableEq, Repr

structure Pod where
  name : String
  project : String
  labels : Option (List (String × String)) := none
  image : String
  command : List String
  args : List String := []
  env : List (String × Value) := []
  secrets : List SecretMount := []

namespace Pod

def envList (env : List (String × Value)) : Value :=
  .list ((Text.sortByKey env).map fun entry =>
    .object [("name", .string entry.1), ("value", entry.2)])

def labelFields (labels : List (String × String)) : Value :=
  .object (labels.map fun entry => (entry.1, .string entry.2))

def mountFields (mount : SecretMount) : Value :=
  .object [("name", .string mount.volume), ("mountPath", .string mount.path),
    ("readOnly", .bool true)]

def volumeFields (mount : SecretMount) : Value :=
  .object [("name", .string mount.volume),
    ("secret", .object [("secretName", .string mount.secret)])]

def fieldUnless (absent : Bool) (key : String) (value : Value) : List (String × Value) :=
  if absent then [] else [(key, value)]

def container (pod : Pod) : Value :=
  .object
    ([("name", .string pod.name), ("image", .string pod.image),
      ("command", Value.texts pod.command)]
      ++ fieldUnless pod.args.isEmpty "args" (Value.texts pod.args)
      ++ fieldUnless pod.env.isEmpty "env" (envList pod.env)
      ++ fieldUnless pod.secrets.isEmpty "volumeMounts"
        (.list (pod.secrets.map mountFields)))

def metadata (pod : Pod) : Value :=
  .object
    ([("name", .string pod.name), ("namespace", .string pod.project)]
      ++ (match pod.labels with
          | some labels => [("labels", labelFields labels)]
          | none => []))

def document (pod : Pod) : Value :=
  .object
    [("apiVersion", .string "v1"), ("kind", .string "Pod"), ("metadata", pod.metadata),
      ("spec", .object
        ([("restartPolicy", .string "Never"), ("containers", .list [pod.container])]
          ++ fieldUnless pod.secrets.isEmpty "volumes"
            (.list (pod.secrets.map volumeFields))))]

def ofJob (job : Job) (name image : String) (command : List String) (args : List String)
    (env : List (String × Value)) : Pod :=
  { name, project := job.project, labels := some job.ownerLabels, image,
    command, args, env }

end Pod

end BuildPipeline
