import BuildPipeline.Rehearsal.World
import BuildPipeline.Task.Site

namespace BuildPipeline

open Document

/-- One task on its own: a cluster kept in memory, with rehearsed parameters. -/
structure Bench where
  cluster : MemoryCluster
  rehearsal : Rehearsal := {}

namespace Bench

def client : ClusterClient Bench where
  get _ object bench :=
    let (outcome, cluster) := MemoryCluster.get object bench.cluster
    (outcome, { bench with cluster })
  create object bench :=
    let (outcome, cluster) := MemoryCluster.create object bench.cluster
    (outcome, { bench with cluster })
  pause bench :=
    let (cancelled, cluster) := bench.cluster.pause
    (cancelled, { bench with cluster })

def parameters (register : Register Answer) (names : List Value) (bench : Bench) :
    Except Error (List (String × Value)) × Bench :=
  let (outcome, resolved, rehearsal) :=
    Rehearsal.resolving.environment register bench.rehearsal.resolved names bench.rehearsal
  (outcome, { bench with rehearsal := { rehearsal with resolved } })

def facilities (register : Register Answer) : Facilities Bench where
  client := client
  patience := MemoryCluster.lookLimit + 1
  parameters := parameters register

def runs (register : Register Answer) (task : Task) :
    Nat → Bench → List (Except Error Unit) × Bench
  | 0, bench => ([], bench)
  | count + 1, bench =>
      let (outcome, bench) := (facilities register).run task bench
      let (outcomes, bench) := runs register task count bench
      (outcome :: outcomes, bench)

end Bench

end BuildPipeline
