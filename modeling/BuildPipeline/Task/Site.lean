import BuildPipeline.Cluster.Memory
import BuildPipeline.Execution.Coordinator
import BuildPipeline.Graph.Build
import BuildPipeline.Parameter.Resolution
import BuildPipeline.Rehearsal.Watch
import BuildPipeline.Task.Plan
import BuildPipeline.Task.Run

namespace BuildPipeline

open Document

variable {σ : Type}

/-- Where a plan is carried out: a cluster, the parameter values found so far, the tasks
launched, and what the hook has seen. -/
structure Site (σ : Type) where
  cluster : σ
  resolved : Resolved := []
  tasks : List (String × Task) := []
  watch : Option Watch := none
  seen : Watch.Seen := {}

structure Provider (σ : Type) where
  client : ClusterClient σ
  cancelled : σ → Bool
  patience : Nat

namespace Provider

def onSite (provider : Provider σ) : ClusterClient (Site σ) where
  get inRun object site :=
    let (outcome, cluster) := provider.client.get inRun object site.cluster
    (outcome, { site with cluster })
  create object site :=
    let (outcome, cluster) := provider.client.create object site.cluster
    (outcome, { site with cluster })
  pause site :=
    let (cancelled, cluster) := provider.client.pause site.cluster
    (cancelled, { site with cluster })

def resolving (provider : Provider σ) : Resolving PullSpec (Site σ) where
  resolve spec site := spec.read provider.onSite site

def parameters (provider : Provider σ) (register : Register PullSpec) (names : List Value)
    (site : Site σ) : Except Error (List (String × Value)) × Site σ :=
  let (outcome, resolved, site) :=
    provider.resolving.environment register site.resolved names site
  (outcome, { site with resolved })

def facilities (provider : Provider σ) (register : Register PullSpec) :
    Facilities (Site σ) where
  client := provider.onSite
  patience := provider.patience
  parameters := provider.parameters register

/-- Steps are carried out one at a time, in the order in which they were started. -/
def carryOut (provider : Provider σ) (register : Register PullSpec) :
    List String → Site σ → List Completion × Site σ
  | [], site => ([], site)
  | name :: _, site =>
      match Table.get? site.tasks name with
      | none => ([⟨name, .ok ()⟩], site)
      | some task =>
          let (outcome, site) := (provider.facilities register).run task site
          ([⟨name, outcome⟩], site)

def tellHook (event : Event) (site : Site σ) : Except Error Unit × Site σ :=
  match site.watch with
  | none => (.ok (), site)
  | some watch =>
      let (outcome, seen) := watch.observe event site.seen
      (outcome, { site with seen })

def environment (provider : Provider σ) : Environment Task PullSpec (Site σ) where
  cancelled site := provider.cancelled site.cluster
  now _ := default
  launch step site := { site with tasks := Table.put site.tasks step.name step.work }
  await ledger inFlight site := provider.carryOut ledger.register inFlight site
  hook _ event site := tellHook event site

end Provider

namespace Plan

def graph (plan : Plan) : Except Failure (StepGraph Task PullSpec) :=
  StepGraph.build (plan.requested.map Task.step) (plan.implicit.map Task.step)

end Plan

namespace Site

/-- Every turn but the last brings a step to its end, so the run of a graph is never cut
short. -/
def run (provider : Provider σ) (graph : StepGraph Task PullSpec) (parallelism : Int)
    (site : Site σ) : Environment.Ending × Progress PullSpec (Site σ) :=
  provider.environment.run graph parallelism (graph.steps.length + 2) {} site

end Site

namespace MemoryCluster

def provider : Provider MemoryCluster where
  client := client
  cancelled cluster := cluster.context.isCancelled
  patience := lookLimit + 1

end MemoryCluster

end BuildPipeline
