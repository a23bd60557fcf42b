import BuildPipeline.Proofs.Cluster.Complaints
import BuildPipeline.Task.Site

namespace BuildPipeline

open Document

variable {σ : Type}

theorem PullSpec.supplied_read {client : ClusterClient σ} (supplied : client.Supplied)
    (spec : PullSpec) (world : σ) : Answer.Supplied (spec.read client world).1 := by
  have looked := supplied.get false (Facilities.pipelineStream spec.project) world
  unfold PullSpec.read
  split <;> rename_i eq
  · rwa [eq] at looked
  · split
    · exact rfl
    · split
      · exact trivial
      · exact rfl

namespace Facilities

variable {facilities : Facilities σ}

theorem supplied_runPod (supplied : facilities.client.Supplied) (pod : Pod) (world : σ) :
    Answer.Supplied (facilities.runPod pod world).1 := by
  have ran := supplied.runPod facilities.patience pod.document world
  unfold runPod
  split <;> rename_i eq
  · exact trivial
  · rwa [eq] at ran

theorem supplied_tagging (reason : String) {answer : Except Error Unit × σ}
    (supplied : Answer.Supplied answer.1) : Answer.Supplied (tagging reason answer).1 :=
  supplied.mapError fun error plain => (error.lacksParameter_causing _).trans plain

theorem supplied_runTest (supplied : facilities.client.Supplied) (job : Job)
    (test : TestPlan) (world : σ)
    (read : Answer.Supplied (facilities.parameters test.parameters world).1) :
    Answer.Supplied (facilities.runTest job test world).1 := by
  refine supplied_tagging _ ?_
  unfold performTest
  split <;> rename_i eq
  · rwa [eq] at read
  · exact supplied_runPod supplied _ _

end Facilities

namespace Provider

variable {provider : Provider σ}

theorem supplied_onSite (supplied : provider.client.Supplied) :
    provider.onSite.Supplied where
  get inRun object site := supplied.get inRun object site.cluster
  create pod site := supplied.create pod site.cluster

/-- A test whose parameters the register has is not refused for want of one, wherever it
is run. -/
theorem supplied_run (supplied : provider.client.Supplied) {register : Register PullSpec}
    {task : Task} {test : TestPlan} {sources : List (String × String)}
    (runs : task.work = .test test sources)
    (known : ∀ parameter ∈ test.parameters,
      ∃ name, parameter = .string name ∧ register.has name = true) (site : Site σ) :
    Answer.Supplied ((provider.facilities register).run task site).1 := by
  have onSite := supplied_onSite supplied
  unfold Facilities.run
  rw [runs]
  refine Facilities.supplied_runTest onSite task.job test site ?_
  exact Resolving.supplied_environmentFrom
    (fun spec site => spec.supplied_read onSite site) known [] site.resolved site

end Provider

end BuildPipeline
