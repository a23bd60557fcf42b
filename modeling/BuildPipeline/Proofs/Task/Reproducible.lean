import BuildPipeline.Proofs.Release.Reordering
import BuildPipeline.Proofs.Task.PromotionRun

namespace BuildPipeline

open Document

variable {σ : Type}

namespace Configuration

/-- The pod that a promotion decides on, if any, for what the pipeline stream shows. -/
def promotionPod? (configuration : Configuration) (required : List String)
    (project : String) (stream : Value) : Except Misuse (Option Pod) :=
  match configuration.activePromotion? with
  | none => .ok none
  | some promotion =>
      if (configuration.promoted required).2.isEmpty then .ok none
      else (Mirror.targets (configuration.promoted required).1 stream
        promotion.registry).map
        fun targets => if targets.isEmpty then none else some (Mirror.pod targets project)

end Configuration

namespace Facilities

variable {facilities : Facilities σ} {job : Job} {configuration : Configuration}
  {promotion : Promotion} {required : List String} {world looked : σ} {stream : Value}

/-- What a promotion does with its decision. -/
def submit (facilities : Facilities σ) (pod? : Option Pod) (world : σ) :
    Except Error Unit × σ :=
  tagging Reason.promoting
    (match pod? with
      | none => (.ok (), world)
      | some pod =>
          ((facilities.runPod pod world).1.mapError notPromoted,
            (facilities.runPod pod world).2))

theorem submit_targets (facilities : Facilities σ) (job : Job)
    (targets : List (String × String)) (world : σ) :
    tagging Reason.promoting (facilities.copyTargets job targets world)
      = facilities.submit (if targets.isEmpty then none
        else some (Mirror.pod targets job.project)) world := by
  unfold copyTargets
  split <;> rfl

/-- A promotion with nothing selected does not even look at the stream; any other submits
what it has decided on once it has looked. -/
theorem run_promotion_submits {pod? : Option Pod}
    (active : configuration.activePromotion? = some promotion)
    (served : facilities.client.get true (pipelineStream job.project) world =
      (.ok stream, looked))
    (decided : configuration.promotionPod? required job.project stream = .ok pod?) :
    facilities.run ⟨job, .promotion configuration required⟩ world
      = facilities.submit pod?
          (if (configuration.promoted required).2 = [] then world else looked) := by
  rw [run_promotion_of_active facilities job required world active]
  simp only [Configuration.promotionPod?, active] at decided
  by_cases unnamed : (configuration.promoted required).2 = []
  · rw [if_pos (by simpa using unnamed)] at decided ⊢
    cases decided
    rw [if_pos unnamed]
    rfl
  · rw [if_neg (by simpa using unnamed)] at decided ⊢
    cases answered : Mirror.targets (configuration.promoted required).1 stream
      promotion.registry with
    | error fault =>
        rw [answered] at decided
        cases decided
    | ok targets =>
        rw [answered] at decided
        cases decided
        rw [if_neg unnamed, promote_eq served answered, submit_targets]

end Facilities

namespace Configuration

variable {configuration : Configuration} {promotion : Promotion} {required : List String}
  {images : List ImageBuild} {excluded : List String} {additional : List (String × String)}
  {stream stream' : Value} {records : List (Option String × String)} {address : String}

theorem promotionPod?_relisted (active : configuration.activePromotion? = some promotion)
    (keyed : (Table.keys promotion.additionalImages).Nodup)
    (reads : ImageStream.Reads stream (.string address) records)
    (once : (records.filterMap (·.1)).Nodup)
    (sole : (promotion.select configuration.images required).IsSole)
    (apart : Mirror.HasOwnSources records (.string address)
      (configuration.promoted required).1)
    (reorders : configuration.images.Perm images)
    (excludes : promotion.excludedImages.Perm excluded)
    (adds : promotion.additionalImages.Perm additional)
    (streams : ImageStream.Reordered stream stream') (project : String) :
    ∃ pod?, configuration.promotionPod? required project stream = .ok pod?
      ∧ (configuration.relisted promotion images excluded additional).promotionPod?
          required project stream' = .ok pod? := by
  have names : (configuration.promoted required).2.Perm _ :=
    names_relisted active keyed reorders excludes adds
  obtain ⟨others, recorded, reads'⟩ := reads.reordered streams
  obtain ⟨targets, targets', answered, answered', same, table⟩ :=
    Mirror.targets_reordered reads reads' (ImageStream.recorded_perm once recorded)
    (promoted_relisted active keyed sole reorders excludes adds)
    (keys_nodup_promoted configuration required) apart promotion.registry
  have answered' :
      Mirror.targets
        ((configuration.relisted promotion images excluded additional).promoted required).1
        stream' (promotion.relisted excluded additional).registry = .ok targets' :=
    answered'
  have pods : Mirror.pod targets project = Mirror.pod targets' project :=
    Mirror.pod_of_arguments (Mirror.arguments_reordered table same) project
  unfold promotionPod?
  simp only [active, activePromotion?_relisted active, ← names.isEmpty_eq]
  by_cases unnamed : (configuration.promoted required).2.isEmpty = true
  · rw [if_pos unnamed, if_pos unnamed]
    exact ⟨none, rfl, rfl⟩
  · rw [if_neg unnamed, if_neg unnamed, answered, answered']
    refine ⟨_, rfl, ?_⟩
    simp only [Except.map, pods, same.isEmpty_eq]

end Configuration

namespace Facilities

/-- A promotion is reproducible.  Where no two destinations share a source, the stream
lists no tag twice and no two promoted tags are pulled from one reference, there is one
pod, or none, that the promotion submits in every cluster that serves the stream; and it
is the same one if the images, the exclusions, the additional images and the entries of
the stream are listed in any other order.  The build cache takes no assumption of its own:
if the binaries are kept, they go there in any order. -/
theorem run_promotion_reproducible {images : List ImageBuild} {excluded : List String}
    {additional : List (String × String)} {stream' : Value} {address : String}
    {records : List (Option String × String)}
    (active : configuration.activePromotion? = some promotion)
    (keyed : (Table.keys promotion.additionalImages).Nodup)
    (reads : ImageStream.Reads stream (.string address) records)
    (once : (records.filterMap (·.1)).Nodup)
    (sole : (promotion.select configuration.images required).IsSole)
    (apart : Mirror.HasOwnSources records (.string address)
      (configuration.promoted required).1)
    (reorders : configuration.images.Perm images)
    (excludes : promotion.excludedImages.Perm excluded)
    (adds : promotion.additionalImages.Perm additional)
    (streams : ImageStream.Reordered stream stream') (job : Job) :
    ∃ pod?, configuration.promotionPod? required job.project stream = .ok pod?
      ∧ (configuration.relisted promotion images excluded additional).promotionPod? required
          job.project stream' = .ok pod?
      ∧ ∀ (facilities : Facilities σ) (world looked : σ),
        (facilities.client.get true (pipelineStream job.project) world =
          (.ok stream, looked) →
          facilities.run ⟨job, .promotion configuration required⟩ world
            = facilities.submit pod?
                (if (configuration.promoted required).2 = [] then world else looked))
        ∧ (facilities.client.get true (pipelineStream job.project) world =
            (.ok stream', looked) →
          facilities.run
              ⟨job, .promotion (configuration.relisted promotion images excluded additional)
                required⟩
              world
            = facilities.submit pod?
                (if (configuration.promoted required).2 = [] then world else looked)) := by
  have names : (configuration.promoted required).2.Perm _ :=
    Configuration.names_relisted active keyed reorders excludes adds
  have active' :
      (configuration.relisted promotion images excluded additional).activePromotion?
      = some (promotion.relisted excluded additional) :=
    Configuration.activePromotion?_relisted active
  obtain ⟨pod?, decided, decided'⟩ :=
    Configuration.promotionPod?_relisted active keyed reads once sole
    apart reorders excludes adds streams job.project
  refine ⟨pod?, decided, decided', fun facilities world looked =>
    ⟨fun served => run_promotion_submits active served decided, fun served => ?_⟩⟩
  rw [run_promotion_submits active' served decided']
  simp only [← List.isEmpty_iff, names.isEmpty_eq]

end Facilities

namespace Configuration

def toolPromotion : Promotion where
  project := "ocp"
  name := "4.8"
  excludedImages := ["oc", "tests"]
  additionalImages := [("artifacts", "cli-artifacts"), ("deployer", "cli-deployer")]

def toolRelease : Configuration where
  metadata := { org := "openshift", repo := "oc", branch := "master" }
  images :=
    [{ target := "cli" }, { target := "oc" }, { target := "docs", optional := true }]
  binaryCommands := "make build"
  promotion := some toolPromotion

def toolPull (tag : String) : String :=
  "quay.io/ci/pipeline:" ++ tag

def toolRecords : List (String × String) :=
  ["bin", "cli", "cli-artifacts", "cli-deployer"].map fun tag => (tag, toolPull tag)

theorem toolRelease_reproducible :
    ∃ pod, toolRelease.promotionPod? [] "ci-op-1"
      (ImageStream.ofRecords (.string "") toolRecords)
        = .ok (some pod)
      ∧ (toolRelease.relisted toolPromotion toolRelease.images.reverse
          toolPromotion.excludedImages.reverse
            toolPromotion.additionalImages.reverse).promotionPod? []
            "ci-op-1" (ImageStream.ofRecords (.string "") toolRecords.reverse) =
              .ok (some pod) := by
  have active : toolRelease.activePromotion? = some toolPromotion := rfl
  have pulls : ∀ entry ∈ (toolRelease.promoted []).1,
      Mirror.Pulls (toolRecords.map fun record => (some record.1, record.2))
        (.string "") entry.1 (toolPull entry.1) := by
    intro entry listed
    have sources : Table.keys (toolRelease.promoted []).1
        = ["cli", "cli-artifacts", "cli-deployer", "bin"] := by decide
    have known : entry.1 ∈ ["cli", "cli-artifacts", "cli-deployer", "bin"] :=
      sources ▸ List.mem_map_of_mem listed
    generalize entry.1 = tag at known
    simp only [List.mem_cons, List.not_mem_nil, or_false] at known
    rcases known with rfl | rfl | rfl | rfl <;> exact ⟨by decide, rfl⟩
  obtain ⟨pod?, decided, decided', _⟩ :=
    Facilities.run_promotion_reproducible (σ := Unit) active
    (by decide) (ImageStream.ofRecords_reads (.string "") toolRecords) (by decide)
    (Selection.isSole_of_nodup (by decide))
    (Mirror.hasOwnSources_of_nodup pulls (by decide))
    (List.reverse_perm _).symm (List.reverse_perm _).symm (List.reverse_perm _).symm
    (ImageStream.ofRecords_reordered (.string "") (List.reverse_perm _).symm)
    { project := "ci-op-1" }
  cases pod? with
  | none =>
      have submits : (toolRelease.promotionPod? [] "ci-op-1"
          (ImageStream.ofRecords (.string "") toolRecords)).map Option.isSome =
          .ok true := rfl
      rw [show toolRelease.promotionPod? [] "ci-op-1" _ = .ok none from decided] at submits
      cases submits
  | some pod => exact ⟨pod, decided, decided'⟩

end Configuration

end BuildPipeline
