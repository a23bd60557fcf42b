import BuildPipeline.CommandLine.Program
import BuildPipeline.Proofs.Release.Mirror
import BuildPipeline.Proofs.Release.Promotion
import BuildPipeline.Proofs.Task.PodRun

namespace BuildPipeline

open Document

variable {σ : Type}

namespace ClusterClient

variable {client : ClusterClient σ} {held : σ → ObjectName → Option Value}
  {foreign : ObjectName → Prop}

/-- A client that creates every pod it is asked for where there is none. -/
def Complies (client : ClusterClient σ) (held : σ → ObjectName → Option Value) : Prop :=
  ∀ (pod : Pod) world, held world pod.object = none →
    held (client.create pod.document world).2 pod.object = some pod.document

theorem Honest.runPod_creates (honest : client.Honest held foreign)
    (complies : client.Complies held) (pod : Pod) (own : ¬ foreign pod.object) {world : σ}
    (absent : held world pod.object = none) (patience : Nat) :
    held (client.runPod patience pod.document world).2 pod.object = some pod.document := by
  have created := complies pod world absent
  have looked := honest.get true pod.object (client.create pod.document world).2 own
  have settled :=
    (honest.respects_held own).settle (.string pod.project) (.string pod.name) patience
  rcases runPod_cases client patience pod world with
    ⟨current, _, eq⟩ | ⟨_, _, ⟨_, _, eq, rfl | rfl⟩ | ⟨_, current, eq⟩⟩
  · rw [eq]
    exact (settled current _).trans created
  · rw [eq]
    exact created
  · rw [eq]
    exact looked.trans created
  · rw [eq]
    exact (settled current _).trans (looked.trans created)

end ClusterClient

namespace Facilities

variable {facilities : Facilities σ} {held : σ → ObjectName → Option Value}
  {foreign : ObjectName → Prop} {job : Job} {configuration : Configuration}
  {promotion : Promotion}
  {required : List String} {world looked : σ} {targets : List (String × String)}
  {stream repository : Value} {records : List (Option String × String)}
  {pull : String → String}

def promotionPod (job : Job) : ObjectName :=
  ⟨"Pod", job.project, Mirror.podName⟩

theorem runPod_snd (facilities : Facilities σ) (pod : Pod) (world : σ) :
    (facilities.runPod pod world).2
      = (facilities.client.runPod facilities.patience pod.document world).2 := by
  unfold runPod
  split <;> rename_i ran <;> rw [ran]

theorem copyTargets_creates (honest : facilities.client.Honest held foreign)
    (complies : facilities.client.Complies held) (own : ¬ foreign (promotionPod job))
    (absent : held world (promotionPod job) = none) (some_targets : targets ≠ []) :
    held (facilities.copyTargets job targets world).2 (promotionPod job)
      = some (Mirror.pod targets job.project).document := by
  have copied : (facilities.copyTargets job targets world).2
      = (facilities.runPod (Mirror.pod targets job.project) world).2 := by
    rw [copyTargets, if_neg (by simpa using some_targets)]
  rw [copied, runPod_snd]
  exact honest.runPod_creates complies (Mirror.pod targets job.project) own absent
    facilities.patience

theorem run_promotion_of_active (facilities : Facilities σ) (job : Job)
    (required : List String) (world : σ)
    (active : configuration.activePromotion? = some promotion) :
    facilities.run ⟨job, .promotion configuration required⟩ world
      = tagging Reason.promoting
          (if (configuration.promoted required).2.isEmpty then (.ok (), world)
            else facilities.promote job promotion
              (configuration.promoted required).1 world) := by
  simp only [run, runPromotion, performPromotion, active]

theorem promote_eq (served : facilities.client.get true (pipelineStream job.project) world
      = (.ok stream, looked)) {tags : List (String × ImageReference)}
    (answered : Mirror.targets tags stream promotion.registry = .ok targets) :
    facilities.promote job promotion tags world =
      facilities.copyTargets job targets looked := by
  rw [promote, served]
  simp only [answered]

theorem held_run_promotion (honest : facilities.client.Honest held foreign)
    (complies : facilities.client.Complies held) (own : ¬ foreign (promotionPod job))
    (absent : held world (promotionPod job) = none)
    (active : configuration.activePromotion? = some promotion)
    (served : facilities.client.get true (pipelineStream job.project) world =
      (.ok stream, looked))
    (reads : ImageStream.Reads stream repository records)
    (pulls : ∀ entry ∈ (configuration.promoted required).1,
      Mirror.Pulls records repository entry.1 (pull entry.1))
    (apart : ((configuration.promoted required).1.map fun entry => pull entry.1).Nodup) :
    held (facilities.run ⟨job, .promotion configuration required⟩ world).2
      (promotionPod job)
      = if (configuration.promoted required).2 = [] then none
        else some (Mirror.pod (Mirror.copies pull promotion.registry
          (configuration.promoted required).1) job.project).document := by
  rw [run_promotion_of_active facilities job required world active, tagging]
  by_cases unnamed : (configuration.promoted required).2 = []
  · simp only [unnamed, List.isEmpty_nil, if_true]
    exact absent
  · have some_tags : (configuration.promoted required).1 ≠ [] := fun none =>
      unnamed ((Configuration.promoted_eq_nil_iff active).mp none).1
    have kept := honest.get true (pipelineStream job.project) world own
    rw [served] at kept
    rw [if_neg (by simpa using unnamed), if_neg unnamed,
      promote_eq served (Mirror.targets_of_nodup reads pulls apart promotion.registry)]
    exact copyTargets_creates honest complies own (kept.trans absent)
      fun none => some_tags (List.map_eq_nil_iff.mp none)

theorem promotedTags_copies {surroundings : CommandLine.Surroundings} {path : String}
    (loaded : surroundings.configuration path = .ok configuration) (pull : String → String)
    (registry : String) (asJson : Bool) :
    ∃ references, surroundings.promotedTags path asJson
        = .ok (.printed (if asJson then [Json.indentedTexts references] else references))
      ∧ (references.map (registry ++ "/" ++ ·)).Perm
          ((Mirror.copies pull registry (configuration.promoted []).1).map (·.2)) := by
  refine ⟨configuration.promotedReferences.map ImageReference.text,
    Answer.bind_eq_ok.mpr ⟨configuration, loaded, rfl⟩, ?_⟩
  have listed := (List.mergeSort_perm ((configuration.promoted []).1.map (·.2))
    fun a b => decide (a.text ≤ b.text)).map (Mirror.place registry)
  rw [List.map_map] at listed
  rw [List.map_map, Mirror.copies, List.map_map]
  exact listed

/-- A promotion whose sources are all recorded, each by a reference of its own, copies all
of them in one pod, if any destination is selected.  So there is a pod exactly if anything
is promoted, unless that is the build cache alone. -/
theorem run_promotion_copies (honest : facilities.client.Honest held foreign)
    (complies : facilities.client.Complies held) (own : ¬ foreign (promotionPod job))
    (absent : held world (promotionPod job) = none)
    (active : configuration.activePromotion? = some promotion)
    (served : facilities.client.get true (pipelineStream job.project) world =
      (.ok stream, looked))
    (reads : ImageStream.Reads stream repository records)
    (pulls : ∀ entry ∈ (configuration.promoted required).1,
      Mirror.Pulls records repository entry.1 (pull entry.1))
    (apart : ((configuration.promoted required).1.map fun entry => pull entry.1).Nodup) :
    (held (facilities.run ⟨job, .promotion configuration required⟩ world).2
      (promotionPod job)
        = if (configuration.promoted required).2 = [] then none
          else some (Mirror.pod (Mirror.copies pull promotion.registry
            (configuration.promoted required).1) job.project).document)
      ∧ (Mirror.arguments (Mirror.copies pull promotion.registry
            (configuration.promoted required).1)).Perm
          ((configuration.promoted required).1.map fun entry =>
            pull entry.1 ++ "=" ++ (promotion.registry ++ "/" ++ entry.2.text))
      ∧ ((held (facilities.run ⟨job, .promotion configuration required⟩ world).2
              (promotionPod job) ≠ none
            ↔ (configuration.promoted required).1 ≠ [])
          ↔ (configuration.promoted required).2 ≠ [] ∨ ¬ configuration.Caches promotion)
      ∧ (required = [] → ∀ (surroundings : CommandLine.Surroundings) (path : String)
          (asJson : Bool),
          surroundings.configuration path = .ok configuration →
          ∃ references,
            surroundings.promotedTags path asJson =
              .ok (.printed
                (if asJson then [Json.indentedTexts references] else references))
            ∧ (references.map (promotion.registry ++ "/" ++ ·)).Perm
                ((Mirror.copies pull promotion.registry
                  (configuration.promoted required).1).map (·.2))) := by
  have made := held_run_promotion honest complies own absent active served reads pulls apart
  refine ⟨made, ?_, ?_, ?_⟩
  · have written := Mirror.arguments_perm
      (Mirror.copies pull promotion.registry (configuration.promoted required).1)
    rwa [Mirror.copies, List.map_map] at written
  · have promotes : (configuration.promoted required).1 = [] ↔ _ :=
      Configuration.promoted_eq_nil_iff active
    rw [made, Ne, Ne, promotes]
    by_cases unnamed : (configuration.promoted required).2 = [] <;> simp [unnamed]
  · rintro rfl surroundings path asJson loaded
    exact promotedTags_copies loaded pull promotion.registry asJson

end Facilities

namespace MemoryCluster

theorem complies : willing.Complies find? := by
  intro pod cluster absent
  rcases create_willing pod cluster with ⟨present, _⟩ | ⟨_, stored⟩
  · exact absurd absent present
  · rw [stored, if_pos rfl]

def facilities : Facilities MemoryCluster where
  client := willing
  patience := lookLimit
  parameters _ cluster := (.ok [], cluster)

def pipeline (job : Job) (records : List (String × String)) : MemoryCluster :=
  { objects :=
      [(Facilities.pipelineStream job.project, ImageStream.ofRecords .null records)] }

theorem pipeline_get (job : Job) (records : List (String × String)) :
    facilities.client.get true (Facilities.pipelineStream job.project)
      (pipeline job records)
      = (.ok (ImageStream.ofRecords .null records), pipeline job records) := by
  have found : (pipeline job records).find? (Facilities.pipelineStream job.project)
      = some (ImageStream.ofRecords .null records) := by
    simp [find?, pipeline]
  have served : facilities.client.get true (Facilities.pipelineStream job.project)
      (pipeline job records) = get (Facilities.pipelineStream job.project)
        (pipeline job records) := rfl
  rw [served, get, found]
  rfl

def installerJob : Job := { project := "ci-op-1" }

def installerRecords : List (String × String) :=
  [("bin", "quay.io/ci/pipeline@sha256:b1"), ("installer", "quay.io/ci/pipeline@sha256:1f")]

def installerPull (tag : String) : String :=
  if tag = "bin" then "quay.io/ci/pipeline@sha256:b1" else "quay.io/ci/pipeline@sha256:1f"

theorem installerRelease_copies :
    find? (facilities.run ⟨installerJob, .promotion (Configuration.installerRelease []) []⟩
        (pipeline installerJob installerRecords)).2 (Facilities.promotionPod installerJob)
      = some (Mirror.pod [("quay.io/ci/pipeline@sha256:1f",
            "registry.ci.openshift.org/ocp/4.8:installer"),
          ("quay.io/ci/pipeline@sha256:b1",
            "registry.ci.openshift.org/build-cache/openshift-installer:master")]
          installerJob.project).document := by
  have obeys : facilities.client.Honest find? fun _ => False := honest _
  have complies : facilities.client.Complies find? := complies
  have active : (Configuration.installerRelease []).activePromotion? = some
      { project := "ocp", name := "4.8", excludedImages := ["tests"] } := rfl
  have promoted : (Configuration.installerRelease []).promoted []
      = ([("installer", ⟨"ocp", "4.8", "installer"⟩),
          ("bin", ⟨"build-cache", "openshift-installer", "master"⟩)],
        ["installer"]) := by
    decide
  have pulls : ∀ entry ∈ ((Configuration.installerRelease []).promoted []).1,
      Mirror.Pulls (installerRecords.map fun record => (some record.1, record.2))
        .null entry.1 (installerPull entry.1) := by
    rw [promoted]
    exact List.forall_mem_cons.mpr ⟨⟨by decide, rfl⟩,
      List.forall_mem_singleton.mpr ⟨by decide, rfl⟩⟩
  obtain ⟨made, _⟩ := Facilities.run_promotion_copies obeys complies not_false rfl active
    (pipeline_get installerJob installerRecords)
    (ImageStream.ofRecords_reads .null installerRecords) pulls (by rw [promoted]; decide)
  rw [made, promoted]
  rfl

def binariesRelease : Configuration :=
  { Configuration.installerRelease [] with
    images := []
    promotion := some { project := "ocp", name := "4.8" } }

/-- The build cache alone is promised and never copied. -/
theorem binariesRelease_copies_nothing :
    binariesRelease.promotion.map (·.validate) = some (.ok ())
      ∧ (binariesRelease.promoted []).1
        = [("bin", ⟨"build-cache", "openshift-installer", "master"⟩)]
      ∧ binariesRelease.promotedReferences =
          [⟨"build-cache", "openshift-installer", "master"⟩]
      ∧ Mirror.Pulls (installerRecords.map fun record => (some record.1, record.2))
          .null "bin" "quay.io/ci/pipeline@sha256:b1"
      ∧ find? (facilities.run ⟨installerJob, .promotion binariesRelease []⟩
          (pipeline installerJob installerRecords)).2
            (Facilities.promotionPod installerJob) = none := by
  have promoted : binariesRelease.promoted []
      = ([("bin", ⟨"build-cache", "openshift-installer", "master"⟩)], []) := by decide
  refine ⟨rfl, congrArg Prod.fst promoted, ?_, ⟨by decide, rfl⟩, ?_⟩
  · rw [Configuration.promotedReferences, promoted]
    exact List.mergeSort_singleton _
  · rfl

end MemoryCluster

end BuildPipeline
