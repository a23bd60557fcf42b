import BuildPipeline.Cluster.Memory
import BuildPipeline.Cluster.Pod
import BuildPipeline.Proofs.Cluster.Settling

namespace BuildPipeline

open Document

variable {σ : Type}

def Pod.object (pod : Pod) : ObjectName :=
  ⟨"Pod", pod.project, pod.name⟩

theorem podIdentity_document (pod : Pod) :
    ClusterClient.podIdentity pod.document = .ok (.string pod.project, .string pod.name) :=
  rfl

theorem nameText_string (name : String) : ClusterClient.nameText (.string name) = name := by
  by_cases empty : name = ""
  · subst empty
    rfl
  · simp [ClusterClient.nameText, empty, Value.text_string]

/-- A name that holds something keeps it.  One that holds nothing may come to hold a pod
that was asked for, if that is its name. -/
def Adds (held : σ → ObjectName → Option Value) (asked : Pod → Prop) (name : ObjectName)
    (world next : σ) : Prop :=
  held next name = held world name
    ∨ ∃ pod, asked pod ∧ name = pod.object ∧ held world name = none
        ∧ held next name = some pod.document

namespace Adds

variable {held : σ → ObjectName → Option Value} {asked : Pod → Prop} {name : ObjectName}
  {world between next : σ}

theorem before (same : held between name = held world name)
    (adds : Adds held asked name between next) : Adds held asked name world next := by
  rcases adds with kept | ⟨pod, asks, named, absent, made⟩
  · exact Or.inl (kept.trans same)
  · exact Or.inr ⟨pod, asks, named, same.symm.trans absent, made⟩

theorem trans (adds : Adds held asked name world between)
    (more : Adds held asked name between next) : Adds held asked name world next := by
  rcases adds with kept | ⟨pod, asks, named, absent, made⟩
  · exact more.before kept
  · rcases more with kept | ⟨_, _, _, gone, _⟩
    · exact Or.inr ⟨pod, asks, named, absent, kept.trans made⟩
    · rw [made] at gone
      cases gone

theorem weaken {other : Pod → Prop} (adds : Adds held asked name world next)
    (implies : ∀ pod, asked pod → other pod) : Adds held other name world next := by
  rcases adds with kept | ⟨pod, asks, rest⟩
  · exact Or.inl kept
  · exact Or.inr ⟨pod, implies pod asks, rest⟩

end Adds

namespace ClusterClient

variable {client : ClusterClient σ} {related : σ → σ → Prop}

/-- A relation between the worlds before and after anything that is done, whatever reads
and waits there are in it. -/
structure Respects (client : ClusterClient σ) (related : σ → σ → Prop) : Prop where
  refl : ∀ world, related world world
  trans : ∀ {world between next}, related world between → related between next →
    related world next
  get : ∀ inRun object world, related world (client.get inRun object world).2
  pause : ∀ world, related world (client.pause world).2

namespace Respects

variable {world next : σ}

theorem paused (respects : client.Respects related) {stopped : Bool}
    (pausing : client.pause world = (stopped, next)) : related world next := by
  have kept := respects.pause world
  rwa [pausing] at kept

theorem looked (respects : client.Respects related) {inRun : Bool} {object : ObjectName}
    {answer : Except Error Value}
    (looking : client.get inRun object world = (answer, next)) :
    related world next := by
  have kept := respects.get inRun object world
  rwa [looking] at kept

theorem settling (respects : client.Respects related) {project name current : Value}
    {outcome : Except Error Value}
    (settling : client.Settling project name current world outcome next) :
    related world next := by
  induction settling with
  | succeeded | failed | misread | impatient => exact respects.refl _
  | cancelled _ pausing => exact respects.paused pausing
  | lost _ pausing looking =>
      exact respects.trans (respects.paused pausing) (respects.looked looking)
  | again _ pausing looking _ ih =>
      exact respects.trans (respects.paused pausing)
        (respects.trans (respects.looked looking) ih)

theorem settle (respects : client.Respects related) (project pod : Value) (patience : Nat)
    (current : Value) (world : σ) :
    related world (client.settle project pod patience current world).2 :=
  respects.settling (client.settling project pod patience current world)

end Respects

theorem settle_eq_ok {project pod current last : Value} {patience : Nat} {world next : σ}
    (settled : client.settle project pod patience current world = (.ok last, next)) :
    PodPhase.ofPod last = .ok .succeeded :=
  (client.settling project pod patience current world).succeeded_of_ok
    (congrArg Prod.fst settled)

theorem runPod_cases (client : ClusterClient σ) (patience : Nat) (pod : Pod) (world : σ) :
    (∃ current, (client.create pod.document world).1 = .ok current
        ∧ client.runPod patience pod.document world =
            client.settle (.string pod.project) (.string pod.name) patience current
              (client.create pod.document world).2)
      ∨ ∃ error, (client.create pod.document world).1 = .error error
        ∧ ((∃ failure looked,
            client.runPod patience pod.document world = (.error failure, looked)
              ∧ (looked = (client.create pod.document world).2
                ∨ looked = (client.get true pod.object
                    (client.create pod.document world).2).2))
          ∨ isConflict error = true ∧ ∃ current,
              client.runPod patience pod.document world =
                client.settle (.string pod.project) (.string pod.name) patience current
                  (client.get true pod.object (client.create pod.document world).2).2) := by
  have looks :
      (⟨"Pod", (Value.string pod.project).text, nameText (.string pod.name)⟩ : ObjectName) =
      pod.object := by
    rw [nameText_string, Value.text_string]
    rfl
  rw [runPod, podIdentity_document]
  rcases client.create pod.document world with ⟨error | current, created⟩
  · refine Or.inr ⟨error, rfl, ?_⟩
    by_cases conflict : isConflict error = true
    · simp only [if_pos conflict, looks]
      rcases client.get true pod.object created with ⟨failure | current, looked⟩
      · exact Or.inl ⟨failure, looked, rfl, Or.inr rfl⟩
      · exact Or.inr ⟨conflict, current, rfl⟩
    · simp only [if_neg conflict]
      exact Or.inl ⟨error, created, rfl, Or.inl rfl⟩
  · exact Or.inl ⟨current, rfl, rfl⟩

theorem Respects.runPod (respects : client.Respects related) {pod : Pod}
    (create : ∀ world, related world (client.create pod.document world).2) (patience : Nat)
    (world : σ) : related world (client.runPod patience pod.document world).2 := by
  have created := create world
  have looked := respects.get true pod.object (client.create pod.document world).2
  rcases runPod_cases client patience pod world with
    ⟨current, _, eq⟩ | ⟨_, _, ⟨_, _, eq, rfl | rfl⟩ | ⟨_, current, eq⟩⟩
  · rw [eq]
    exact respects.trans created (respects.settle _ _ _ _ _)
  · rw [eq]
    exact created
  · rw [eq]
    exact respects.trans created looked
  · rw [eq]
    exact respects.trans created (respects.trans looked (respects.settle _ _ _ _ _))

/-- A cluster that does what it is asked to.  `held` is what it holds under a name.
Objects with a `foreign` name may come and go at any time; any other changes only when a
pod of its name is created, which answers with a conflict if there is one already.  A call
that fails may have created its pod all the same. -/
structure Honest (client : ClusterClient σ) (held : σ → ObjectName → Option Value)
    (foreign : ObjectName → Prop) : Prop where
  get : ∀ inRun object world {name}, ¬ foreign name →
    held (client.get inRun object world).2 name = held world name
  pause : ∀ world {name}, ¬ foreign name → held (client.pause world).2 name =
    held world name
  create : ∀ (pod : Pod) world {name}, ¬ foreign name →
    Adds held (· = pod) name world (client.create pod.document world).2
  created : ∀ (pod : Pod) world {answer}, ¬ foreign pod.object →
    (client.create pod.document world).1 = .ok answer →
      held (client.create pod.document world).2 pod.object = some pod.document
  conflict : ∀ (pod : Pod) world {error}, ¬ foreign pod.object →
    (client.create pod.document world).1 = .error error → isConflict error = true →
      held (client.create pod.document world).2 pod.object ≠ none

namespace Honest

variable {held : σ → ObjectName → Option Value} {foreign : ObjectName → Prop}

theorem respects_held (honest : client.Honest held foreign) {name : ObjectName}
    (own : ¬ foreign name) :
    client.Respects fun world next => held next name = held world name where
  refl _ := rfl
  trans same later := later.trans same
  get inRun object world := honest.get inRun object world own
  pause world := honest.pause world own

theorem respects_adds (honest : client.Honest held foreign) {name : ObjectName}
    (own : ¬ foreign name) (asked : Pod → Prop) :
    client.Respects (Adds held asked name) where
  refl _ := Or.inl rfl
  trans := Adds.trans
  get inRun object world := Or.inl (honest.get inRun object world own)
  pause world := Or.inl (honest.pause world own)

/-- A pod that nobody else creates, and that is not there yet, is there after it was run
with success, as it was asked for, and it was seen to succeed. -/
theorem runPod_own (honest : client.Honest held foreign) {pod : Pod}
    (own : ¬ foreign pod.object) {world next : σ} (absent : held world pod.object = none)
    {patience : Nat} {last : Value}
    (ran : client.runPod patience pod.document world = (.ok last, next)) :
    held next pod.object = some pod.document ∧ PodPhase.ofPod last = .ok .succeeded := by
  have kept := honest.create pod world own
  have looked := honest.get true pod.object (client.create pod.document world).2 own
  rcases runPod_cases client patience pod world with
    ⟨current, answered, eq⟩ | ⟨error, refused, ⟨_, _, eq, _⟩ | ⟨conflict, current, eq⟩⟩
  · rw [eq] at ran
    refine ⟨?_, settle_eq_ok ran⟩
    have settled :=
      (honest.respects_held own).settle (.string pod.project) (.string pod.name)
      patience current (client.create pod.document world).2
    rw [ran] at settled
    exact settled.trans (honest.created pod world own answered)
  · rw [eq] at ran
    cases ran
  · rw [eq] at ran
    refine ⟨?_, settle_eq_ok ran⟩
    have settled :=
      (honest.respects_held own).settle (.string pod.project) (.string pod.name)
      patience current (client.get true pod.object (client.create pod.document world).2).2
    rw [ran] at settled
    have there := honest.conflict pod world own refused conflict
    rcases kept with unchanged | ⟨_, rfl, _, _, made⟩
    · exact absurd (unchanged.trans absent) there
    · exact settled.trans (looked.trans made)

end Honest

end ClusterClient

namespace MemoryCluster

theorem objects_serve (cluster : MemoryCluster) (object : ObjectName) (value : Value) :
    (cluster.serve object value).2.objects = cluster.objects := by
  unfold serve
  split
  · rfl
  · dsimp only
    split
    · rfl
    · split <;> rfl

theorem find?_serve (cluster : MemoryCluster) (object : ObjectName) (value : Value)
    (name : ObjectName) :
    (cluster.serve object value).2.find? name = cluster.find? name := by
  rw [find?, objects_serve, find?]

theorem find?_get (cluster : MemoryCluster) (object name : ObjectName) :
    (get object cluster).2.find? name = cluster.find? name := by
  unfold get
  split
  · rfl
  · split
    · rfl
    · exact find?_serve _ _ _ _

theorem find?_store_self (cluster : MemoryCluster) (object : ObjectName) (value : Value) :
    (cluster.store object value).find? object = some value := by
  have gone : (cluster.objects.filter fun entry => entry.1 != object).find?
      (fun entry => entry.1 == object) = none := by
    simp [List.find?_eq_none]
  simp [find?, store, List.find?_append, gone]

theorem find?_store_of_ne (cluster : MemoryCluster) {object name : ObjectName}
    (ne : name ≠ object) (value : Value) :
    (cluster.store object value).find? name = cluster.find? name := by
  have kept :
      (cluster.objects.filter fun entry => entry.1 != object).find?
          (fun entry => entry.1 == name) =
        cluster.objects.find? fun entry => entry.1 == name := by
    rw [List.find?_filter]
    congr 1
    funext entry
    by_cases here : entry.1 = name
    · simp [here, ne]
    · simp [here]
  simp [find?, store, List.find?_append, kept, ne.symm]

def willing : ClusterClient MemoryCluster :=
  { client with
    create := fun value cluster => create value { cluster with createErrors := [] } }

theorem create_willing (pod : Pod) (cluster : MemoryCluster) :
    (cluster.find? pod.object ≠ none ∧ ∃ error,
        willing.create pod.document cluster =
          (.error error, { cluster with createErrors := [] }))
      ∨ cluster.find? pod.object = none
        ∧ ∀ name, (willing.create pod.document cluster).2.find? name =
            if name = pod.object then some pod.document else cluster.find? name := by
  have created : willing.create pod.document cluster =
      createNamed pod.object pod.document { cluster with createErrors := [] } := rfl
  have same : ({ cluster with createErrors := [] } : MemoryCluster).find? pod.object =
      cluster.find? pod.object := rfl
  rw [created, createNamed]
  simp only [Table.get?, List.find?_nil, Option.map_none, same]
  cases found : cluster.find? pod.object with
  | some value => exact Or.inl ⟨by simp, _, rfl⟩
  | none =>
      refine Or.inr ⟨rfl, fun name => ?_⟩
      rw [find?_serve]
      by_cases own : name = pod.object
      · subst own
        rw [if_pos rfl]
        exact find?_store_self { cluster with createErrors := [] } pod.object pod.document
      · rw [if_neg own]
        exact find?_store_of_ne { cluster with createErrors := [] } own pod.document

theorem honest (foreign : ObjectName → Prop) : willing.Honest find? foreign where
  get _ object cluster name _ := find?_get cluster object name
  pause _ _ _ := rfl
  create pod cluster name _ := by
    rcases create_willing pod cluster with ⟨_, error, eq⟩ | ⟨absent, stored⟩
    · rw [eq]
      exact Or.inl rfl
    · by_cases own : name = pod.object
      · subst own
        exact Or.inr ⟨pod, rfl, rfl, absent, (stored _).trans (if_pos rfl)⟩
      · exact Or.inl ((stored _).trans (if_neg own))
  created pod cluster answer _ answered := by
    rcases create_willing pod cluster with ⟨_, error, eq⟩ | ⟨_, stored⟩
    · rw [eq] at answered
      cases answered
    · rw [stored, if_pos rfl]
  conflict pod cluster error _ _ _ := by
    rcases create_willing pod cluster with ⟨present, error, eq⟩ | ⟨_, stored⟩
    · rw [eq]
      exact present
    · rw [stored, if_pos rfl]
      simp

end MemoryCluster

end BuildPipeline
