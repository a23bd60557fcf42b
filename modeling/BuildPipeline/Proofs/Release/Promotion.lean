import BuildPipeline.Proofs.Table
import BuildPipeline.Release.Promoted

namespace BuildPipeline

namespace Selection

def Lists (selection : Selection) (destination source : String) : Prop :=
  (destination, source) ∈ selection.sources

/-- No two destinations share a source. -/
def IsSole (selection : Selection) : Prop :=
  ∀ one other source, selection.Lists one source →
    selection.Lists other source → one = other

/-- The destination that is listed last for its source. -/
def ListsLast (selection : Selection) (destination source : String) : Prop :=
  ∃ before after, selection.sources = before ++ (destination, source) :: after
    ∧ source ∉ after.map (·.2)

instance (selection : Selection) (destination source : String) :
    Decidable (selection.Lists destination source) :=
  inferInstanceAs (Decidable (_ ∈ _))

theorem ListsLast.lists {selection : Selection} {destination source : String}
    (last : selection.ListsLast destination source) :
    selection.Lists destination source := by
  obtain ⟨before, after, split, _⟩ := last
  rw [Lists, split]
  exact List.mem_append_right _ List.mem_cons_self

theorem eq_of_last {one other source : String}
    {between after after' : List (String × String)}
    (split : (one, source) :: after = between ++ (other, source) :: after')
    (last : source ∉ after.map (·.2)) : one = other := by
  cases between with
  | nil =>
      cases split
      rfl
  | cons entry between =>
      obtain ⟨_, rfl⟩ := List.cons.inj split
      exact absurd (by simp) last

theorem ListsLast.unique {selection : Selection} {one other source : String}
    (last : selection.ListsLast one source) (last' : selection.ListsLast other source) :
    one = other := by
  obtain ⟨before, after, split, none_after⟩ := last
  obtain ⟨before', after', split', none_after'⟩ := last'
  rcases List.append_eq_append_iff.mp (split.symm.trans split') with
    ⟨between, _, eq⟩ | ⟨between, _, eq⟩
  · exact eq_of_last eq none_after
  · exact (eq_of_last eq none_after').symm

theorem Lists.last {selection : Selection} {destination source : String}
    (listed : selection.Lists destination source)
    (distinct : (selection.sources.map (·.2)).Nodup) :
    selection.ListsLast destination source := by
  obtain ⟨before, after, split⟩ := List.append_of_mem listed
  refine ⟨before, after, split, ?_⟩
  rw [split, List.map_append, List.map_cons] at distinct
  exact (List.nodup_cons.mp (List.nodup_append.mp distinct).2.1).1

def IsTable (selection : Selection) : Prop :=
  (Table.keys selection.sources).Nodup

theorem IsTable.add {selection : Selection} (table : selection.IsTable)
    (destination source : String) : (selection.add destination source).IsTable :=
  Table.keys_nodup_put table _ _

theorem IsTable.remove {selection : Selection} (table : selection.IsTable)
    (destination : String) : (selection.remove destination).IsTable :=
  Table.keys_nodup_erase table _

theorem IsSole.listsLast_iff {selection : Selection} (table : selection.IsTable)
    (sole : selection.IsSole) {destination source : String} :
    selection.ListsLast destination source ↔ selection.Lists destination source := by
  refine ⟨ListsLast.lists, fun listed => listed.last ?_⟩
  exact (List.Nodup.of_map _ table).map_on fun one hone other hother same =>
    Prod.ext (sole one.1 other.1 one.2 hone (same ▸ hother)) same

/-- The names of a selection are its destinations. -/
def IsNamed (selection : Selection) : Prop :=
  selection.names = Table.keys selection.sources

theorem IsNamed.add {selection : Selection} (named : selection.IsNamed)
    (destination source : String) : (selection.add destination source).IsNamed := by
  rw [IsNamed] at named ⊢
  simp only [Selection.add, Table.keys_put, named]

theorem IsNamed.remove {selection : Selection} (named : selection.IsNamed)
    (destination : String) : (selection.remove destination).IsNamed := by
  rw [IsNamed] at named ⊢
  simp only [Selection.remove, named, Table.keys, Table.erase, List.filter_map]
  congr 1
  exact List.filter_congr fun entry _ => by simp [bne, beq_eq_decide]

end Selection

namespace Promotion

theorem destination_injective (promotion : Promotion) {one other : String}
    (same : promotion.destination one = promotion.destination other) : one = other := by
  unfold destination at same
  split at same
  · exact (ImageReference.mk.inj same).2.1
  · exact (ImageReference.mk.inj same).2.2

theorem select_keeps (promotion : Promotion) (images : List ImageBuild)
    (required : List String) {holds : Selection → Prop} (empty : holds {})
    (add : ∀ {selection}, holds selection → ∀ destination source,
      holds (selection.add destination source))
    (remove : ∀ {selection}, holds selection → ∀ destination,
      holds (selection.remove destination)) : holds (promotion.select images required) := by
  unfold select
  split
  · exact empty
  · have built := List.foldlRecOn (images.filter (wanted required)) _ empty
      fun _ kept image _ => add kept image.target image.target
    have kept := List.foldlRecOn promotion.excludedImages Selection.remove built
      fun _ kept tag _ => remove kept tag
    exact List.foldlRecOn promotion.additionalImages _ kept
      fun _ kept entry _ => add kept entry.1 entry.2

theorem isTable_select (promotion : Promotion) (images : List ImageBuild)
    (required : List String) : (promotion.select images required).IsTable :=
  promotion.select_keeps images required List.nodup_nil Selection.IsTable.add
    Selection.IsTable.remove

theorem isNamed_select (promotion : Promotion) (images : List ImageBuild)
    (required : List String) : (promotion.select images required).IsNamed :=
  promotion.select_keeps images required rfl Selection.IsNamed.add Selection.IsNamed.remove

end Promotion

namespace Configuration

variable {configuration : Configuration} {promotion : Promotion} {required : List String}

/-- The binaries are kept for later runs. -/
def Caches (configuration : Configuration) (promotion : Promotion) : Prop :=
  configuration.binaryCommands ≠ "" ∧ promotion.disableBuildCache = false

instance : Decidable (configuration.Caches promotion) :=
  inferInstanceAs (Decidable (_ ∧ _))

def Sends (configuration : Configuration) (required : List String) (source : String)
    (reference : ImageReference) : Prop :=
  (source, reference) ∈ (configuration.promoted required).1

instance (source : String) (reference : ImageReference) :
    Decidable (configuration.Sends required source reference) :=
  inferInstanceAs (Decidable (_ ∈ _))

/-- What is sent for a source: the binaries to the build cache if they are kept, and
otherwise the image to the last destination that is listed for it. -/
theorem sends_iff (active : configuration.activePromotion? = some promotion)
    {source : String} {reference : ImageReference} :
    configuration.Sends required source reference
      ↔ (configuration.Caches promotion ∧ source = Names.binariesTag
          ∧ reference = configuration.metadata.buildCache)
        ∨ ¬ (configuration.Caches promotion ∧ source = Names.binariesTag)
          ∧ ∃ destination,
              (promotion.select configuration.images required).ListsLast destination source
                ∧ reference = promotion.destination destination := by
  have by_source : (source, reference) ∈
      (promotion.select configuration.images required).sources.foldl
        (fun promoted entry => Table.put promoted entry.2 (promotion.destination entry.1))
        []
      ↔ ∃ destination,
          (promotion.select configuration.images required).ListsLast destination source
            ∧ reference = promotion.destination destination := by
    rw [Table.mem_foldl_put]
    simp only [List.not_mem_nil, and_false, or_false]
    constructor
    · rintro ⟨before, ⟨destination, tag⟩, after, split, rfl, last, rfl⟩
      exact ⟨destination, ⟨before, after, split, last⟩, rfl⟩
    · rintro ⟨destination, ⟨before, after, split, last⟩, rfl⟩
      exact ⟨before, (destination, source), after, split, rfl, last, rfl⟩
  simp only [Sends, promoted, active]
  by_cases caches : configuration.Caches promotion
  · rw [if_neg (by simpa [Caches] using caches), Table.mem_put, by_source]
    simp only [caches, true_and]
  · rw [if_pos (by simpa [Caches, Classical.or_iff_not_imp_left] using caches), by_source]
    simp only [caches, false_and, false_or, not_false_eq_true, true_and]

theorem sends_destination_iff (active : configuration.activePromotion? = some promotion)
    {destination source : String} :
    configuration.Sends required source (promotion.destination destination)
      ↔ if configuration.Caches promotion ∧ source = Names.binariesTag
        then promotion.destination destination = configuration.metadata.buildCache
        else (promotion.select configuration.images required).ListsLast
          destination source := by
  rw [sends_iff active]
  split
  · rename_i binaries
    simp only [binaries, and_self, not_true_eq_false, false_and, or_false, true_and]
  · rename_i others
    constructor
    · rintro (⟨caches, binaries, _⟩ | ⟨_, last, listed, same⟩)
      · exact absurd ⟨caches, binaries⟩ others
      · rw [promotion.destination_injective same]
        exact listed
    · exact fun last => Or.inr ⟨others, destination, last, rfl⟩

theorem sends_buildCache_of_caches
    (active : configuration.activePromotion? = some promotion)
    (caches : configuration.Caches promotion) :
    configuration.Sends required Names.binariesTag configuration.metadata.buildCache :=
  (sends_iff active).mpr (Or.inl ⟨caches, rfl, rfl⟩)

theorem enabled_of_active (active : configuration.activePromotion? = some promotion) :
    promotion.disabled = false := by
  simpa using (Option.filter_eq_some_iff.mp active).2

theorem names_promoted (active : configuration.activePromotion? = some promotion) :
    (configuration.promoted required).2
      = Table.keys (promotion.select configuration.images required).sources := by
  simp only [promoted, active]
  exact promotion.isNamed_select configuration.images required

theorem promoted_eq_nil_iff (active : configuration.activePromotion? = some promotion) :
    (configuration.promoted required).1 = []
      ↔ (configuration.promoted required).2 = [] ∧ ¬ configuration.Caches promotion := by
  rw [names_promoted active, Table.keys, List.map_eq_nil_iff]
  constructor
  · intro nothing
    have never : ∀ source reference, ¬ configuration.Sends required source reference := by
      intro source reference sent
      rw [Sends, nothing] at sent
      cases sent
    have uncached : ¬ configuration.Caches promotion := fun caches =>
      never _ _ (sends_buildCache_of_caches active caches)
    refine ⟨?_, uncached⟩
    rcases List.eq_nil_or_concat
      (promotion.select configuration.images required).sources with
      none | ⟨before, ⟨destination, source⟩, split⟩
    · exact none
    · refine absurd
        ((sends_iff active).mpr (Or.inr ⟨fun cached => uncached cached.1, destination,
        ⟨before, [], ?_, List.not_mem_nil⟩, rfl⟩))
          (never source (promotion.destination destination))
      rw [split, List.concat_eq_append]
  · rintro ⟨none, uncached⟩
    refine List.eq_nil_iff_forall_not_mem.mpr fun entry sent => ?_
    obtain ⟨source, reference⟩ := entry
    rcases (sends_iff active).mp sent with ⟨caches, _⟩ | ⟨_, destination, last, _⟩
    · exact uncached caches
    · have listed := last.lists
      rw [Selection.Lists, none] at listed
      cases listed

theorem isSole_of_sends (active : configuration.activePromotion? = some promotion)
    (sends : ∀ destination source,
      (promotion.select configuration.images required).Lists destination source →
      configuration.Sends required source (promotion.destination destination)) :
    (promotion.select configuration.images required).IsSole := by
  intro one other source hone hother
  have one_sent := (sends_destination_iff active).mp (sends one source hone)
  have other_sent := (sends_destination_iff active).mp (sends other source hother)
  split at one_sent
  · rename_i binaries
    rw [if_pos binaries] at other_sent
    exact promotion.destination_injective (one_sent.trans other_sent.symm)
  · rename_i others
    rw [if_neg others] at other_sent
    exact one_sent.unique other_sent

theorem sends_of_isSole (active : configuration.activePromotion? = some promotion)
    (sole : (promotion.select configuration.images required).IsSole)
    (kept : ∀ destination,
      (promotion.select configuration.images required).Lists destination Names.binariesTag →
      configuration.Caches promotion →
        promotion.destination destination = configuration.metadata.buildCache)
    {destination source : String}
    (listed : (promotion.select configuration.images required).Lists destination source) :
    configuration.Sends required source (promotion.destination destination) := by
  refine (sends_destination_iff active).mpr ?_
  split
  · rename_i binaries
    obtain ⟨caches, rfl⟩ := binaries
    exact kept destination listed caches
  · exact (sole.listsLast_iff (promotion.isTable_select configuration.images required)).mpr
      listed

/-- Every destination is reached exactly if no two of them share a source and, where the
binaries are sent somewhere, that is the build cache if they are kept and not the build
cache if they are not. Otherwise destinations are lost: each is reached only as the last
one of its source. -/
theorem sends_every_destination_iff (required : List String)
    (active : configuration.activePromotion? = some promotion) :
    (∀ destination source,
        (promotion.select configuration.images required).Lists destination source →
        (configuration.Sends required source (promotion.destination destination)
          ↔ if configuration.Caches promotion ∧ source = Names.binariesTag
            then promotion.destination destination = configuration.metadata.buildCache
            else (promotion.select configuration.images required).ListsLast
              destination source))
      ∧ (((∀ destination source,
            (promotion.select configuration.images required).Lists destination source →
            configuration.Sends required source (promotion.destination destination))
          ∧ (configuration.Sends required Names.binariesTag
              configuration.metadata.buildCache
            ↔ configuration.Caches promotion))
        ↔ (promotion.select configuration.images required).IsSole
          ∧ ∀ destination,
              (promotion.select configuration.images required).Lists destination
                Names.binariesTag →
              (promotion.destination destination = configuration.metadata.buildCache
                ↔ configuration.Caches promotion)) := by
  refine ⟨fun destination source _ => sends_destination_iff active, ?_, ?_⟩
  · rintro ⟨sends, cached⟩
    refine ⟨isSole_of_sends active sends, fun destination listed => ?_⟩
    have sent := sends destination Names.binariesTag listed
    constructor
    · intro same
      exact cached.mp (same ▸ sent)
    · intro caches
      have reached := (sends_destination_iff active).mp sent
      rwa [if_pos ⟨caches, rfl⟩] at reached
  · rintro ⟨sole, kept⟩
    refine ⟨fun destination source listed =>
      sends_of_isSole active sole (fun destination listed =>
        (kept destination listed).mpr) listed,
      fun sent => ?_, sends_buildCache_of_caches active⟩
    rcases (sends_iff active).mp sent with ⟨caches, _⟩ | ⟨_, destination, last, same⟩
    · exact caches
    · exact (kept destination last.lists).mp same.symm

def installerRelease (additional : List (String × String)) : Configuration where
  metadata := { org := "openshift", repo := "installer", branch := "master" }
  images :=
    [{ target := "installer", base := "bin" }, { target := "tests", optional := true }]
  binaryCommands := "make build"
  promotion := some
    { project := "ocp", name := "4.8", excludedImages := ["tests"],
      additionalImages := additional }

theorem installerRelease_sends :
    ∃ promotion, (installerRelease []).activePromotion? = some promotion
      ∧ (promotion.select (installerRelease []).images []).Lists "installer" "installer"
      ∧ (∀ destination source,
          (promotion.select (installerRelease []).images []).Lists destination source →
            (installerRelease []).Sends [] source (promotion.destination destination))
      ∧ (installerRelease []).Sends [] "bin" (installerRelease []).metadata.buildCache := by
  have active : (installerRelease []).activePromotion? = some
      { project := "ocp", name := "4.8", excludedImages := ["tests"] } := rfl
  have sole : ∀ {destination source : String},
      (Promotion.select { project := "ocp", name := "4.8", excludedImages := ["tests"] }
        (installerRelease []).images []).Lists destination source →
      (destination, source) = ("installer", "installer") := List.mem_singleton.mp
  refine ⟨_, active, by decide, ?_⟩
  obtain ⟨sends, cached⟩ := (sends_every_destination_iff [] active).2.mpr
    ⟨fun one other source hone hother =>
        (congrArg Prod.fst (sole hone)).trans (congrArg Prod.fst (sole hother)).symm,
      fun destination binaries =>
        absurd (congrArg Prod.snd (sole binaries))
          (show Names.binariesTag ≠ "installer" by decide)⟩
  exact ⟨sends, cached.mpr (by decide)⟩

/-- A second destination for the installer takes the place of the first. -/
theorem installerRelease_loses_destination :
    (installerRelease [("installer-artifacts", "installer")]).promotion.map (·.validate) =
        some (.ok ())
      ∧ (∀ promotion ∈ (installerRelease [("installer-artifacts", "installer")]).promotion,
          (promotion.select (installerRelease []).images []).Lists "installer" "installer"
            ∧ promotion.destination "installer" = ⟨"ocp", "4.8", "installer"⟩)
      ∧ ¬ (installerRelease [("installer-artifacts", "installer")]).Sends [] "installer"
          ⟨"ocp", "4.8", "installer"⟩ := by
  refine ⟨rfl, ?_, by decide⟩
  rintro promotion ⟨⟩
  exact ⟨by decide, rfl⟩

end Configuration

end BuildPipeline
