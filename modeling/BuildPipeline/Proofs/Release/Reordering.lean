import BuildPipeline.Proofs.Release.Mirror
import BuildPipeline.Proofs.Release.Selection
import BuildPipeline.Proofs.Text.Sorting
import Mathlib.Data.List.Perm.Basic

namespace BuildPipeline

open Document

namespace ImageStream

variable {stream stream' repository : Value} {entries : List Value}
  {records others : List (Option String × String)}

/-- The entries of a stream's status, and its public repository. -/
structure Shows (stream repository : Value) (entries : List Value) : Prop where
  given : stream.isTrue = true
  lists : ∃ status tags, stream.field "status" = .ok status
    ∧ (status.orElse (.mapping [])).field "tags" = .ok tags
    ∧ tags.orElse (.list []) = .list entries
    ∧ (status.orElse (.mapping [])).fieldOr "publicDockerImageRepository" (.string "")
      = .ok repository

/-- The same stream, but for the order of its entries. -/
inductive Reordered (stream : Value) : Value → Prop
  | same : Reordered stream stream
  | entries {stream' repository : Value} {entries others : List Value}
      (shows : Shows stream repository entries) (reorders : entries.Perm others)
      (shows' : Shows stream' repository others) : Reordered stream stream'

theorem Shows.reads (shows : Shows stream repository entries)
    (recorded : List.Forall₂ Records entries records) :
    Reads stream repository records := by
  obtain ⟨given, status, tags, status_field, tags_field, listed, repository_field⟩ := shows
  exact .status given status_field tags_field listed repository_field recorded

theorem Reads.shows (reads : Reads stream repository records)
    (given : stream.isTrue = true) :
    ∃ entries, Shows stream repository entries ∧ List.Forall₂ Records entries records := by
  cases reads with
  | missing blank =>
      rw [given] at blank
      cases blank
  | status _ status_field tags_field listed repository_field recorded =>
      exact ⟨_, ⟨given, _, _, status_field, tags_field, listed, repository_field⟩, recorded⟩

theorem Shows.unique {repository' : Value} {entries' : List Value}
    (shows : Shows stream repository entries) (shows' : Shows stream repository' entries') :
    repository = repository' ∧ entries = entries' := by
  obtain ⟨_, status, tags, status_field, tags_field, listed, found⟩ := shows
  obtain ⟨_, status', tags', status_field', tags_field', listed', found'⟩ := shows'
  obtain rfl := Except.ok.inj (status_field.symm.trans status_field')
  obtain rfl := Except.ok.inj (tags_field.symm.trans tags_field')
  exact ⟨Except.ok.inj (found.symm.trans found'),
    Value.list.inj (listed.symm.trans listed')⟩

theorem Reads.reordered (reads : Reads stream repository records)
    (reordered : Reordered stream stream') :
    ∃ others, records.Perm others ∧ Reads stream' repository others := by
  cases reordered with
  | same => exact ⟨records, .refl _, reads⟩
  | entries shows reorders shows' =>
      obtain ⟨own, shown, recorded⟩ := reads.shows shows.given
      obtain ⟨rfl, rfl⟩ := shown.unique shows
      obtain ⟨others, recorded', same⟩ := List.perm_comp_forall₂ reorders.symm recorded
      exact ⟨others, same.symm, shows'.reads recorded'⟩

theorem recorded_perm (once : (records.filterMap (·.1)).Nodup) (same : records.Perm others)
    (tag : String) : recorded records tag = recorded others tag := by
  induction same with
  | nil => rfl
  | cons record _ ih =>
      rw [recorded_cons, recorded_cons,
        ih (once.sublist ((List.sublist_cons_self _ _).filterMap _))]
  | swap first second rest =>
      by_cases here : first.1 = some tag
      · have there : second.1 ≠ some tag := fun there => by simp [here, there] at once
        simp [recorded_cons, here, there]
      · simp [recorded_cons, here]
  | trans reorders _ ih ih' =>
      exact (ih once).trans (ih' ((reorders.filterMap _).nodup_iff.mp once))

theorem ofRecords_shows (repository : Value) (records : List (String × String)) :
    Shows (ofRecords repository records) repository
      (records.map fun record => entryOf record.1 record.2) where
  given := rfl
  lists := ⟨_, _, rfl, rfl, by cases records <;> rfl, rfl⟩

theorem ofRecords_reordered (repository : Value) {records others : List (String × String)}
    (reorders : records.Perm others) :
    Reordered (ofRecords repository records) (ofRecords repository others) :=
  .entries (ofRecords_shows repository records) (reorders.map _)
    (ofRecords_shows repository others)

end ImageStream

namespace Promotion

variable {promotion : Promotion} {images images' : List ImageBuild}
  {excluded : List String} {additional : List (String × String)} {required : List String}

theorem source?_select (enabled : promotion.disabled = false)
    (keyed : (Table.keys promotion.additionalImages).Nodup) (destination : String) :
    (promotion.select images required).source? destination
      = (Table.get? promotion.additionalImages destination).or
          (if destination ∈ promotion.excludedImages then none
            else if ∃ image ∈ images.filter (wanted required), image.target = destination
              then some destination else none) := by
  rw [select, enabled, if_neg Bool.false_ne_true, Selection.source?_additional _ _ keyed,
    Selection.source?_foldl_remove, Selection.source?_images, Selection.source?_empty]

def relisted (promotion : Promotion) (excluded : List String)
    (additional : List (String × String)) : Promotion :=
  { promotion with excludedImages := excluded, additionalImages := additional }

theorem select_relisted (enabled : promotion.disabled = false)
    (keyed : (Table.keys promotion.additionalImages).Nodup) (required : List String)
    (reorders : images.Perm images') (excludes : promotion.excludedImages.Perm excluded)
    (adds : promotion.additionalImages.Perm additional) :
    (promotion.select images required).sources.Perm
      ((promotion.relisted excluded additional).select images' required).sources := by
  have table := promotion.isTable_select images required
  have table' := (promotion.relisted excluded additional).isTable_select images' required
  have keyed' : (Table.keys additional).Nodup := (adds.map _).nodup_iff.mp keyed
  refine Table.perm_of_mem_iff table table' fun destination source => ?_
  have kept : (∃ image ∈ images.filter (wanted required), image.target = destination)
      ↔ ∃ image ∈ images'.filter (wanted required), image.target = destination :=
    exists_congr fun image => and_congr_left' (reorders.filter _).mem_iff
  have same : (promotion.select images required).source? destination
      = ((promotion.relisted excluded additional).select images' required).source?
        destination := by
    rw [source?_select enabled keyed, source?_select (by exact enabled) (by exact keyed'),
      Table.get?_perm keyed adds]
    exact congrArg _ (if_congr excludes.mem_iff rfl (if_congr kept rfl rfl))
  rw [← Table.get?_eq_some_iff table, ← Table.get?_eq_some_iff table']
  exact Eq.congr_left same

end Promotion

theorem Selection.isSole_of_nodup {selection : Selection}
    (distinct : (selection.sources.map (·.2)).Nodup) : selection.IsSole := by
  intro one other source hone hother
  exact congrArg Prod.fst (List.inj_on_of_nodup_map distinct hone hother rfl)

namespace Configuration

variable {configuration : Configuration} {promotion : Promotion} {required : List String}
  {images : List ImageBuild} {excluded : List String} {additional : List (String × String)}

theorem keys_nodup_promoted (configuration : Configuration) (required : List String) :
    (Table.keys (configuration.promoted required).1).Nodup := by
  unfold promoted
  split
  · exact List.nodup_nil
  · rename_i promotion _
    have empty : (Table.keys ([] : List (String × ImageReference))).Nodup := List.nodup_nil
    have by_source := Table.keys_nodup_foldl_put empty Prod.snd
      (fun entry => promotion.destination entry.1)
      (promotion.select configuration.images required).sources
    dsimp only
    split
    · exact by_source
    · exact Table.keys_nodup_put by_source _ _

def relisted (configuration : Configuration) (promotion : Promotion)
    (images : List ImageBuild) (excluded : List String)
    (additional : List (String × String)) : Configuration :=
  { configuration with images, promotion := some (promotion.relisted excluded additional) }

theorem activePromotion?_relisted
    (active : configuration.activePromotion? = some promotion) :
    (configuration.relisted promotion images excluded additional).activePromotion?
      = some (promotion.relisted excluded additional) := by
  have enabled := enabled_of_active active
  simp [activePromotion?, relisted, Promotion.relisted, enabled]

theorem names_relisted (active : configuration.activePromotion? = some promotion)
    (keyed : (Table.keys promotion.additionalImages).Nodup)
    (reorders : configuration.images.Perm images)
    (excludes : promotion.excludedImages.Perm excluded)
    (adds : promotion.additionalImages.Perm additional) :
    (configuration.promoted required).2.Perm
      ((configuration.relisted promotion images excluded additional).promoted
        required).2 := by
  rw [names_promoted active, names_promoted (activePromotion?_relisted active)]
  exact (Promotion.select_relisted (enabled_of_active active) keyed required
    reorders excludes adds).map _

theorem promoted_relisted (active : configuration.activePromotion? = some promotion)
    (keyed : (Table.keys promotion.additionalImages).Nodup)
    (sole : (promotion.select configuration.images required).IsSole)
    (reorders : configuration.images.Perm images)
    (excludes : promotion.excludedImages.Perm excluded)
    (adds : promotion.additionalImages.Perm additional) :
    (configuration.promoted required).1.Perm
      ((configuration.relisted promotion images excluded additional).promoted
        required).1 := by
  have selects :=
    Promotion.select_relisted (enabled_of_active active) keyed required reorders
    excludes adds
  refine Table.perm_of_mem_iff (keys_nodup_promoted _ _) (keys_nodup_promoted _ _)
    fun source reference => ?_
  have lists : ∀ destination source,
      (promotion.select configuration.images required).Lists destination source ↔
        ((promotion.relisted excluded additional).select images required).Lists
          destination source :=
    fun destination source => selects.mem_iff
  have sole' :
      ((promotion.relisted excluded additional).select images required).IsSole := by
    intro one other source hone hother
    exact sole one other source ((lists _ _).mpr hone) ((lists _ _).mpr hother)
  refine (sends_iff active).trans
    (Iff.trans ?_ (sends_iff (activePromotion?_relisted active)).symm)
  refine or_congr Iff.rfl (and_congr Iff.rfl (exists_congr fun destination =>
    and_congr ?_ Iff.rfl))
  rw [sole.listsLast_iff (promotion.isTable_select _ _), lists]
  exact (sole'.listsLast_iff
    ((promotion.relisted excluded additional).isTable_select _ _)).symm

end Configuration

namespace Mirror

variable {stream stream' repository : Value}
  {records others : List (Option String × String)}
  {tags tags' : List (String × ImageReference)} {held targets : List (String × String)}
  {registry address pulled : String} {reference : ImageReference}

def HasOwnSources (records : List (Option String × String)) (repository : Value)
    (tags : List (String × ImageReference)) : Prop :=
  ∀ one ∈ tags, ∀ other ∈ tags, ∀ pulled, Pulls records repository one.1 pulled →
    Pulls records repository other.1 pulled → one.1 = other.1

theorem hasOwnSources_of_nodup {pull : String → String}
    (pulls : ∀ entry ∈ tags, Pulls records repository entry.1 (pull entry.1))
    (apart : (tags.map fun entry => pull entry.1).Nodup) :
    HasOwnSources records repository tags := by
  intro one hone other hother pulled first second
  have same : pull one.1 = pull other.1 :=
    ((pulls one hone).unique first).trans (second.unique (pulls other hother))
  exact congrArg Prod.fst (List.inj_on_of_nodup_map apart hone hother same)

theorem HasOwnSources.pullsLast_iff (apart : HasOwnSources records repository tags)
    (keyed : (Table.keys tags).Nodup) :
    PullsLast records repository tags pulled reference
      ↔ ∃ tag, (tag, reference) ∈ tags ∧ Pulls records repository tag pulled := by
  refine ⟨PullsLast.pulls, ?_⟩
  rintro ⟨tag, listed, pulls⟩
  obtain ⟨last, pullsLast⟩ := exists_pullsLast listed pulls
  obtain ⟨other, listed', pulls'⟩ := pullsLast.pulls
  have same : (other, last) = (tag, reference) :=
    List.inj_on_of_nodup_map keyed listed' listed
      (apart _ listed' _ listed pulled pulls' pulls)
  cases same
  exact pullsLast

theorem keys_nodup_targetsFrom (keyed : (Table.keys held).Nodup)
    (answered : targetsFrom stream repository registry held tags = .ok targets) :
    (Table.keys targets).Nodup := by
  induction tags generalizing held with
  | nil =>
      cases answered
      exact keyed
  | cons entry rest ih =>
      obtain ⟨tag, destination⟩ := entry
      obtain ⟨found, _, answered⟩ := Answer.bind_eq_ok.mp answered
      split at answered
      · obtain ⟨own, _, answered⟩ := Answer.bind_eq_ok.mp answered
        exact ih (Table.keys_nodup_put keyed _ _) answered
      · exact ih keyed answered

theorem targets_answers (reads : ImageStream.Reads stream (.string address) records)
    (tags : List (String × ImageReference)) (registry : String) :
    ∃ targets, Mirror.targets tags stream registry = .ok targets
      ∧ (Table.keys targets).Nodup := by
  obtain ⟨targets, answered⟩ :
      ∃ targets, targetsFrom stream (.string address) registry [] tags = .ok targets :=
    (targetsFrom_answers_iff reads).mpr fun _ _ _ => ⟨address, rfl⟩
  have empty : (Table.keys ([] : List (String × String))).Nodup := List.nodup_nil
  rw [targets_eq reads]
  exact ⟨targets, answered, keys_nodup_targetsFrom empty answered⟩

theorem targets_reordered (reads : ImageStream.Reads stream (.string address) records)
    (reads' : ImageStream.Reads stream' (.string address) others)
    (alike : ∀ tag, ImageStream.recorded records tag = ImageStream.recorded others tag)
    (reorders : tags.Perm tags') (keyed : (Table.keys tags).Nodup)
    (apart : HasOwnSources records (.string address) tags) (registry : String) :
    ∃ targets targets', Mirror.targets tags stream registry = .ok targets
      ∧ Mirror.targets tags' stream' registry = .ok targets'
      ∧ targets.Perm targets' ∧ (Table.keys targets).Nodup := by
  obtain ⟨targets, answered, table⟩ := targets_answers reads tags registry
  obtain ⟨targets', answered', table'⟩ := targets_answers reads' tags' registry
  refine ⟨targets, targets', answered, answered', ?_, table⟩
  have pulls_iff : ∀ tag pulled, Pulls records (.string address) tag pulled
      ↔ Pulls others (.string address) tag pulled := by
    intro tag pulled
    rw [Pulls, Pulls, alike]
  have apart' : HasOwnSources others (.string address) tags' := by
    intro one hone other hother pulled pulls pulls'
    exact apart one (reorders.mem_iff.mpr hone) other (reorders.mem_iff.mpr hother) pulled
      ((pulls_iff _ _).mpr pulls) ((pulls_iff _ _).mpr pulls')
  have keyed' : (Table.keys tags').Nodup := (reorders.map _).nodup_iff.mp keyed
  refine Table.perm_of_mem_iff table table' fun pulled destination => ?_
  rw [mem_targets reads answered, mem_targets reads' answered']
  simp only [apart.pullsLast_iff keyed, apart'.pullsLast_iff keyed', pulls_iff,
    reorders.mem_iff]

theorem arguments_reordered (keyed : (Table.keys targets).Nodup)
    {targets' : List (String × String)} (reorders : targets.Perm targets') :
    arguments targets = arguments targets' := by
  rw [arguments, arguments, (Text.sortByKey_eq_iff keyed).mpr reorders]

theorem pod_of_arguments {targets targets' : List (String × String)}
    (same : arguments targets = arguments targets') (project : String) :
    pod targets project = pod targets' project := by
  unfold pod command
  rw [same]

end Mirror

end BuildPipeline
