import BuildPipeline.Proofs.Release.Promotion

namespace BuildPipeline

namespace Selection

def source? (selection : Selection) (destination : String) : Option String :=
  Table.get? selection.sources destination

variable (selection : Selection) (destination source other : String)

@[simp] theorem source?_empty : ({} : Selection).source? other = none := rfl

@[simp] theorem source?_add : (selection.add destination source).source? other
    = if other = destination then some source else selection.source? other :=
  Table.get?_put _ _ _ _

@[simp] theorem source?_remove : (selection.remove destination).source? other
    = if other = destination then none else selection.source? other :=
  Table.get?_erase _ _ _

theorem source?_images (images : List ImageBuild) :
    (images.foldl (fun selection image => selection.add image.target image.target)
        selection).source? other
      = if ∃ image ∈ images, image.target = other then some other
        else selection.source? other := by
  induction images generalizing selection with
  | nil => simp
  | cons image rest ih =>
      rw [List.foldl_cons, ih, source?_add]
      by_cases later : ∃ image ∈ rest, image.target = other
      · simp [later]
      · by_cases here : other = image.target
        · simp [here]
        · simp [later, here, Ne.symm here]

theorem source?_foldl_remove (excluded : List String) :
    (excluded.foldl remove selection).source? other
      = if other ∈ excluded then none else selection.source? other := by
  induction excluded generalizing selection with
  | nil => simp
  | cons tag rest ih =>
      rw [List.foldl_cons, ih, source?_remove]
      by_cases later : other ∈ rest
      · simp [later]
      · simp [later]

theorem source?_additional {additional : List (String × String)}
    (keyed : (Table.keys additional).Nodup) :
    (additional.foldl (fun selection entry => selection.add entry.1 entry.2)
      selection).source? other
      = (Table.get? additional other).or (selection.source? other) := by
  induction additional generalizing selection with
  | nil => rfl
  | cons entry rest ih =>
      obtain ⟨key, source⟩ := entry
      obtain ⟨fresh, keyed⟩ := List.nodup_cons.mp keyed
      rw [List.foldl_cons, ih _ keyed, source?_add, Table.get?_cons]
      split
      · rename_i here
        subst here
        rw [Table.get?_eq_none_of_fresh fresh]
        rfl
      · rfl

end Selection

namespace Promotion

variable {promotion : Promotion}

/-- An image of that name is wanted, and the name is not excluded. -/
def Keeps (promotion : Promotion) (images : List ImageBuild) (required : List String)
    (destination : String) : Prop :=
  (∃ image ∈ images, image.target = destination
    ∧ (destination ∈ required ∨ image.optional = false))
  ∧ destination ∉ promotion.excludedImages

instance (images : List ImageBuild) (required : List String) (destination : String) :
    Decidable (promotion.Keeps images required destination) :=
  inferInstanceAs (Decidable (_ ∧ _))

theorem exists_wanted_iff {images : List ImageBuild} {required : List String}
    {destination : String} :
    (∃ image ∈ images.filter (wanted required), image.target = destination)
      ↔ ∃ image ∈ images, image.target = destination
          ∧ (destination ∈ required ∨ image.optional = false) := by
  constructor
  · rintro ⟨image, listed, rfl⟩
    obtain ⟨member, wants⟩ := List.mem_filter.mp listed
    exact ⟨image, member, rfl, by simpa [wanted] using wants⟩
  · rintro ⟨image, member, rfl, wants⟩
    exact ⟨image, List.mem_filter.mpr ⟨member, by simpa [wanted] using wants⟩, rfl⟩

/-- A selection has one entry for each of its names.  A destination among the additional
images is promoted from the source that it has there, and any other from itself if it is
kept. -/
theorem selects_each_destination (enabled : promotion.disabled = false)
    (keyed : (Table.keys promotion.additionalImages).Nodup) (images : List ImageBuild)
    (required : List String) :
    (promotion.select images required).IsTable
      ∧ (promotion.select images required).IsNamed
      ∧ ∀ destination, (promotion.select images required).source? destination
          = match Table.get? promotion.additionalImages destination with
            | some source => some source
            | none =>
                if promotion.Keeps images required destination then some destination
                else none := by
  refine ⟨promotion.isTable_select images required,
    promotion.isNamed_select images required,
    fun destination => ?_⟩
  rw [select, enabled, if_neg Bool.false_ne_true, Selection.source?_additional _ _ keyed,
    Selection.source?_foldl_remove, Selection.source?_images]
  cases Table.get? promotion.additionalImages destination with
  | some source => rfl
  | none =>
      by_cases excluded : destination ∈ promotion.excludedImages
      · simp [excluded, Keeps]
      · simp only [excluded, exists_wanted_iff, Keeps, not_false_eq_true,
          and_true, if_false, Option.none_or, Selection.source?_empty]

def overlapping : Promotion :=
  { project := "ocp", name := "4.8", excludedImages := ["cli", "tests"]
    additionalImages := [("tests", "e2e"), ("artifacts", "cli")] }

def overlappingImages : List ImageBuild :=
  [{ target := "cli" }, { target := "oc" }, { target := "oc", optional := true },
    { target := "tests" }, { target := "docs", optional := true }]

/-- What is excluded is left out unless it is an additional image, and of two images with
one name one that is not optional is enough. -/
theorem overlapping_selects :
    overlapping.disabled = false
      ∧ (Table.keys overlapping.additionalImages).Nodup
      ∧ (overlapping.select overlappingImages []).source? "cli" = none
      ∧ (overlapping.select overlappingImages []).source? "oc" = some "oc"
      ∧ (overlapping.select overlappingImages []).source? "tests" = some "e2e"
      ∧ (overlapping.select overlappingImages []).source? "artifacts" = some "cli"
      ∧ (overlapping.select overlappingImages []).source? "docs" = none
      ∧ (overlapping.select overlappingImages []).IsNamed := by
  have keyed : (Table.keys overlapping.additionalImages).Nodup := by decide
  obtain ⟨-, named, each⟩ := selects_each_destination rfl keyed overlappingImages []
  exact ⟨rfl, keyed, (each "cli").trans (by decide), (each "oc").trans (by decide),
    (each "tests").trans (by decide), (each "artifacts").trans (by decide),
    (each "docs").trans (by decide), named⟩

end Promotion

end BuildPipeline
