import BuildPipeline.Proofs.Release.Stream
import BuildPipeline.Proofs.Table

namespace BuildPipeline

open Document

namespace Mirror

variable {stream repository : Value} {records : List (Option String × String)}
  {registry : String} {tags : List (String × ImageReference)}
  {held targets : List (String × String)} {tag pulled destination : String}
  {reference : ImageReference}

/-- A tag is pulled from its recorded reference, through the public host if that is
internal. -/
def Pulls (records : List (Option String × String)) (repository : Value)
    (tag pulled : String) : Prop :=
  ImageStream.recorded records tag ≠ ""
    ∧ source (.string (ImageStream.recorded records tag)) repository = .ok pulled

/-- The destination of the last tag that is pulled from a source. -/
def PullsLast (records : List (Option String × String)) (repository : Value)
    (tags : List (String × ImageReference)) (pulled : String) (reference : ImageReference) :
    Prop :=
  ∃ before tag after, tags = before ++ (tag, reference) :: after
    ∧ Pulls records repository tag pulled
    ∧ ∀ later ∈ after, ¬ Pulls records repository later.1 pulled

/-- An internal reference can be rewritten only if the public repository is a text. -/
def IsRewritable (records : List (Option String × String)) (repository : Value)
    (tag : String) : Prop :=
  Text.contains internalPort (ImageStream.recorded records tag) = true →
    ∃ address, repository = .string address

def place (registry : String) (reference : ImageReference) : String :=
  registry ++ "/" ++ reference.text

theorem place_injective {one other : ImageReference}
    (same : place registry one = place registry other) : one.text = other.text := by
  have letters := congrArg String.toList same
  simp only [place, String.toList_append] at letters
  exact String.toList_injective (List.append_cancel_left letters)

theorem Pulls.unique {one other : String} (pulls : Pulls records repository tag one)
    (pulls' : Pulls records repository tag other) : one = other :=
  Except.ok.inj (pulls.2.symm.trans pulls'.2)

theorem exists_pulls_iff (given : ImageStream.recorded records tag ≠ "") :
    (∃ pulled, Pulls records repository tag pulled)
      ↔ IsRewritable records repository tag := by
  unfold Pulls IsRewritable source
  by_cases internal : Text.contains internalPort (ImageStream.recorded records tag) = true
  · simp only [given, internal, ne_eq, not_false_eq_true, true_and, if_true, forall_const]
    split
    · exact ⟨fun _ => ⟨_, rfl⟩, fun _ => ⟨_, rfl⟩⟩
    · rename_i no_text
      exact ⟨fun ⟨_, answered⟩ => (nomatch answered), fun ⟨address, same⟩ =>
        absurd same (no_text address)⟩
  · simp [given, internal]

theorem isRewritable_of_not_recorded (none : ImageStream.recorded records tag = "") :
    IsRewritable records repository tag := by
  intro internal
  rw [none] at internal
  exact absurd internal (by decide)

theorem pullsLast_cons {last : ImageReference} :
    PullsLast records repository ((tag, reference) :: tags) pulled last
      ↔ PullsLast records repository tags pulled last
        ∨ (∀ later ∈ tags, ¬ Pulls records repository later.1 pulled)
          ∧ Pulls records repository tag pulled ∧ last = reference := by
  constructor
  · rintro ⟨before, name, after, split, pulls, none_after⟩
    cases before with
    | nil =>
        obtain ⟨⟨⟩, rfl⟩ := List.cons.inj split
        exact Or.inr ⟨none_after, pulls, rfl⟩
    | cons _ before =>
        exact Or.inl ⟨before, name, after, (List.cons.inj split).2, pulls, none_after⟩
  · rintro (⟨before, name, after, rfl, pulls, none_after⟩ | ⟨none_after, pulls, rfl⟩)
    · exact ⟨_ :: before, name, after, rfl, pulls, none_after⟩
    · exact ⟨[], tag, tags, rfl, pulls, none_after⟩

theorem PullsLast.pulls (last : PullsLast records repository tags pulled reference) :
    ∃ tag, (tag, reference) ∈ tags ∧ Pulls records repository tag pulled := by
  obtain ⟨before, tag, after, rfl, pulls, _⟩ := last
  exact ⟨tag, by simp, pulls⟩

theorem exists_pullsLast {entry : String × ImageReference} (listed : entry ∈ tags)
    (pulls : Pulls records repository entry.1 pulled) :
    ∃ last, PullsLast records repository tags pulled last := by
  induction tags generalizing entry with
  | nil => cases listed
  | cons first rest ih =>
      by_cases later : ∃ entry ∈ rest, Pulls records repository entry.1 pulled
      · obtain ⟨entry, listed, pulls⟩ := later
        obtain ⟨last, pullsLast⟩ := ih listed pulls
        exact ⟨last, pullsLast_cons.mpr (Or.inl pullsLast)⟩
      · have none_after : ∀ later ∈ rest, ¬ Pulls records repository later.1 pulled :=
          fun entry listed pulls => later ⟨entry, listed, pulls⟩
        rcases List.mem_cons.mp listed with rfl | listed
        · exact ⟨entry.2, pullsLast_cons.mpr (Or.inr ⟨none_after, pulls, rfl⟩)⟩
        · exact absurd pulls (none_after entry listed)

theorem targetsFrom_cons_of_not_recorded
    (reads : ImageStream.Reads stream repository records)
    (none : ImageStream.recorded records tag = "") (address : Value) :
    targetsFrom stream address registry held ((tag, reference) :: tags)
      = targetsFrom stream address registry held tags := by
  obtain ⟨value, found, text⟩ := ImageStream.reference_of_reads reads tag
  rw [none] at text
  rw [targetsFrom, found]
  exact if_neg (by rw [text.isTrue_eq_false]; exact Bool.false_ne_true)

theorem targetsFrom_cons_of_recorded (reads : ImageStream.Reads stream repository records)
    (given : ImageStream.recorded records tag ≠ "") (address : Value) :
    targetsFrom stream address registry held ((tag, reference) :: tags)
      = source (.string (ImageStream.recorded records tag)) address >>= fun pulled =>
          targetsFrom stream address registry
            (Table.put held pulled (place registry reference)) tags := by
  obtain ⟨value, found, text⟩ := ImageStream.reference_of_reads reads tag
  have own := text.eq_string given
  subst own
  rw [targetsFrom, found]
  exact if_pos (by simpa using given)

theorem mem_targetsFrom (reads : ImageStream.Reads stream repository records)
    (answered : targetsFrom stream repository registry held tags = .ok targets) :
    (pulled, destination) ∈ targets
      ↔ (∃ last, PullsLast records repository tags pulled last
          ∧ destination = place registry last)
        ∨ (∀ entry ∈ tags, ¬ Pulls records repository entry.1 pulled)
          ∧ (pulled, destination) ∈ held := by
  induction tags generalizing held with
  | nil =>
      cases answered
      simp [PullsLast]
  | cons entry rest ih =>
      obtain ⟨tag, reference⟩ := entry
      by_cases given : ImageStream.recorded records tag = ""
      · rw [targetsFrom_cons_of_not_recorded reads given] at answered
        have never : ¬ Pulls records repository tag pulled := fun pulls => pulls.1 given
        simp only [ih answered, pullsLast_cons, List.forall_mem_cons, never,
          false_and, and_false, or_false, not_false_eq_true, true_and]
      · rw [targetsFrom_cons_of_recorded reads given] at answered
        obtain ⟨own, rewritten, answered⟩ := Answer.bind_eq_ok.mp answered
        have pulls_iff : Pulls records repository tag pulled ↔ pulled = own :=
          ⟨fun pulls => pulls.unique ⟨given, rewritten⟩, fun same =>
            same ▸ ⟨given, rewritten⟩⟩
        rw [ih answered, Table.mem_put]
        simp only [pullsLast_cons, List.forall_mem_cons, pulls_iff]
        constructor
        · rintro (⟨last, pulls, rfl⟩ | ⟨none_after, ⟨rfl, rfl⟩ | ⟨other, kept⟩⟩)
          · exact Or.inl ⟨last, Or.inl pulls, rfl⟩
          · exact Or.inl ⟨reference, Or.inr ⟨none_after, rfl, rfl⟩, rfl⟩
          · exact Or.inr ⟨⟨other, none_after⟩, kept⟩
        · rintro (⟨last, pulls | ⟨none_after, rfl, rfl⟩, rfl⟩ | ⟨⟨other, none_after⟩, kept⟩)
          · exact Or.inl ⟨last, pulls, rfl⟩
          · exact Or.inr ⟨none_after, Or.inl ⟨rfl, rfl⟩⟩
          · exact Or.inr ⟨none_after, Or.inr ⟨other, kept⟩⟩

theorem targetsFrom_answers_iff (reads : ImageStream.Reads stream repository records) :
    (∃ targets, targetsFrom stream repository registry held tags = .ok targets)
      ↔ ∀ entry ∈ tags, IsRewritable records repository entry.1 := by
  induction tags generalizing held with
  | nil => simp [targetsFrom]
  | cons entry rest ih =>
      obtain ⟨tag, reference⟩ := entry
      rw [List.forall_mem_cons]
      by_cases given : ImageStream.recorded records tag = ""
      · rw [targetsFrom_cons_of_not_recorded reads given, ih]
        exact ⟨fun others => ⟨isRewritable_of_not_recorded given, others⟩, And.right⟩
      · rw [targetsFrom_cons_of_recorded reads given, ← exists_pulls_iff given]
        constructor
        · rintro ⟨targets, answered⟩
          obtain ⟨own, rewritten, answered⟩ := Answer.bind_eq_ok.mp answered
          exact ⟨⟨own, given, rewritten⟩, ih.mp ⟨targets, answered⟩⟩
        · rintro ⟨⟨own, _, rewritten⟩, others⟩
          obtain ⟨targets, answered⟩ := ih.mpr others
          exact ⟨targets, Answer.bind_eq_ok.mpr ⟨own, rewritten, answered⟩⟩

def copies (pull : String → String) (registry : String)
    (tags : List (String × ImageReference)) : List (String × String) :=
  tags.map fun entry => (pull entry.1, place registry entry.2)

theorem targetsFrom_of_nodup (reads : ImageStream.Reads stream repository records)
    {pull : String → String}
    (pulls : ∀ entry ∈ tags, Pulls records repository entry.1 (pull entry.1))
    (apart : (Table.keys held ++ tags.map fun entry => pull entry.1).Nodup) :
    targetsFrom stream repository registry held tags
      = .ok (held ++ copies pull registry tags) := by
  induction tags generalizing held with
  | nil => simp [targetsFrom, copies]
  | cons entry rest ih =>
      obtain ⟨tag, reference⟩ := entry
      obtain ⟨⟨given, rewritten⟩, others⟩ := List.forall_mem_cons.mp pulls
      have fresh : pull tag ∉ Table.keys held := fun known =>
        (List.nodup_append.mp apart).2.2 _ known _ List.mem_cons_self rfl
      rw [targetsFrom_cons_of_recorded reads given, rewritten]
      have apart' : (Table.keys (held ++ [(pull tag, place registry reference)])
          ++ rest.map fun entry => pull entry.1).Nodup := by
        simpa [Table.keys] using apart
      refine (congrArg (targetsFrom stream repository registry · rest)
        (Table.put_of_fresh fresh _)).trans ?_
      rw [ih others apart', List.append_assoc]
      rfl

theorem targets_eq (reads : ImageStream.Reads stream repository records)
    (tags : List (String × ImageReference)) (registry : String) :
    Mirror.targets tags stream registry = targetsFrom stream repository
      registry [] tags := by
  have reads' := reads
  cases reads with
  | missing blank =>
      have nothing : targetsFrom stream repository registry [] tags = .ok [] := by
        induction tags with
        | nil => rfl
        | cons entry rest ih => rw [targetsFrom_cons_of_not_recorded reads' rfl, ih]
      rw [Mirror.targets, blank, nothing]
      rfl
  | status given status_field _ _ repository_field _ =>
      rw [Mirror.targets, if_pos given, ImageStream.status_of_field status_field]
      exact congrArg (· >>= fun address => targetsFrom stream address registry [] tags)
        repository_field

theorem targets_of_nodup (reads : ImageStream.Reads stream repository records)
    {pull : String → String}
    (pulls : ∀ entry ∈ tags, Pulls records repository entry.1 (pull entry.1))
    (apart : (tags.map fun entry => pull entry.1).Nodup) (registry : String) :
    Mirror.targets tags stream registry = .ok (copies pull registry tags) := by
  rw [targets_eq reads]
  exact targetsFrom_of_nodup reads pulls apart

theorem arguments_perm (targets : List (String × String)) :
    (arguments targets).Perm (targets.map fun entry => entry.1 ++ "=" ++ entry.2) :=
  (List.mergeSort_perm targets _).map _

theorem mem_targets (reads : ImageStream.Reads stream repository records)
    (answered : Mirror.targets tags stream registry = .ok targets) :
    (pulled, destination) ∈ targets
      ↔ ∃ last, PullsLast records repository tags pulled last
          ∧ destination = place registry last := by
  rw [targets_eq reads] at answered
  rw [mem_targetsFrom reads answered]
  simp only [List.not_mem_nil, and_false, or_false]

theorem PullsLast.unique {one other : ImageReference}
    (last : PullsLast records repository tags pulled one)
    (last' : PullsLast records repository tags pulled other) : one = other := by
  induction tags with
  | nil =>
      obtain ⟨_, listed, _⟩ := last.pulls
      cases listed
  | cons entry rest ih =>
      have only_later : ∀ {reference}, PullsLast records repository rest pulled reference →
          ¬ ∀ later ∈ rest, ¬ Pulls records repository later.1 pulled := by
        intro reference later never
        obtain ⟨tag, listed, pulls⟩ := later.pulls
        exact never _ listed pulls
      rcases pullsLast_cons.mp last with later | ⟨none_after, _, same⟩
      · rcases pullsLast_cons.mp last' with later' | ⟨none_after', _⟩
        · exact ih later later'
        · exact absurd none_after' (only_later later)
      · rcases pullsLast_cons.mp last' with later' | ⟨_, _, same'⟩
        · exact absurd none_after (only_later later')
        · exact same.trans same'.symm

/-- Every tag that has a recorded reference has its destination in the mirror. -/
def ReachesAll (records : List (Option String × String)) (repository : Value)
    (tags : List (String × ImageReference)) (registry : String)
    (targets : List (String × String)) : Prop :=
  ∀ entry ∈ tags, ImageStream.recorded records entry.1 ≠ "" →
    ∃ pulled, Pulls records repository entry.1 pulled
      ∧ (pulled, place registry entry.2) ∈ targets

/-- Tags that are pulled from one source go to one place. -/
def HasSolePlaces (records : List (Option String × String)) (repository : Value)
    (tags : List (String × ImageReference)) : Prop :=
  ∀ one ∈ tags, ∀ other ∈ tags, ∀ pulled,
    Pulls records repository one.1 pulled → Pulls records repository other.1 pulled →
      one.2.text = other.2.text

theorem hasSolePlaces_of_reachesAll (reads : ImageStream.Reads stream repository records)
    (answered : Mirror.targets tags stream registry = .ok targets)
    (reaches : ReachesAll records repository tags registry targets) :
    HasSolePlaces records repository tags := by
  intro one hone other hother pulled pulls pulls'
  obtain ⟨pulled₁, own, kept⟩ := reaches one hone pulls.1
  obtain ⟨pulled₂, own', kept'⟩ := reaches other hother pulls'.1
  rw [own.unique pulls, mem_targets reads answered] at kept
  rw [own'.unique pulls', mem_targets reads answered] at kept'
  obtain ⟨last, pullsLast, same⟩ := kept
  obtain ⟨last', pullsLast', same'⟩ := kept'
  rw [pullsLast'.unique pullsLast] at same'
  exact place_injective (same.trans same'.symm)

theorem reachesAll_of_hasSolePlaces (reads : ImageStream.Reads stream repository records)
    (answered : Mirror.targets tags stream registry = .ok targets)
    (rewritable : ∀ entry ∈ tags, IsRewritable records repository entry.1)
    (sole : HasSolePlaces records repository tags) :
    ReachesAll records repository tags registry targets := by
  intro entry listed given
  obtain ⟨pulled, pulls⟩ := (exists_pulls_iff given).mpr (rewritable entry listed)
  obtain ⟨last, pullsLast⟩ := exists_pullsLast listed pulls
  obtain ⟨tag, member, pulls'⟩ := pullsLast.pulls
  have same : entry.2.text = last.text :=
    sole entry listed (tag, last) member pulled pulls pulls'
  refine ⟨pulled, pulls, (mem_targets reads answered).mpr ⟨last, pullsLast, ?_⟩⟩
  rw [place, place, same]

/-- A mirror holds, for each source, the destination of the last tag that is pulled from
it, and nothing else.  So every tag with a recorded reference has its destination there
exactly if those with one source share a destination, and each internal reference can be
rewritten. -/
theorem reaches_all_destinations_iff (reads : ImageStream.Reads stream repository records)
    (tags : List (String × ImageReference)) (registry : String) :
    (∀ targets, Mirror.targets tags stream registry = .ok targets →
        ∀ pulled destination, (pulled, destination) ∈ targets
          ↔ ∃ last, PullsLast records repository tags pulled last
              ∧ destination = place registry last)
      ∧ ((∃ targets, Mirror.targets tags stream registry = .ok targets
            ∧ ReachesAll records repository tags registry targets)
          ↔ (∀ entry ∈ tags, IsRewritable records repository entry.1)
            ∧ HasSolePlaces records repository tags) := by
  refine ⟨fun targets answered pulled destination => mem_targets reads answered, ?_, ?_⟩
  · rintro ⟨targets, answered, reaches⟩
    refine ⟨?_, hasSolePlaces_of_reachesAll reads answered reaches⟩
    rw [targets_eq reads] at answered
    exact (targetsFrom_answers_iff reads).mp ⟨targets, answered⟩
  · rintro ⟨rewritable, sole⟩
    obtain ⟨targets, answered⟩ : ∃ targets, Mirror.targets tags stream registry =
        .ok targets := by
      rw [targets_eq reads]
      exact (targetsFrom_answers_iff reads).mpr rewritable
    exact ⟨targets, answered, reachesAll_of_hasSolePlaces reads answered rewritable sole⟩

def toolTags : List (String × ImageReference) :=
  [("cli", ⟨"ocp", "4.8", "cli"⟩), ("oc", ⟨"ocp", "4.8", "oc"⟩)]

def toolRepository : Value := .string "registry.ci.openshift.org/ci/pipeline"

def toolRecords (cli oc : String) : List (Option String × String) :=
  [(some "cli", cli), (some "oc", oc)]

def toolStream (cli oc : String) : Value :=
  ImageStream.ofRecords toolRepository [("cli", cli), ("oc", oc)]

theorem toolStream_reads (cli oc : String) :
    ImageStream.Reads (toolStream cli oc) toolRepository (toolRecords cli oc) :=
  ImageStream.ofRecords_reads toolRepository [("cli", cli), ("oc", oc)]

theorem toolStream_reaches_all :
    ∃ targets, Mirror.targets toolTags
        (toolStream "172.30.1.1:5000/ci/pipeline@sha256:1f" "quay.io/ci/pipeline@sha256:2e")
        Names.registry = .ok targets
      ∧ ("registry.ci.openshift.org/ci/pipeline@sha256:1f",
          "registry.ci.openshift.org/ocp/4.8:cli") ∈ targets
      ∧ ("quay.io/ci/pipeline@sha256:2e", "registry.ci.openshift.org/ocp/4.8:oc") ∈
          targets := by
  have reads := toolStream_reads "172.30.1.1:5000/ci/pipeline@sha256:1f"
    "quay.io/ci/pipeline@sha256:2e"
  have cli : Pulls (toolRecords "172.30.1.1:5000/ci/pipeline@sha256:1f"
      "quay.io/ci/pipeline@sha256:2e") toolRepository "cli"
      "registry.ci.openshift.org/ci/pipeline@sha256:1f" := ⟨by decide, rfl⟩
  have oc : Pulls (toolRecords "172.30.1.1:5000/ci/pipeline@sha256:1f"
      "quay.io/ci/pipeline@sha256:2e") toolRepository "oc"
        "quay.io/ci/pipeline@sha256:2e" :=
    ⟨by decide, rfl⟩
  have apart : "registry.ci.openshift.org/ci/pipeline@sha256:1f" ≠
      "quay.io/ci/pipeline@sha256:2e" :=
    by decide
  have sole : HasSolePlaces (toolRecords "172.30.1.1:5000/ci/pipeline@sha256:1f"
      "quay.io/ci/pipeline@sha256:2e") toolRepository toolTags := by
    intro one hone other hother pulled pulls pulls'
    simp only [toolTags, List.mem_cons, List.not_mem_nil, or_false] at hone hother
    rcases hone with rfl | rfl <;> rcases hother with rfl | rfl
    · rfl
    · exact absurd ((cli.unique pulls).trans (pulls'.unique oc)) apart
    · exact absurd ((cli.unique pulls').trans (pulls.unique oc)) apart
    · rfl
  obtain ⟨targets, answered, reaches⟩ :=
    (reaches_all_destinations_iff reads toolTags Names.registry).2.mpr
      ⟨fun _ _ _ => ⟨_, rfl⟩, sole⟩
  obtain ⟨pulled, pulls, kept⟩ := reaches _ List.mem_cons_self cli.1
  obtain ⟨pulled', pulls', kept'⟩ :=
    reaches _ (List.mem_cons_of_mem _ List.mem_cons_self) oc.1
  exact ⟨targets, answered, pulls.unique cli ▸ kept, pulls'.unique oc ▸ kept'⟩

/-- Of two tags of one image only the second one's destination is reached. -/
theorem toolStream_loses_destination :
    ImageStream.Reads (toolStream "quay.io/ci/pipeline@sha256:1f"
      "quay.io/ci/pipeline@sha256:1f") toolRepository
        (toolRecords "quay.io/ci/pipeline@sha256:1f" "quay.io/ci/pipeline@sha256:1f")
      ∧ Pulls (toolRecords "quay.io/ci/pipeline@sha256:1f" "quay.io/ci/pipeline@sha256:1f")
          toolRepository "cli" "quay.io/ci/pipeline@sha256:1f"
      ∧ ∃ targets, Mirror.targets toolTags
          (toolStream "quay.io/ci/pipeline@sha256:1f" "quay.io/ci/pipeline@sha256:1f")
          Names.registry = .ok targets
        ∧ ("quay.io/ci/pipeline@sha256:1f", "registry.ci.openshift.org/ocp/4.8:cli") ∉
            targets :=
  ⟨toolStream_reads _ _, ⟨by decide, rfl⟩,
    [("quay.io/ci/pipeline@sha256:1f", "registry.ci.openshift.org/ocp/4.8:oc")],
    rfl, by decide⟩

end Mirror

end BuildPipeline
