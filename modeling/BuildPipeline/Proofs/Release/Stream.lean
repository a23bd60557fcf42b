import BuildPipeline.Proofs.Answer
import BuildPipeline.Proofs.Document.Shape
import BuildPipeline.Release.Mirror
import Mathlib.Data.List.Forall2

namespace BuildPipeline

open Document

namespace ImageStream

variable {stream repository value : Value} {records : List (Option String × String)}
  {text tag : String}

/-- What is missing or null reads as the empty text. -/
def ReadsText (value : Value) (text : String) : Prop :=
  value.orElse (.string "") = .string text

theorem ReadsText.isTrue_eq_false (reads : ReadsText value "") : value.isTrue = false := by
  unfold ReadsText Value.orElse at reads
  split at reads
  · rw [reads]
    rfl
  · rename_i blank
    exact Bool.eq_false_iff.mpr blank

theorem ReadsText.eq_string (reads : ReadsText value text) (given : text ≠ "") :
    value = .string text := by
  unfold ReadsText Value.orElse at reads
  split at reads
  · exact reads
  · exact absurd (Value.string.inj reads).symm given

theorem readsText_string (text : String) : ReadsText (.string text) text := by
  unfold ReadsText Value.orElse
  split
  · rfl
  · rename_i blank
    rw [Value.isTrue_string, Bool.not_eq_true, bne_eq_false_iff_eq] at blank
    rw [blank]

inductive Newest : Value → String → Prop where
  | missing {items : Value} (blank : items.isTrue = false) : Newest items ""
  | recorded {newest reference : Value} {older : List Value} {text : String}
      (field : newest.field "dockerImageReference" = .ok reference)
      (reads : ReadsText reference text) : Newest (.list (newest :: older)) text

structure Records (entry : Value) (record : Option String × String) : Prop where
  name : ∃ name, entry.field "tag" = .ok name ∧ name.string? = record.1
  items : ∃ items, entry.field "items" = .ok items ∧ Newest items record.2

/-- The stream's public repository, and its entries in order: the name of each, if it is a
text, and the reference of the newest item.  A stream that is missing has no entries. -/
inductive Reads : Value → Value → List (Option String × String) → Prop where
  | missing {stream repository : Value} (blank : stream.isTrue = false) :
      Reads stream repository []
  | status {stream status tags repository : Value} {entries : List Value}
      {records : List (Option String × String)} (given : stream.isTrue = true)
      (status_field : stream.field "status" = .ok status)
      (tags_field : (status.orElse (.mapping [])).field "tags" = .ok tags)
      (tags_list : tags.orElse (.list []) = .list entries)
      (repository_field : (status.orElse (.mapping [])).fieldOr
        "publicDockerImageRepository" (.string "") = .ok repository)
      (entries_record : List.Forall₂ Records entries records) :
      Reads stream repository records

def recorded (records : List (Option String × String)) (tag : String) : String :=
  ((records.find? fun record => record.1 == some tag).map (·.2)).getD ""

theorem recorded_cons (record : Option String × String)
    (rest : List (Option String × String)) (tag : String) :
    recorded (record :: rest) tag = if record.1 = some tag then record.2
      else recorded rest tag := by
  unfold recorded
  rw [List.find?_cons]
  by_cases own : record.1 = some tag
  · simp [own]
  · simp [own, beq_eq_false_iff_ne.mpr own]

theorem newest_fieldOr {newest reference : Value} {key : String}
    (field : newest.field key = .ok reference) (reads : ReadsText reference text) :
    ∃ value, newest.fieldOr key (.string "") = .ok value ∧ ReadsText value text := by
  unfold Value.field at field
  unfold Value.fieldOr
  cases entry : newest.field? key with
  | error misuse =>
      rw [entry] at field
      cases field
  | ok found =>
      rw [entry] at field
      cases field
      cases found with
      | none => exact ⟨_, rfl, reads⟩
      | some value => exact ⟨_, rfl, reads⟩

theorem referenceIn_of_newest {items : Value} (newest : Newest items text) :
    ∃ value, (if items.isTrue then referenceIn items else .ok (.string "")) = .ok value
      ∧ ReadsText value text := by
  cases newest with
  | missing blank =>
      rw [blank, if_neg Bool.false_ne_true]
      exact ⟨_, rfl, rfl⟩
  | recorded field reads =>
      rw [if_pos (by simp)]
      exact newest_fieldOr field reads

theorem referenceAmong_of_records {entries : List Value}
    (listed : List.Forall₂ Records entries records) (tag : String) :
    ∃ value, referenceAmong tag entries = .ok value
      ∧ ReadsText value (recorded records tag) := by
  induction listed with
  | nil => exact ⟨_, rfl, rfl⟩
  | @cons entry record entries records own _ ih =>
      obtain ⟨name, name_field, name_text⟩ := own.name
      obtain ⟨items, items_field, newest⟩ := own.items
      rw [recorded_cons, referenceAmong, name_field]
      by_cases same : name.sameKey (.string tag) = true
      · have named : record.1 = some tag := by
          rw [← name_text, Value.sameKey_string_iff.mp same]
        obtain ⟨value, found, reads⟩ := referenceIn_of_newest newest
        refine ⟨value, Answer.bind_eq_ok.mpr ⟨name, rfl, ?_⟩, (if_pos named).symm ▸ reads⟩
        rw [if_pos same]
        exact Answer.bind_eq_ok.mpr ⟨items, items_field, found⟩
      · have other : record.1 ≠ some tag := fun named =>
          same (Value.sameKey_string_iff.mpr (name_text.trans named))
        obtain ⟨value, found, reads⟩ := ih
        refine ⟨value, Answer.bind_eq_ok.mpr ⟨name, rfl, ?_⟩, (if_neg other).symm ▸ reads⟩
        rw [if_neg same, found]

theorem status_of_field {found : Value} (field : stream.field "status" = .ok found) :
    status stream = .ok (found.orElse (.mapping [])) := by
  rw [status, field]
  rfl

/-- A stream answers for every tag, with what its first entry of that name records. -/
theorem reference_of_reads (reads : Reads stream repository records) (tag : String) :
    ∃ value, reference stream tag = .ok value ∧ ReadsText value (recorded records tag) := by
  cases reads with
  | missing blank =>
      rw [reference, blank]
      exact ⟨_, rfl, rfl⟩
  | status given status_field tags_field tags_list _ entries_record =>
      obtain ⟨value, found, reads⟩ := referenceAmong_of_records entries_record tag
      refine ⟨value, ?_, reads⟩
      rw [reference, if_pos given]
      refine Answer.bind_eq_ok.mpr ⟨_, status_of_field status_field, ?_⟩
      refine Answer.bind_eq_ok.mpr ⟨_, tags_field, ?_⟩
      refine Answer.bind_eq_ok.mpr ⟨_, ?_, found⟩
      rw [tags_list]
      rfl

def entryOf (tag reference : String) : Value :=
  .object
    [("tag", .string tag),
      ("items", .list [.object [("dockerImageReference", .string reference)]])]

def ofRecords (repository : Value) (records : List (String × String)) : Value :=
  .object [("status", .object
    [("publicDockerImageRepository", repository),
      ("tags", .list (records.map fun record => entryOf record.1 record.2))])]

theorem entryOf_records (tag reference : String) :
    Records (entryOf tag reference) (some tag, reference) where
  name := ⟨_, rfl, rfl⟩
  items := ⟨_, rfl, .recorded rfl (readsText_string reference)⟩

theorem ofRecords_reads (repository : Value) (records : List (String × String)) :
    Reads (ofRecords repository records) repository
      (records.map fun record => (some record.1, record.2)) := by
  have recorded : List.Forall₂ Records (records.map fun record => entryOf record.1 record.2)
      (records.map fun record => (some record.1, record.2)) := by
    rw [List.forall₂_map_left_iff, List.forall₂_map_right_iff]
    exact List.forall₂_same.mpr fun record _ => entryOf_records record.1 record.2
  refine .status rfl rfl rfl ?_ rfl recorded
  cases records <;> rfl

end ImageStream

end BuildPipeline
