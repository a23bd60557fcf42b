import BuildPipeline.Proofs.Document.Shape
import BuildPipeline.Proofs.Document.Written
import BuildPipeline.Release.Configuration

namespace BuildPipeline

open Document Answer

namespace Document.Value

def listed? (value : Value) : Option (List Value) :=
  match value.bare with
  | .list items => some items
  | _ => none

def unwritable (value : Value) : List Failure :=
  value.hindrance?.toList.map Hindrance.failure

def unwritables (values : List Value) : List Failure :=
  values.flatMap unwritable

/-- The faults of the items that a value is gone through for, if it can be. -/
def eachFault (value : Value) (faults : Value → List Failure) : List Failure :=
  match (value.orElse (.list [])).items? with
  | some items => items.flatMap faults
  | none => [.misuse .wrongType]

variable {α β : Type} {value : Value} {faults others : List Failure}

theorem asked_field (record : value.isRecord = true) (key : String) :
    asked (value.field key) = .ok (value.under key) := by
  rw [field_eq record]
  rfl

theorem asked_fieldOr (record : value.isRecord = true) (key : String) (default : Value) :
    asked (value.fieldOr key default) = .ok ((value.under? key).getD default) := by
  rw [fieldOr_eq record]
  rfl

theorem asked_field_other (other : value.isRecord = false) (key : String) :
    asked (value.field key) = .error (.misuse .missingField) := by
  rw [field, field?_eq_error other]
  rfl

theorem asked_fieldOr_other (other : value.isRecord = false) (key : String)
    (default : Value) :
    asked (value.fieldOr key default) = .error (.misuse .missingField) := by
  rw [fieldOr, field?_eq_error other]
  rfl

theorem written_fails (value : Value) : FailsFirst value.unwritable value.written := by
  unfold unwritable written
  cases value.hindrance? <;> rfl

theorem written_bind {values : List Value} {next : String → Except Failure α}
    (goes : ∀ text, FailsFirst (unwritables values ++ others) (next text)) :
    FailsFirst (unwritables (value :: values) ++ others) (value.written >>= next) := by
  rw [unwritables, List.flatMap_cons, List.append_assoc]
  exact (written_fails value).bind fun text _ => goes text

theorem elements_bind {each : Value → List Failure} {next : List Value → Except Failure α}
    (goes : ∀ items, FailsFirst (items.flatMap each ++ others) (next items)) :
    FailsFirst (value.eachFault each ++ others)
      (asked (value.orElse (.list [])).elements >>= next) := by
  unfold eachFault items?
  cases listed : (value.orElse (.list [])).elements with
  | ok items => exact goes items
  | error fault =>
      have other : fault = .wrongType := by
        unfold elements at listed
        split at listed <;> cases listed
        rfl
      rw [other]
      rfl

end Document.Value

open Document.Value

/-- What is not fit to be read as something, rather than wrong about the configuration. -/
def Failure.IsMisfit (failure : Failure) : Prop :=
  failure = .misuse .missingField ∨ failure = .misuse .wrongType
    ∨ failure = .value Decimal.unwritable ∨ failure = .misuse .tooDeep

theorem Document.Value.Hindrance.isMisfit (hindrance : Hindrance) :
    hindrance.failure.IsMisfit := by
  cases hindrance with
  | tooLong => exact .inr (.inr (.inl rfl))
  | tooDeep => exact .inr (.inr (.inr rfl))

theorem Failure.not_isMisfit_of_isConfiguration {failure : Failure}
    (complains : failure.isConfiguration = true) : ¬ failure.IsMisfit := by
  rintro (rfl | rfl | rfl | rfl) <;> cases complains

def demand (met : Bool) (message : String) : List Failure :=
  if met then [] else [.configuration message]

def Metadata.faults (value : Value) : List Failure :=
  let fields := value.orElse (.mapping [])
  if fields.isRecord then
    unwritables (["org", "repo", "branch", "variant"].map fun key =>
      (fields.under? key).getD (.string ""))
  else [.misuse .missingField]

def ImageBuild.faults (value : Value) : List Failure :=
  if value.isRecord then
    demand (value.under "to").isTrue "image build configuration requires 'to'"
      ++ unwritables
        [value.under "to", (value.under "from").orElse (.string Names.sourceTag),
          (value.under? "context_dir").getD (.string ""),
          (value.under "dockerfile_path").orElse (.string "Dockerfile")]
  else [.misuse .missingField]

def TestPlan.faults (value : Value) : List Failure :=
  if value.isRecord then
    demand ((value.under "as").isTrue && (value.under "commands").isTrue)
        "test configuration requires 'as' and 'commands'"
      ++ (unwritables
          [value.under "as", value.under "commands",
            (value.under "from").orElse (.string Names.sourceTag)]
        ++ (value.under "parameters").eachFault fun _ => [])
  else [.misuse .missingField]

def Promotion.faults (value : Value) : List Failure :=
  let additional := value.recordUnder "additional_images"
  let excluded := (value.under "excluded_images").orElse (.list [])
  if value.isRecord then
    demand additional.isRecord "promotion.additional_images must be a mapping"
      ++ (demand excluded.listed?.isSome "promotion.excluded_images must be a list"
      ++ (unwritables
          [(value.under? "namespace").getD (.string ""),
            (value.under "name").orElse (.string ""),
            (value.under "tag").orElse (.string ""),
            (value.under "registry_override").orElse (.string "")]
      ++ (unwritables (excluded.listed?.getD [])
      ++ additional.entries.flatMap fun entry => unwritables [entry.1, entry.2])))
  else [.misuse .missingField]

namespace Configuration

def faultsIn (fields : Value) : List Failure :=
  let promotion := fields.under "promotion"
  Metadata.faults (fields.under "zz_generated_metadata")
    ++ ((fields.under "images").eachFault ImageBuild.faults
    ++ ((fields.under "tests").eachFault TestPlan.faults
    ++ (unwritables [(fields.under "binary_build_commands").orElse (.string "")]
    ++ if promotion.isTrue then Promotion.faults promotion else [])))

def faults (document : Value) : List Failure :=
  match document.bare with
  | .null => faultsIn (.mapping [])
  | .mapping entries => faultsIn (.mapping entries)
  | _ => [.configuration "release build configuration must be a mapping"]

end Configuration

theorem Metadata.ofDocument_fails (value : Value) :
    FailsFirst (faults value) (ofDocument value) := by
  unfold faults ofDocument
  dsimp only
  split
  · rename_i record
    simp only [asked_fieldOr record, ok_bind]
    rw [← List.append_nil (unwritables _)]
    refine written_bind fun org => written_bind fun repo => ?_
    exact written_bind fun branch => written_bind fun variant => rfl
  · rename_i other
    rw [asked_fieldOr_other (by simpa using other)]
    rfl

theorem ImageBuild.ofDocument_fails (value : Value) :
    FailsFirst (faults value) (ofDocument value) := by
  unfold faults ofDocument
  split
  · rename_i record
    simp only [asked_field record, asked_fieldOr record, ok_bind]
    cases named : (value.under "to").isTrue with
    | false => rfl
    | true =>
        rw [← List.append_nil (unwritables _)]
        refine written_bind fun target => written_bind fun base => ?_
        exact written_bind fun contextDir => written_bind fun dockerfile => rfl
  · rename_i other
    rw [asked_field_other (by simpa using other)]
    rfl

theorem TestPlan.ofDocument_fails (value : Value) :
    FailsFirst (faults value) (ofDocument value) := by
  unfold faults ofDocument
  split
  · rename_i record
    simp only [asked_field record, ok_bind]
    cases named : (value.under "as").isTrue with
    | false => rfl
    | true =>
        cases commanded : (value.under "commands").isTrue with
        | false => rfl
        | true =>
            refine written_bind fun name => written_bind fun commands =>
              written_bind fun base => ?_
            change FailsFirst ((value.under "parameters").eachFault fun _ => []) _
            rw [← List.append_nil (eachFault _ _)]
            refine elements_bind fun items => ?_
            simp [FailsFirst, pure, Except.pure]
  · rename_i other
    rw [asked_field_other (by simpa using other)]
    rfl

namespace Promotion

variable {α : Type} {value : Value} {others : List Failure}

theorem additional_bind {next : Entries → Except Failure α}
    (goes : FailsFirst others (next value.entries)) :
    FailsFirst (demand value.isRecord "promotion.additional_images must be a mapping"
      ++ others) (additionalOf value >>= next) := by
  cases bare : value.bare with
  | mapping found =>
      simp only [entries, bare] at goes
      simp only [additionalOf, isRecord, bare, ok_bind]
      exact goes
  | _ =>
      simp only [additionalOf, isRecord, bare]
      rfl

theorem excluded_bind {next : List Value → Except Failure α}
    (goes : FailsFirst others (next (value.listed?.getD []))) :
    FailsFirst (demand value.listed?.isSome "promotion.excluded_images must be a list"
      ++ others) (excludedOf value >>= next) := by
  cases bare : value.bare with
  | list items =>
      simp only [listed?, bare] at goes
      simp only [excludedOf, listed?, bare, ok_bind]
      exact goes
  | _ =>
      simp only [excludedOf, listed?, bare]
      rfl

theorem writtenEntry_fails (entry : Value × Value) :
    FailsFirst (unwritables [entry.1, entry.2]) (writtenEntry entry) := by
  rw [← List.append_nil (unwritables _)]
  exact written_bind fun key => written_bind fun text => rfl

theorem ofDocument_fails (value : Value) :
    FailsFirst (faults value) (ofDocument value) := by
  unfold faults ofDocument
  dsimp only
  split
  · rename_i record
    simp only [asked_field record, asked_fieldOr record, ok_bind]
    refine additional_bind (excluded_bind ?_)
    refine written_bind fun project => written_bind fun name => ?_
    refine written_bind fun tag => written_bind fun override => ?_
    refine (FailsFirst.mapM fun item _ => written_fails item).bind fun excluded _ => ?_
    rw [← List.append_nil (List.flatMap _ _)]
    exact (FailsFirst.mapM fun entry _ => writtenEntry_fails entry).bind
      fun additional _ => rfl
  · rename_i other
    rw [asked_field_other (by simpa using other)]
    rfl

end Promotion

namespace Configuration

theorem promotionOf_fails (value : Value) :
    FailsFirst (if value.isTrue then Promotion.faults value else [])
      (promotionOf value) := by
  unfold promotionOf
  split
  · exact (Promotion.ofDocument_fails value).map some
  · rfl

theorem ofFields_fails {fields : Value} (record : fields.isRecord = true) :
    FailsFirst (faultsIn fields) (ofFields fields) := by
  unfold faultsIn ofFields
  simp only [asked_field record, ok_bind]
  refine (Metadata.ofDocument_fails _).bind fun metadata _ => ?_
  refine elements_bind fun items => ?_
  refine (FailsFirst.mapM fun item _ => ImageBuild.ofDocument_fails item).bind
    fun images _ => ?_
  refine elements_bind fun items => ?_
  refine (FailsFirst.mapM fun item _ => TestPlan.ofDocument_fails item).bind
    fun tests _ => ?_
  refine written_bind fun commands => ?_
  rw [← List.append_nil (ite _ _ _)]
  exact (promotionOf_fails _).bind fun promotion _ => rfl

theorem ofDocument_fails (document : Value) :
    FailsFirst (faults document) (ofDocument document) := by
  unfold faults ofDocument
  cases document.bare with
  | null => exact ofFields_fails rfl
  | mapping entries => exact ofFields_fails rfl
  | _ => rfl

end Configuration

def IsFault (failure : Failure) : Prop :=
  failure.isConfiguration = true ∨ failure.IsMisfit

theorem isFault_missingField :
    ∀ failure ∈ [Failure.misuse .missingField], IsFault failure := by
  simp [IsFault, Failure.IsMisfit]

theorem isFault_demand (met : Bool) (message : String) :
    ∀ failure ∈ demand met message, IsFault failure := by
  unfold demand
  split <;> simp [IsFault, Failure.isConfiguration]

theorem isFault_unwritables (values : List Value) :
    ∀ failure ∈ unwritables values, IsFault failure := by
  intro failure member
  obtain ⟨value, _, found⟩ := List.mem_flatMap.mp member
  obtain ⟨hindrance, _, rfl⟩ := List.mem_map.mp found
  exact .inr hindrance.isMisfit

theorem isFault_eachFault (value : Value) {each : Value → List Failure}
    (faults : ∀ item, ∀ failure ∈ each item, IsFault failure) :
    ∀ failure ∈ value.eachFault each, IsFault failure := by
  intro failure member
  unfold eachFault at member
  split at member
  · obtain ⟨item, _, found⟩ := List.mem_flatMap.mp member
    exact faults item failure found
  · exact .inr (.inr (.inl (List.mem_singleton.mp member)))

theorem Metadata.isFault (value : Value) : ∀ failure ∈ faults value, IsFault failure := by
  unfold faults
  dsimp only
  split
  · exact isFault_unwritables _
  · exact isFault_missingField

theorem ImageBuild.isFault (value : Value) : ∀ failure ∈ faults value, IsFault failure := by
  unfold faults
  split
  · exact List.forall_mem_append.mpr ⟨isFault_demand _ _, isFault_unwritables _⟩
  · exact isFault_missingField

theorem TestPlan.isFault (value : Value) : ∀ failure ∈ faults value, IsFault failure := by
  unfold faults
  split
  · refine List.forall_mem_append.mpr ⟨isFault_demand _ _, ?_⟩
    exact List.forall_mem_append.mpr ⟨isFault_unwritables _, isFault_eachFault _ (by simp)⟩
  · exact isFault_missingField

theorem Promotion.isFault (value : Value) : ∀ failure ∈ faults value, IsFault failure := by
  unfold faults
  dsimp only
  split
  · simp only [List.forall_mem_append]
    refine ⟨isFault_demand _ _, isFault_demand _ _, isFault_unwritables _,
      isFault_unwritables _, ?_⟩
    intro failure member
    obtain ⟨entry, _, found⟩ := List.mem_flatMap.mp member
    exact isFault_unwritables _ failure found
  · exact isFault_missingField

namespace Configuration

theorem isFault_faultsIn (fields : Value) :
    ∀ failure ∈ faultsIn fields, IsFault failure := by
  unfold faultsIn
  simp only [List.forall_mem_append]
  refine ⟨Metadata.isFault _, isFault_eachFault _ ImageBuild.isFault,
    isFault_eachFault _ TestPlan.isFault, isFault_unwritables _, ?_⟩
  split
  · exact Promotion.isFault _
  · simp

theorem isFault (document : Value) : ∀ failure ∈ faults document, IsFault failure := by
  unfold faults
  split
  · exact isFault_faultsIn _
  · exact isFault_faultsIn _
  · simp [IsFault, Failure.isConfiguration]

/-- What becomes of reading any document.  It is read if it has no faults, and otherwise
refused for the first of them; so it is read, or refused as a configuration, exactly if
its first fault is no misfit. -/
theorem ofDocument_reports (document : Value) :
    ((∃ configuration, ofDocument document = .ok configuration) ↔ faults document = [])
      ∧ (∀ failure, ofDocument document = .error failure
          ↔ (faults document).head? = some failure)
      ∧ (∀ failure ∈ faults document, failure.isConfiguration = true ∨ failure.IsMisfit)
      ∧ ((∃ configuration, ofDocument document = .ok configuration)
            ∨ (∃ failure, ofDocument document = .error failure
                ∧ failure.isConfiguration = true)
          ↔ ∀ failure ∈ (faults document).head?, ¬ failure.IsMisfit) := by
  have fails := ofDocument_fails document
  refine ⟨fails.exists_eq_ok_iff, fails.eq_error_iff, isFault document, ?_⟩
  constructor
  · rintro (read | ⟨failure, refused, complains⟩) first met
    · rw [fails.exists_eq_ok_iff.mp read] at met
      cases met
    · rw [(fails.eq_error_iff failure).mp refused] at met
      cases met
      exact Failure.not_isMisfit_of_isConfiguration complains
  · intro fit
    cases answer : ofDocument document with
    | ok configuration => exact .inl ⟨configuration, rfl⟩
    | error failure =>
        have first := (fails.eq_error_iff failure).mp answer
        have fault := isFault document failure (List.mem_of_head? first)
        exact .inr ⟨failure, rfl, fault.resolve_right (fit failure first)⟩

def bareImages : Value :=
  .object [("images", .texts ["cli"])]

/-- Images that are listed by their names alone are neither read nor refused as a
configuration. -/
theorem bareImages_misfits :
    ofDocument bareImages = .error (.misuse .missingField)
      ∧ ¬ ((∃ configuration, ofDocument bareImages = .ok configuration)
        ∨ ∃ failure, ofDocument bareImages = .error failure
            ∧ failure.isConfiguration = true) := by
  have refused : ofDocument bareImages = .error (.misuse .missingField) := rfl
  refine ⟨refused, ?_⟩
  rintro (⟨configuration, read⟩ | ⟨failure, other, complains⟩)
  · rw [refused] at read
    cases read
  · rw [refused] at other
    cases other
    cases complains

/-- Commands that are nested too deep to be written are not refused as a configuration
either. -/
theorem ofDocument_nested (content : String) {depth : Nat} (deep : nestingLimit ≤ depth) :
    ofDocument (.object [("binary_build_commands", nest (.string content) depth)]) =
      .error (.misuse .tooDeep) := by
  have refused : (nest (.string content) depth).written = .error (.misuse .tooDeep) := by
    rw [written_nest, if_neg (Nat.not_lt.mpr deep)]
  cases depth with
  | zero => cases deep
  | succ depth =>
      have kept : (nest (.string content) (depth + 1)).orElse (.string "") =
          nest (.string content) (depth + 1) := rfl
      -- Everything before the commands is left out, and read as such.
      change (((nest (.string content) (depth + 1)).orElse (.string "")).written >>= _) = _
      rw [kept, refused]
      rfl

end Configuration

end BuildPipeline
