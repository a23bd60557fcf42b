import BuildPipeline.Proofs.Document.Revision
import BuildPipeline.Proofs.Release.Reading

namespace BuildPipeline

open Document Document.Value Answer

/-- Two records of which one has a text written out under a key that the other leaves
out. -/
structure Departs (key text : String) (value plain : Value) : Prop where
  record : value.isRecord = true
  plainRecord : plain.isRecord = true
  under : ∀ other, value.under other = plain.under other
  elsewhere : ∀ other, other ≠ key → value.under? other = plain.under? other
  absent : plain.under? key = none
  written : ((value.under? key).getD (.string "")).written = .ok text

/-- A text that is written out as it stands under a key, and is empty only where the key
is left out. -/
def Document.Value.literal (value : Value) (key : String) : Except Failure String :=
  ((value.under? key).getD (.string "")).written

section Departs

variable {value : Value} {key : String}

theorem departs_of_empty (empty : value.under? key = some .null) :
    Departs key "None" value (value.without key) where
  record := isRecord_of_under? empty
  plainRecord := (isRecord_without value key).trans (isRecord_of_under? empty)
  under other := (under_without empty other).symm
  elsewhere other ne := (under?_without_of_ne (isRecord_of_under? empty) ne).symm
  absent := under?_without_self (isRecord_of_under? empty)
  written := by
    rw [empty]
    rfl

theorem departs_of_absent (record : value.isRecord = true)
    (absent : value.under? key = none) :
    Departs key "" value value where
  record := record
  plainRecord := record
  under _ := rfl
  elsewhere _ _ := rfl
  absent := absent
  written := by
    rw [absent]
    rfl

namespace Departs

variable {plain : Value} {text other : String} (departs : Departs key text value plain)

include departs

theorem literal_self : value.literal key = .ok text := departs.written

theorem literal_plain : plain.literal key = .ok "" := by
  rw [literal, departs.absent]
  rfl

theorem literal_of_ne (ne : other ≠ key) : value.literal other = plain.literal other := by
  rw [literal, literal, departs.elsewhere other ne]

theorem literal_bind {α β : Type} {next : String → Except Failure α}
    {plainly : String → Except Failure β} {change : β → α}
    (goes : ∀ found, next (if other = key then text else found) =
      (plainly found).map change) :
    (value.literal other >>= next) = (plain.literal other >>= plainly).map change := by
  by_cases here : other = key
  · subst here
    rw [departs.literal_self, departs.literal_plain, ok_bind, ok_bind, ← goes, if_pos rfl]
  · rw [departs.literal_of_ne here]
    apply bind_eq_map
    intro found
    rw [← goes, if_neg here]

end Departs

theorem isTrue_getD_false (value : Value) (key : String) :
    ((value.under? key).getD (.bool false)).isTrue = (value.under key).isTrue := by
  rw [under]
  cases value.under? key <;> rfl

end Departs

/-! What a text that is written out comes to in each kind of record. -/

def Metadata.put (key text : String) (metadata : Metadata) : Metadata where
  org := if "org" = key then text else metadata.org
  repo := if "repo" = key then text else metadata.repo
  branch := if "branch" = key then text else metadata.branch
  variant := if "variant" = key then text else metadata.variant

def ImageBuild.put (key text : String) (image : ImageBuild) : ImageBuild :=
  { image with contextDir := if "context_dir" = key then text else image.contextDir }

def Promotion.put (key text : String) (promotion : Promotion) : Promotion :=
  { promotion with project := if "namespace" = key then text else promotion.project }

section Readers

variable {value plain : Value} {key text : String}

theorem Metadata.ofDocument_eq (record : value.isRecord = true) :
    ofDocument value = do
      return { org := ← value.literal "org", repo := ← value.literal "repo"
               branch := ← value.literal "branch"
               variant := ← value.literal "variant" } := by
  unfold ofDocument
  simp only [asked_fieldOr (isRecord_orElse record), under?_orElse record, ok_bind]
  rfl

theorem Metadata.ofDocument_put (departs : Departs key text value plain) :
    ofDocument value = (ofDocument plain).map (put key text) := by
  rw [ofDocument_eq departs.record, ofDocument_eq departs.plainRecord]
  refine departs.literal_bind fun org => departs.literal_bind fun repo => ?_
  exact departs.literal_bind fun branch => departs.literal_bind fun variant => rfl

theorem ImageBuild.ofDocument_put (departs : Departs key text value plain) :
    ofDocument value = (ofDocument plain).map (put key text) := by
  unfold ofDocument
  simp only [asked_field departs.record, asked_field departs.plainRecord,
    asked_fieldOr departs.record, asked_fieldOr departs.plainRecord, ok_bind,
    isTrue_getD_false, departs.under]
  cases (plain.under "to").isTrue with
  | false => rfl
  | true =>
      refine bind_eq_map fun target => bind_eq_map fun base => ?_
      exact departs.literal_bind fun contextDir => bind_eq_map fun dockerfile => rfl

theorem TestPlan.ofDocument_eq (departs : Departs key text value plain) :
    ofDocument value = ofDocument plain := by
  unfold ofDocument
  simp only [asked_field departs.record, asked_field departs.plainRecord,
    ok_bind, departs.under]

theorem Promotion.ofDocument_put (departs : Departs key text value plain) :
    ofDocument value = (ofDocument plain).map (put key text) := by
  unfold ofDocument
  simp only [asked_field departs.record, asked_field departs.plainRecord,
    asked_fieldOr departs.record, asked_fieldOr departs.plainRecord, ok_bind,
    isTrue_getD_false, departs.under]
  refine bind_eq_map fun additional => bind_eq_map fun excluded => ?_
  refine departs.literal_bind fun project => bind_eq_map fun name =>
    bind_eq_map fun tag => ?_
  refine bind_eq_map fun override => bind_eq_map fun excluded => ?_
  exact bind_eq_map fun additional => rfl

theorem Metadata.put_eq_iff {metadata : Metadata} (record : plain.isRecord = true)
    (absent : plain.under? key = none) (read : ofDocument plain = .ok metadata) :
    metadata.put key "None" = metadata ↔ key ∉ ["org", "repo", "branch", "variant"] := by
  -- Where the key is left out its text is read as the empty one, which `None` is not.
  have blank := eq_of_eq_map (ofDocument_put (departs_of_absent record absent)) read
  constructor
  · intro same literal
    have written := same.trans blank
    simp only [List.mem_cons, List.not_mem_nil, or_false] at literal
    rcases literal with rfl | rfl | rfl | rfl <;> simp [put] at written
  · intro other
    simp only [List.mem_cons, List.not_mem_nil, or_false, not_or] at other
    simp [put, Ne.symm other.1, Ne.symm other.2.1, Ne.symm other.2.2.1, Ne.symm other.2.2.2]

theorem ImageBuild.put_eq_iff {image : ImageBuild} (record : plain.isRecord = true)
    (absent : plain.under? key = none) (read : ofDocument plain = .ok image) :
    image.put key "None" = image ↔ key ≠ "context_dir" := by
  have blank := eq_of_eq_map (ofDocument_put (departs_of_absent record absent)) read
  constructor
  · rintro same rfl
    have written := same.trans blank
    simp [put] at written
  · intro other
    simp [put, other.symm]

theorem Promotion.put_eq_iff {promotion : Promotion} (record : plain.isRecord = true)
    (absent : plain.under? key = none) (read : ofDocument plain = .ok promotion) :
    promotion.put key "None" = promotion ↔ key ≠ "namespace" := by
  have blank := eq_of_eq_map (ofDocument_put (departs_of_absent record absent)) read
  constructor
  · rintro same rfl
    have written := same.trans blank
    simp [put] at written
  · intro other
    simp [put, other.symm]

theorem Promotion.ofDocument_vacant (record : value.isRecord = true)
    (vacant : value.entries = []) :
    ofDocument value = .ok { project := "" } := by
  unfold ofDocument
  simp only [asked_field record, asked_fieldOr record, ok_bind, under, under?, vacant]
  rfl

end Readers

namespace Configuration

def readEach {α : Type} (read : Value → Except Failure α) (value : Value) :
    Except Failure (List α) := do
  let items ← asked (value.orElse (.list [])).elements
  items.mapM read

theorem readEach_eq {α : Type} {value : Value} {items : List Value}
    (listed : value.listed? = some items) (read : Value → Except Failure α) :
    readEach read value = items.mapM read := by
  have elements : (value.orElse (.list [])).elements = .ok items := by
    cases bare : value.bare with
    | list found =>
        obtain rfl : found = items := by simpa [listed?, bare] using listed
        have counts : value.isTrue = !found.isEmpty := by simp only [Value.isTrue, bare]
        rw [orElse, counts]
        cases found with
        | nil => rfl
        | cons first rest =>
            simp only [Value.elements, bare, List.isEmpty_cons, Bool.not_false, if_true]
    | _ => simp [listed?, bare] at listed
  rw [readEach, elements]
  rfl

def readParts (document : Value) : Except Failure Configuration := do
  let metadata ← Metadata.ofDocument (document.under "zz_generated_metadata")
  let images ← readEach ImageBuild.ofDocument (document.under "images")
  let tests ← readEach TestPlan.ofDocument (document.under "tests")
  let binaryCommands ← ((document.under "binary_build_commands").orElse
      (.string "")).written
  let promotion ← promotionOf (document.under "promotion")
  pure { metadata, images, tests, promotion, binaryCommands }

variable {document : Value} {key : String}

theorem ofDocument_eq (record : document.isRecord = true) :
    ofDocument document = readParts document := by
  cases bare : document.bare with
  | mapping found =>
      have fields : ∀ other, (Value.mapping found).under other = document.under other := by
        intro other
        simp only [under, under?, Value.entries, bare]
        rfl
      have record : (Value.mapping found).isRecord = true := rfl
      simp only [ofDocument, bare, ofFields, asked_field record, ok_bind, fields, readParts,
        readEach, bind_assoc]
  | _ => simp [isRecord, bare] at record

/-- The records in which a key may be left empty. -/
inductive Place where
  | whole
  | metadata
  | image (index : Nat)
  | test (index : Nat)
  | promotion

namespace Place

def at? (document : Value) : Place → Option Value
  | .whole => some document
  | .metadata => document.under? "zz_generated_metadata"
  | .image index => (document.under "images").listed?.bind (·[index]?)
  | .test index => (document.under "tests").listed?.bind (·[index]?)
  | .promotion => document.under? "promotion"

def revise (change : Value → Value) (document : Value) : Place → Value
  | .whole => change document
  | .metadata => document.revised "zz_generated_metadata" change
  | .image index => document.revised "images" (revisedItem index change)
  | .test index => document.revised "tests" (revisedItem index change)
  | .promotion => document.revised "promotion" change

/-- What an empty text that is written out makes of the configuration.  A promotion of
which nothing else is given is one all the same. -/
def put (key text : String) (configuration : Configuration) : Place → Configuration
  | .metadata => { configuration with metadata := configuration.metadata.put key text }
  | .image index =>
      { configuration with images := configuration.images.modify index (·.put key text) }
  | .promotion =>
      { configuration with
        promotion := some ((configuration.promotion.getD { project := "" }).put key text) }
  | .whole | .test _ => configuration

end Place

theorem listed?_revisedItem {value : Value} {items : List Value}
    (listed : value.listed? = some items) (index : Nat) (change : Value → Value) :
    (value.revisedItem index change).listed? = some (items.modify index change) := by
  match value, listed with
  | .list _, rfl => rfl
  | .shared _ (.list _), rfl => rfl

theorem readEach_revisedItem {α : Type} {read : Value → Except Failure α}
    {value found : Value} {index : Nat} {change : Value → Value} {adjust : α → α}
    (listed : value.listed?.bind (·[index]?) = some found)
    (differs : read found = (read (change found)).map adjust) :
    readEach read value =
      (readEach read (value.revisedItem index change)).map fun answers =>
        answers.modify index adjust := by
  obtain ⟨items, items_eq, member⟩ := Option.bind_eq_some_iff.mp listed
  rw [readEach_eq items_eq, readEach_eq (listed?_revisedItem items_eq index change)]
  exact mapM_modify member differs

theorem under?_of_listed {index : Nat} {found : Value}
    (listed : (document.under key).listed?.bind (·[index]?) = some found) :
    document.under? key = some (document.under key) := by
  rw [under] at listed ⊢
  cases stood : document.under? key with
  | some value => rfl
  | none =>
      rw [stood] at listed
      cases listed

theorem promotionOf_put {value : Value} (empty : value.under? key = some .null) :
    promotionOf value = (promotionOf (value.without key)).map fun promotion =>
      some ((promotion.getD { project := "" }).put key "None") := by
  have departs := departs_of_empty empty
  have given : value.isTrue = true := by
    rw [isTrue_record departs.record]
    cases entries : value.entries with
    | nil => simp [under?, entries, Entries.get?] at empty
    | cons entry rest => rfl
  rw [promotionOf, if_pos given, Promotion.ofDocument_put departs, promotionOf]
  split
  · cases Promotion.ofDocument (value.without key) <;> rfl
  · rename_i blank
    have vacant : (value.without key).entries = [] := by
      simpa [isTrue_record departs.plainRecord] using blank
    rw [Promotion.ofDocument_vacant departs.plainRecord vacant]
    rfl

theorem promotionOf_eq_ok {value : Value} {promotion : Option Promotion}
    (read : promotionOf value = .ok promotion) :
    value.isTrue = false ∧ promotion = none
      ∨ value.isTrue = true ∧ ∃ chosen, Promotion.ofDocument value = .ok chosen
          ∧ promotion = some chosen := by
  rw [promotionOf] at read
  split at read
  · rename_i given
    cases chosen : Promotion.ofDocument value with
    | error failure =>
        rw [chosen] at read
        cases read
    | ok found =>
        rw [chosen] at read
        cases read
        exact .inr ⟨given, found, rfl, rfl⟩
  · rename_i blank
    cases read
    exact .inl ⟨by simpa using blank, rfl⟩

/-- A key left empty is read as one left out, but for the text that an empty one is
written as. -/
theorem ofDocument_put (place : Place) {found : Value}
    (stands : place.at? document = some found) (empty : found.under? key = some .null) :
    ofDocument document =
      (ofDocument (place.revise (·.without key) document)).map (place.put key "None") := by
  have departs := departs_of_empty empty
  -- The parts that the place does not touch are read alike from both documents.
  cases place with
  | whole =>
      cases stands
      rw [ofDocument_eq departs.record, Place.revise, ofDocument_eq departs.plainRecord]
      simp only [readParts, departs.under]
      refine bind_eq_map fun metadata => bind_eq_map fun images =>
        bind_eq_map fun tests => ?_
      exact bind_eq_map fun commands => bind_eq_map fun promotion => rfl
  | metadata =>
      have record := isRecord_of_under? stands
      rw [Place.revise, ofDocument_eq record,
        ofDocument_eq ((isRecord_revised _ _ _).trans record),
        readParts, readParts, under_revised_self stands, under_of_under? stands,
        Metadata.ofDocument_put departs]
      simp (disch := decide) only [under_revised_of_ne]
      refine map_bind_eq_map fun metadata => bind_eq_map fun images =>
        bind_eq_map fun tests => ?_
      exact bind_eq_map fun commands => bind_eq_map fun promotion => rfl
  | image index =>
      have stood := under?_of_listed stands
      have record := isRecord_of_under? stood
      rw [Place.revise, ofDocument_eq record,
        ofDocument_eq ((isRecord_revised _ _ _).trans record),
        readParts, readParts, under_revised_self stood,
        readEach_revisedItem stands (ImageBuild.ofDocument_put departs)]
      simp (disch := decide) only [under_revised_of_ne]
      refine bind_eq_map fun metadata => map_bind_eq_map fun images =>
        bind_eq_map fun tests => ?_
      exact bind_eq_map fun commands => bind_eq_map fun promotion => rfl
  | test index =>
      have stood := under?_of_listed stands
      have record := isRecord_of_under? stood
      have same : TestPlan.ofDocument found =
          (TestPlan.ofDocument (found.without key)).map id := by
        rw [TestPlan.ofDocument_eq departs]
        cases TestPlan.ofDocument (found.without key) <;> rfl
      rw [Place.revise, ofDocument_eq record,
        ofDocument_eq ((isRecord_revised _ _ _).trans record),
        readParts, readParts, under_revised_self stood, readEach_revisedItem stands same]
      simp (disch := decide) only [under_revised_of_ne, List.modify_id]
      refine bind_eq_map fun metadata => bind_eq_map fun images =>
        map_bind_eq_map fun tests => ?_
      exact bind_eq_map fun commands => bind_eq_map fun promotion => rfl
  | promotion =>
      have record := isRecord_of_under? stands
      rw [Place.revise, ofDocument_eq record,
        ofDocument_eq ((isRecord_revised _ _ _).trans record),
        readParts, readParts, under_revised_self stands, under_of_under? stands,
        promotionOf_put empty]
      simp (disch := decide) only [under_revised_of_ne]
      refine bind_eq_map fun metadata => bind_eq_map fun images =>
        bind_eq_map fun tests => ?_
      exact bind_eq_map fun commands => map_bind_eq_map fun promotion => rfl

/-- The keys under which an empty text is written out, and an empty key that is all there
is. -/
def Place.literalKeys : Place → List String
  | .metadata => ["org", "repo", "branch", "variant"]
  | .image _ => ["context_dir"]
  | .promotion => ["namespace"]
  | .whole | .test _ => []

def Place.IsSole (place : Place) (key : String) (document : Value) : Prop :=
  place = .promotion ∧ ((document.under "promotion").without key).isTrue = false

theorem parts_of_ofDocument {configuration : Configuration}
    (record : document.isRecord = true) (read : ofDocument document = .ok configuration) :
    Metadata.ofDocument (document.under "zz_generated_metadata") =
      .ok configuration.metadata
      ∧ readEach ImageBuild.ofDocument (document.under "images") = .ok configuration.images
      ∧ promotionOf (document.under "promotion") = .ok configuration.promotion := by
  rw [ofDocument_eq record] at read
  obtain ⟨metadata, described, read⟩ := bind_eq_ok.mp read
  obtain ⟨images, built, read⟩ := bind_eq_ok.mp read
  obtain ⟨tests, _, read⟩ := bind_eq_ok.mp read
  obtain ⟨commands, _, read⟩ := bind_eq_ok.mp read
  obtain ⟨promotion, promoted, read⟩ := bind_eq_ok.mp read
  cases read
  exact ⟨described, built, promoted⟩

theorem modify_eq_iff {α : Type} {items : List α} {index : Nat} {item : α}
    (listed : items[index]? = some item) (change : α → α) :
    items.modify index change = items ↔ change item = item := by
  constructor
  · intro same
    have there := congrArg (·[index]?) same
    simpa [List.getElem?_modify, listed] using there
  · intro same
    apply List.ext_getElem?
    intro other
    rw [List.getElem?_modify]
    by_cases here : index = other
    · subst here
      simp [listed, same]
    · simp [here]

theorem put_eq_iff (place : Place) {found : Value}
    (stands : place.at? document = some found) (empty : found.under? key = some .null)
    {configuration : Configuration}
    (read : ofDocument (place.revise (·.without key) document) = .ok configuration) :
    place.put key "None" configuration = configuration
      ↔ key ∉ place.literalKeys ∧ ¬ place.IsSole key document := by
  have departs := departs_of_empty empty
  cases place with
  | whole => simp [Place.put, Place.literalKeys, Place.IsSole]
  | test index => simp [Place.put, Place.literalKeys, Place.IsSole]
  | metadata =>
      have record : (Place.metadata.revise (·.without key) document).isRecord = true :=
        (isRecord_revised _ _ _).trans (isRecord_of_under? stands)
      have described := (parts_of_ofDocument record read).1
      rw [Place.revise, under_revised_self stands] at described
      have literal := Metadata.put_eq_iff departs.plainRecord departs.absent described
      obtain ⟨metadata, images, tests, commands, promotion⟩ := configuration
      simpa [Place.put, Place.literalKeys, Place.IsSole] using literal
  | image index =>
      have stood := under?_of_listed stands
      have record : ((Place.image index).revise (·.without key) document).isRecord = true :=
        (isRecord_revised _ _ _).trans (isRecord_of_under? stood)
      have built := (parts_of_ofDocument record read).2.1
      obtain ⟨items, items_eq, member⟩ := Option.bind_eq_some_iff.mp stands
      have plain : (items.modify index (·.without key))[index]? =
          some (found.without key) := by
        simp [member]
      rw [Place.revise, under_revised_self stood,
        readEach_eq (listed?_revisedItem items_eq index _)] at built
      obtain ⟨image, listed, read⟩ := getElem?_mapM built plain
      have literal := ImageBuild.put_eq_iff departs.plainRecord departs.absent read
      rw [← modify_eq_iff listed] at literal
      obtain ⟨metadata, images, tests, commands, promotion⟩ := configuration
      simpa [Place.put, Place.literalKeys, Place.IsSole] using literal
  | promotion =>
      have record : (Place.promotion.revise (·.without key) document).isRecord = true :=
        (isRecord_revised _ _ _).trans (isRecord_of_under? stands)
      have promoted := (parts_of_ofDocument record read).2.2
      rw [Place.revise, under_revised_self stands] at promoted
      obtain ⟨metadata, images, tests, commands, promotion⟩ := configuration
      rw [Place.IsSole, under_of_under? stands]
      rcases promotionOf_eq_ok promoted with ⟨blank, rfl⟩ | ⟨given, chosen, chose, rfl⟩
      · simp [Place.put, blank]
      · have literal := Promotion.put_eq_iff departs.plainRecord departs.absent chose
        simpa [Place.put, Place.literalKeys, given] using literal

def verdict (document : Value) : Except Failure Unit :=
  ofDocument document >>= validate

/-- What becomes of a key that is left empty, at whatever place of the document.  The
document is read as if the key were left out, and refused for the same failure if it
cannot be read.  But under some keys an empty text is written out as `None`, and a
promotion is one even if nothing else is given of it.  So taking the key out changes
nothing exactly if it is none of these, or if the document is refused. -/
theorem ofDocument_left_empty (place : Place) (document : Value) (key : String)
    {found : Value} (stands : place.at? document = some found)
    (empty : found.under? key = some .null) :
    ofDocument document =
        (ofDocument (place.revise (·.without key) document)).map (place.put key "None")
      ∧ (ofDocument document = ofDocument (place.revise (·.without key) document)
            ∧ verdict document = verdict (place.revise (·.without key) document)
          ↔ key ∉ place.literalKeys ∧ ¬ place.IsSole key document
            ∨ ∃ failure, ofDocument document = .error failure) := by
  have rereads := ofDocument_put place stands empty
  refine ⟨rereads, ?_⟩
  cases read : ofDocument (place.revise (·.without key) document) with
  | error failure =>
      rw [read] at rereads
      have same : verdict document = verdict (place.revise (·.without key) document) := by
        rw [verdict, verdict, rereads, read]
        rfl
      exact iff_of_true ⟨rereads, same⟩ (.inr ⟨failure, rereads⟩)
  | ok configuration =>
      rw [read] at rereads
      rw [← put_eq_iff place stands empty read, rereads]
      constructor
      · rintro ⟨same, _⟩
        exact .inl (Except.ok.inj same)
      · rintro (same | ⟨failure, refused⟩)
        · refine ⟨congrArg Except.ok same, ?_⟩
          rw [verdict, verdict, rereads, read]
          exact congrArg validate same
        · cases refused

def promoting (fields : List (String × Value)) : Value :=
  .object [("promotion", .object fields)]

def emptyTag : Value :=
  promoting [("name", .string "4.8"), ("namespace", .string "ocp"), ("tag", .null)]

def emptyNamespace : Value :=
  promoting [("name", .string "4.8"), ("namespace", .null)]

theorem emptyTag_left_out :
    Place.promotion.at? emptyTag = some (emptyTag.under "promotion")
      ∧ (emptyTag.under "promotion").under? "tag" = some .null
      ∧ ofDocument emptyTag = ofDocument (Place.promotion.revise (·.without "tag") emptyTag)
      ∧ verdict emptyTag = verdict (Place.promotion.revise (·.without "tag") emptyTag) := by
  have empty : (emptyTag.under "promotion").under? "tag" = some .null := rfl
  have sole : ¬ Place.promotion.IsSole "tag" emptyTag := by
    rintro ⟨_, ⟨⟩⟩
  have alike := (ofDocument_left_empty .promotion emptyTag "tag" rfl empty).2.mpr
    (.inl ⟨by decide, sole⟩)
  exact ⟨rfl, empty, alike⟩

/-- A namespace that is left empty is taken for one of the name `None`, and is no longer
missed. -/
theorem emptyNamespace_accepted :
    (emptyNamespace.under "promotion").under? "namespace" = some .null
      ∧ verdict emptyNamespace = .ok ()
      ∧ verdict (Place.promotion.revise (·.without "namespace") emptyNamespace) =
          .error (.configuration "promotion.namespace is required")
      ∧ (ofDocument emptyNamespace).map (·.promotion.map (·.project)) =
          .ok (some "None") := by
  refine ⟨rfl, rfl, rfl, rfl⟩

end Configuration

end BuildPipeline
