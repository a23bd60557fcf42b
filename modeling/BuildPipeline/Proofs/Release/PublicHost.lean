import BuildPipeline.Proofs.Release.Mirror
import BuildPipeline.Proofs.Text.Cutting

namespace BuildPipeline.Mirror

open Document

variable {stream repository : Value} {records : List (Option String × String)}
  {tag reference host path publicHost pulled : String}

/-- The host of a reference stands before its first slash; an internal one ends in the
internal port. -/
def IsInternal (host : String) : Prop :=
  internalPort.toList <:+ host.toList

instance : Decidable (IsInternal host) :=
  inferInstanceAs (Decidable (_ <:+ _))

def NamesHost (repository : Value) (host : String) : Prop :=
  host ≠ "" ∧ ∃ address path, repository = .string address ∧ Text.Cuts '/' address host path

/-- The source from which an image is to be pulled. -/
inductive Prescribed (reference : String) (repository : Value) : String → Prop
  | rewritten {host path publicHost : String} : Text.Cuts '/' reference host path →
      IsInternal host →
      NamesHost repository publicHost → Prescribed reference repository
        (publicHost ++ "/" ++ path)
  | kept : (∀ host path publicHost, Text.Cuts '/' reference host path → IsInternal host →
      ¬ NamesHost repository publicHost) → Prescribed reference repository reference

/-- A reference that mentions the port needs a public repository that is a text; and if
both have a host, then these have to be an internal and a public one, unless they are the
same. -/
def IsSafe (reference : String) (repository : Value) : Prop :=
  Text.contains internalPort reference = true →
    ∃ address, repository = .string address
      ∧ ∀ host path publicHost publicPath, Text.Cuts '/' reference host path →
          Text.Cuts '/' address publicHost publicPath →
          (IsInternal host ∧ publicHost ≠ "") ∨ publicHost = host

theorem contains_of_isInternal (cuts : Text.Cuts '/' reference host path)
    (internal : IsInternal host) : Text.contains internalPort reference = true := by
  rw [Text.contains_iff, cuts.split]
  exact internal.isInfix.trans (List.prefix_append _ _).isInfix

theorem eq_of_cuts (cuts : Text.Cuts '/' reference host path) :
    reference = host ++ "/" ++ path := by
  apply String.toList_injective
  rw [cuts.split, String.toList_append, String.toList_append, List.append_assoc]
  rfl

theorem publicReference_of_cuts {address publicPath : String}
    (mentioned : Text.contains internalPort reference = true)
    (cuts : Text.Cuts '/' reference host path)
    (cuts' : Text.Cuts '/' address publicHost publicPath) :
    publicReference reference address = publicHost ++ "/" ++ path := by
  have replaced : Text.replaceFirst host publicHost reference =
      publicHost ++ "/" ++ path := by
    rw [Text.replaceFirst_of_starts cuts.split, String.append_assoc]
    congr 1
    exact String.toList_injective (by simp)
  rw [publicReference, if_pos mentioned, cuts.cut_eq, cuts'.cut_eq]
  exact replaced

theorem publicReference_of_hostless {address : String}
    (hostless : '/' ∉ reference.toList ∨ '/' ∉ address.toList) :
    publicReference reference address = reference := by
  rw [publicReference]
  split
  · rcases hostless with fresh | fresh
    · rw [Text.cut_of_not_mem fresh]
      simp
    · rw [Text.cut_of_not_mem fresh]
      rfl
  · rfl

theorem source_of_unmentioned (unmentioned : Text.contains internalPort reference = false) :
    source (.string reference) repository = .ok reference := by
  unfold source
  exact if_neg (Bool.eq_false_iff.mp unmentioned)

theorem source_of_mentioned (mentioned : Text.contains internalPort reference = true)
    (address : String) :
    source (.string reference) (.string address) =
      .ok (publicReference reference address) :=
  if_pos mentioned

theorem source_eq_error (mentioned : Text.contains internalPort reference = true)
    (no_text : ∀ address, repository ≠ .string address) :
    source (.string reference) repository = .error .missingField := by
  unfold source
  refine (if_pos mentioned).trans ?_
  split
  · rename_i address
    exact absurd rfl (no_text address)
  · rfl

theorem prescribed_replaced_iff {address publicPath : String}
    (cuts : Text.Cuts '/' reference host path)
    (cuts' : Text.Cuts '/' address publicHost publicPath) :
    Prescribed reference (.string address) (publicHost ++ "/" ++ path)
      ↔ (IsInternal host ∧ publicHost ≠ "") ∨ publicHost = host := by
  have names : publicHost ≠ "" → NamesHost (.string address) publicHost := fun given =>
    ⟨given, address, publicPath, rfl, cuts'⟩
  constructor
  · intro prescribed
    generalize chosen : publicHost ++ "/" ++ path = pulled at prescribed
    cases prescribed with
    | rewritten otherCuts internal named =>
        obtain ⟨rfl, rfl⟩ := otherCuts.unique cuts
        obtain ⟨given, _, _, ⟨⟩, otherCuts'⟩ := named
        obtain ⟨rfl, rfl⟩ := otherCuts'.unique cuts'
        exact .inl ⟨internal, given⟩
    | kept _ =>
        right
        have letters := congrArg String.toList (chosen.trans (eq_of_cuts cuts))
        simp only [String.toList_append] at letters
        exact String.toList_injective
          (List.append_cancel_right (List.append_cancel_right letters))
  · intro agree
    by_cases hosts : IsInternal host ∧ publicHost ≠ ""
    · exact .rewritten cuts hosts.1 (names hosts.2)
    · obtain rfl := agree.resolve_left hosts
      rw [← eq_of_cuts cuts]
      refine .kept fun other otherPath otherHost otherCuts internal named => hosts ?_
      obtain ⟨rfl, rfl⟩ := otherCuts.unique cuts
      obtain ⟨given, _, _, ⟨⟩, otherCuts'⟩ := named
      obtain ⟨rfl, rfl⟩ := otherCuts'.unique cuts'
      exact ⟨internal, given⟩

theorem prescribed_of_hostless {address : String}
    (hostless : '/' ∉ reference.toList ∨ '/' ∉ address.toList) :
    Prescribed reference (.string address) reference := by
  refine .kept fun host path publicHost cuts _ named => ?_
  obtain ⟨-, _, publicPath, ⟨⟩, cuts'⟩ := named
  rcases hostless with fresh | fresh
  · exact fresh cuts.mem
  · exact fresh cuts'.mem

theorem prescribed_publicReference_iff
    (mentioned : Text.contains internalPort reference = true) (address : String) :
    Prescribed reference (.string address) (publicReference reference address)
      ↔ ∀ host path publicHost publicPath, Text.Cuts '/' reference host path →
          Text.Cuts '/' address publicHost publicPath →
          (IsInternal host ∧ publicHost ≠ "") ∨ publicHost = host := by
  by_cases hosts : '/' ∈ reference.toList ∧ '/' ∈ address.toList
  · obtain ⟨host, path, cuts⟩ := Text.exists_cuts hosts.1
    obtain ⟨publicHost, publicPath, cuts'⟩ := Text.exists_cuts hosts.2
    rw [publicReference_of_cuts mentioned cuts cuts', prescribed_replaced_iff cuts cuts']
    constructor
    · intro agree other otherPath otherHost otherPublic otherCuts otherCuts'
      obtain ⟨rfl, rfl⟩ := otherCuts.unique cuts
      obtain ⟨rfl, rfl⟩ := otherCuts'.unique cuts'
      exact agree
    · exact fun agree => agree host path publicHost publicPath cuts cuts'
  · have hostless := not_and_or.mp hosts
    rw [publicReference_of_hostless hostless]
    exact ⟨fun _ _ _ _ _ cuts cuts' => absurd ⟨cuts.mem, cuts'.mem⟩ hosts,
      fun _ => prescribed_of_hostless hostless⟩

theorem source_prescribed_iff (reference : String) (repository : Value) :
    (∃ pulled, source (.string reference) repository = .ok pulled
        ∧ Prescribed reference repository pulled)
      ↔ IsSafe reference repository := by
  by_cases mentioned : Text.contains internalPort reference = true
  · by_cases text : ∃ address, repository = .string address
    · obtain ⟨address, rfl⟩ := text
      rw [source_of_mentioned mentioned]
      constructor
      · rintro ⟨_, ⟨⟩, prescribed⟩ -
        exact ⟨address, rfl, (prescribed_publicReference_iff mentioned address).mp
          prescribed⟩
      · intro safe
        obtain ⟨_, ⟨⟩, agree⟩ := safe mentioned
        exact ⟨_, rfl, (prescribed_publicReference_iff mentioned address).mpr agree⟩
    · rw [source_eq_error mentioned fun address same => text ⟨address, same⟩]
      constructor
      · rintro ⟨_, ⟨⟩, _⟩
      · intro safe
        obtain ⟨address, same, _⟩ := safe mentioned
        exact absurd ⟨address, same⟩ text
  · rw [source_of_unmentioned (Bool.eq_false_iff.mpr mentioned)]
    refine ⟨fun _ found => absurd found mentioned, fun _ => ⟨reference, rfl, .kept ?_⟩⟩
    exact fun host path _ cuts internal _ =>
      mentioned (contains_of_isInternal cuts internal)

theorem targets_single (reads : ImageStream.Reads stream repository records)
    (given : ImageStream.recorded records tag ≠ "") (destination : ImageReference)
    (registry : String) :
    Mirror.targets [(tag, destination)] stream registry
      = (source (.string (ImageStream.recorded records tag)) repository).map fun pulled =>
          [(pulled, place registry destination)] := by
  rw [targets_eq reads, targetsFrom_cons_of_recorded reads given]
  cases source (.string (ImageStream.recorded records tag)) repository with
  | error misuse => rfl
  | ok pulled => rfl

theorem mirrors_one_iff (reads : ImageStream.Reads stream repository records)
    (given : ImageStream.recorded records tag ≠ "") (destination : ImageReference)
    (registry : String) :
    (∃ pulled, Mirror.targets [(tag, destination)] stream registry
          = .ok [(pulled, place registry destination)]
        ∧ Prescribed (ImageStream.recorded records tag) repository pulled)
      ↔ IsSafe (ImageStream.recorded records tag) repository := by
  rw [← source_prescribed_iff, targets_single reads given]
  constructor
  · rintro ⟨pulled, answered, prescribed⟩
    refine ⟨pulled, ?_, prescribed⟩
    cases found : source (.string (ImageStream.recorded records tag)) repository with
    | error misuse =>
        rw [found] at answered
        cases answered
    | ok other =>
        rw [found] at answered
        cases answered
        rfl
  · rintro ⟨pulled, found, prescribed⟩
    exact ⟨pulled, by rw [found]; rfl, prescribed⟩

theorem Prescribed.unique {one other : String}
    (prescribed : Prescribed reference repository one)
    (prescribed' : Prescribed reference repository other) : one = other := by
  cases prescribed with
  | rewritten cuts internal named =>
      cases prescribed' with
      | rewritten cuts' _ named' =>
          obtain ⟨rfl, rfl⟩ := cuts.unique cuts'
          obtain ⟨_, _, _, rfl, hosts⟩ := named
          obtain ⟨_, _, _, ⟨⟩, hosts'⟩ := named'
          rw [(hosts.unique hosts').1]
      | kept never => exact absurd named (never _ _ _ cuts internal)
  | kept never =>
      cases prescribed' with
      | rewritten cuts internal named => exact absurd named (never _ _ _ cuts internal)
      | kept _ => rfl

theorem pulls_iff_prescribed (given : ImageStream.recorded records tag ≠ "")
    (safe : IsSafe (ImageStream.recorded records tag) repository) :
    Pulls records repository tag pulled
      ↔ Prescribed (ImageStream.recorded records tag) repository pulled := by
  obtain ⟨right, found, prescribed⟩ := (source_prescribed_iff _ _).mpr safe
  constructor
  · intro pulls
    rwa [pulls.unique ⟨given, found⟩]
  · exact fun prescribed' => ⟨given, prescribed.unique prescribed' ▸ found⟩

/-- Whatever the stream's public repository is, an image is mirrored from where it is to
be pulled exactly if its reference is safe; and where all are, the sources of a whole
mirror are those prescribed. -/
theorem mirrors_prescribed_iff (reads : ImageStream.Reads stream repository records)
    (registry : String) :
    (∀ tag, ImageStream.recorded records tag ≠ "" → ∀ destination,
        (∃ pulled, Mirror.targets [(tag, destination)] stream registry
              = .ok [(pulled, place registry destination)]
            ∧ Prescribed (ImageStream.recorded records tag) repository pulled)
          ↔ IsSafe (ImageStream.recorded records tag) repository)
      ∧ ∀ tags, (∀ entry ∈ tags, ImageStream.recorded records entry.1 ≠ "" →
            IsSafe (ImageStream.recorded records entry.1) repository) →
          ∃ targets, Mirror.targets tags stream registry = .ok targets
            ∧ ∀ pulled, (∃ destination, (pulled, destination) ∈ targets)
                ↔ ∃ entry ∈ tags, ImageStream.recorded records entry.1 ≠ ""
                    ∧ Prescribed (ImageStream.recorded records entry.1)
                        repository pulled := by
  refine ⟨fun tag given destination => mirrors_one_iff reads given destination registry,
    fun tags safe => ?_⟩
  have rewritable : ∀ entry ∈ tags, IsRewritable records repository entry.1 := by
    intro entry listed
    by_cases given : ImageStream.recorded records entry.1 = ""
    · exact isRewritable_of_not_recorded given
    · obtain ⟨pulled, found, _⟩ := (source_prescribed_iff _ _).mpr (safe entry listed given)
      exact (exists_pulls_iff given).mp ⟨pulled, given, found⟩
  obtain ⟨targets, answered⟩ := (targetsFrom_answers_iff reads).mpr rewritable
  rw [← targets_eq reads] at answered
  refine ⟨targets, answered, fun pulled => ⟨?_, ?_⟩⟩
  · rintro ⟨destination, held⟩
    obtain ⟨last, pullsLast, _⟩ := (mem_targets reads answered).mp held
    obtain ⟨tag, listed, pulls⟩ := pullsLast.pulls
    have given := pulls.1
    have right := (pulls_iff_prescribed given (safe (tag, last) listed given)).mp pulls
    exact ⟨(tag, last), listed, given, right⟩
  · rintro ⟨entry, listed, given, prescribed⟩
    have pulls := (pulls_iff_prescribed given (safe entry listed given)).mpr prescribed
    obtain ⟨last, pullsLast⟩ := exists_pullsLast listed pulls
    exact ⟨_, (mem_targets reads answered).mpr ⟨last, pullsLast, rfl⟩⟩

def cliStream (repository : Value) (reference : String) : Value :=
  ImageStream.ofRecords repository [("cli", reference)]

def cliRecords (reference : String) : List (Option String × String) :=
  [(some "cli", reference)]

def cliTag : ImageReference := ⟨"ocp", "4.8", "cli"⟩

theorem cliStream_reads (repository : Value) (reference : String) :
    ImageStream.Reads (cliStream repository reference) repository (cliRecords reference) :=
  ImageStream.ofRecords_reads repository [("cli", reference)]

theorem recorded_cliRecords (reference : String) :
    ImageStream.recorded (cliRecords reference) "cli" = reference := by
  rw [cliRecords, ImageStream.recorded_cons, if_pos rfl]

theorem internal_cuts :
    Text.Cuts '/' "172.30.1.1:5000/ci/pipeline@sha256:1f" "172.30.1.1:5000"
      "ci/pipeline@sha256:1f" := by
  decide

theorem toolRepository_cuts :
    Text.Cuts '/' "registry.ci.openshift.org/ci/pipeline" "registry.ci.openshift.org"
      "ci/pipeline" := by
  decide

theorem cliStream_mirrors_prescribed :
    ImageStream.Reads (cliStream toolRepository "172.30.1.1:5000/ci/pipeline@sha256:1f")
        toolRepository (cliRecords "172.30.1.1:5000/ci/pipeline@sha256:1f")
      ∧ ∃ pulled, Mirror.targets [("cli", cliTag)]
            (cliStream toolRepository "172.30.1.1:5000/ci/pipeline@sha256:1f")
              Names.registry
            = .ok [(pulled, "registry.ci.openshift.org/ocp/4.8:cli")]
          ∧ Prescribed "172.30.1.1:5000/ci/pipeline@sha256:1f" toolRepository pulled := by
  have reads := cliStream_reads toolRepository "172.30.1.1:5000/ci/pipeline@sha256:1f"
  have safe : IsSafe "172.30.1.1:5000/ci/pipeline@sha256:1f" toolRepository := by
    refine fun _ => ⟨_, rfl, fun host path publicHost publicPath cuts cuts' => .inl ?_⟩
    obtain ⟨rfl, rfl⟩ := cuts.unique internal_cuts
    obtain ⟨rfl, rfl⟩ := cuts'.unique toolRepository_cuts
    decide
  have recorded := recorded_cliRecords "172.30.1.1:5000/ci/pipeline@sha256:1f"
  have placed : place Names.registry cliTag =
      "registry.ci.openshift.org/ocp/4.8:cli" := by decide
  have mirrors := (mirrors_prescribed_iff reads Names.registry).1 "cli"
  rw [recorded] at mirrors
  rw [← placed]
  exact ⟨reads, (mirrors (by decide) cliTag).mpr safe⟩

/-- A tag that looks like the port sends a public reference to another host, and without a
public repository an internal one is not mirrored at all. -/
theorem cliStream_misses_prescribed :
    (Mirror.targets [("cli", cliTag)] (cliStream toolRepository "quay.io/ci/pipeline:5000")
          Names.registry
          = .ok [("registry.ci.openshift.org/ci/pipeline:5000",
              "registry.ci.openshift.org/ocp/4.8:cli")]
        ∧ Prescribed "quay.io/ci/pipeline:5000" toolRepository "quay.io/ci/pipeline:5000")
      ∧ Mirror.targets [("cli", cliTag)]
            (cliStream .null "172.30.1.1:5000/ci/pipeline@sha256:1f") Names.registry
          = .error .missingField
        ∧ Prescribed "172.30.1.1:5000/ci/pipeline@sha256:1f" .null
            "172.30.1.1:5000/ci/pipeline@sha256:1f" := by
  have quay : Text.Cuts '/' "quay.io/ci/pipeline:5000" "quay.io"
      "ci/pipeline:5000" := by decide
  refine ⟨⟨rfl, .kept fun host path _ cuts internal _ => ?_⟩, rfl, .kept ?_⟩
  · obtain ⟨rfl, rfl⟩ := cuts.unique quay
    exact absurd internal (by decide)
  · rintro host path publicHost cuts internal ⟨-, _, _, ⟨⟩, _⟩

end BuildPipeline.Mirror
