import BuildPipeline.Proofs.Job.Grammar
import BuildPipeline.Task.Basic

namespace BuildPipeline.Refs

variable {text : String} {refs other : Refs}

/-- The parts of a written revision can be told apart if each is free of the separators
that it is read up to, or that come before it. -/
structure Writable (refs : Refs) : Prop where
  org_ne : refs.org ≠ ""
  org : '/' ∉ refs.org.toList ∧ '@' ∉ refs.org.toList ∧ ',' ∉ refs.org.toList
  repo_ne : refs.repo ≠ ""
  repo : '@' ∉ refs.repo.toList ∧ ',' ∉ refs.repo.toList
  baseRef : ':' ∉ refs.baseRef.toList ∧ ',' ∉ refs.baseRef.toList
  baseSha : ',' ∉ refs.baseSha.toList
  pulls : ∀ pull ∈ refs.pulls, pull ≠ "" ∧ ',' ∉ pull.toList

instance (refs : Refs) : Decidable refs.Writable :=
  decidable_of_iff
    (refs.org ≠ "" ∧ ('/' ∉ refs.org.toList ∧ '@' ∉ refs.org.toList ∧ ',' ∉ refs.org.toList)
      ∧ refs.repo ≠ "" ∧ ('@' ∉ refs.repo.toList ∧ ',' ∉ refs.repo.toList)
      ∧ (':' ∉ refs.baseRef.toList ∧ ',' ∉ refs.baseRef.toList) ∧ ',' ∉ refs.baseSha.toList
      ∧ ∀ pull ∈ refs.pulls, pull ≠ "" ∧ ',' ∉ pull.toList)
    ⟨fun ⟨org_ne, org, repo_ne, repo, baseRef, baseSha, pulls⟩ =>
        ⟨org_ne, org, repo_ne, repo, baseRef, baseSha, pulls⟩,
      fun h => ⟨h.org_ne, h.org, h.repo_ne, h.repo, h.baseRef, h.baseSha, h.pulls⟩⟩

def address (refs : Refs) : String :=
  refs.org ++ "/" ++ refs.repo

def revision (refs : Refs) : String :=
  refs.baseRef ++ (if refs.baseSha = "" then "" else ":" ++ refs.baseSha)

def front (refs : Refs) : String :=
  refs.address ++ "@" ++ refs.revision

def listed (pulls : List String) : String :=
  String.join (pulls.map ("," ++ ·))

theorem describe_eq (refs : Refs) : refs.describe = refs.front ++ listed refs.pulls := by
  simp only [describe, front, address, revision, listed, String.append_assoc]

theorem listed_cons (pull : String) (rest : List String) :
    listed (pull :: rest) = "," ++ (pull ++ listed rest) := by
  simp [listed, String.append_assoc]

theorem revision_eq_empty_iff :
    refs.revision = "" ↔ refs.baseRef = "" ∧ refs.baseSha = "" := by
  by_cases blank : refs.baseSha = "" <;> simp [revision, blank]

namespace Writable

theorem cuts_address (writable : refs.Writable) :
    Text.Cuts '/' refs.address refs.org refs.repo where
  split := by simp [address]
  fresh := writable.org.1

theorem cuts_front (writable : refs.Writable) :
    Text.Cuts '@' refs.front refs.address refs.revision where
  split := by simp [front]
  fresh := by simp [address, writable.org.2.1, writable.repo.1]

theorem front_comma (writable : refs.Writable) : ',' ∉ refs.front.toList := by
  have plain : ',' ∉ refs.revision.toList := by
    by_cases blank : refs.baseSha = "" <;>
      simp [revision, blank, writable.baseRef.2, writable.baseSha]
  simp [front, address, writable.org.2.2, writable.repo.2, plain]

theorem cut_revision (writable : refs.Writable) :
    (Text.cut ':' refs.revision).1 = refs.baseRef
      ∧ (Text.cut ':' refs.revision).2.getD "" = refs.baseSha := by
  by_cases blank : refs.baseSha = ""
  · have whole : refs.revision = refs.baseRef := by simp [revision, blank]
    rw [whole, Text.cut_of_not_mem writable.baseRef.1]
    exact ⟨rfl, blank.symm⟩
  · have cuts : Text.Cuts ':' refs.revision refs.baseRef refs.baseSha :=
      ⟨by simp [revision, blank], writable.baseRef.1⟩
    rw [cuts.cut_eq]
    exact ⟨rfl, rfl⟩

theorem cut_describe (writable : refs.Writable) :
    (refs.pulls = [] ∧ refs.describe = refs.front)
      ∨ ∃ pull rest, refs.pulls = pull :: rest
        ∧ Text.Cuts ',' refs.describe refs.front (pull ++ listed rest) := by
  rw [describe_eq]
  cases pulls : refs.pulls with
  | nil => exact .inl ⟨rfl, String.append_empty⟩
  | cons pull rest =>
      exact .inr ⟨pull, rest, rfl, by simp [listed_cons], writable.front_comma⟩

end Writable

theorem pieces_listed {first : String} {rest : List String}
    (fresh : ∀ text ∈ first :: rest, ',' ∉ text.toList) :
    Text.pieces ',' (first ++ listed rest) = first :: rest := by
  induction rest generalizing first with
  | nil =>
      have whole : first ++ listed [] = first := String.append_empty
      rw [whole, Text.pieces_of_not_mem (fresh first List.mem_cons_self)]
  | cons second rest ih =>
      obtain ⟨own, others⟩ := List.forall_mem_cons.mp fresh
      have cuts : Text.Cuts ',' (first ++ listed (second :: rest))
          first (second ++ listed rest) :=
        ⟨by simp [listed_cons], own⟩
      rw [cuts.pieces_eq, ih others]

namespace Writable

theorem pulls_describe (writable : refs.Writable) :
    (Text.pieces ',' ((Text.cut ',' refs.describe).2.getD "")).filter (· ≠ "") =
      refs.pulls := by
  rcases writable.cut_describe with ⟨none, whole⟩ | ⟨pull, rest, some, cuts⟩
  · rw [whole, Text.cut_of_not_mem writable.front_comma, none]
    rfl
  · have each := writable.pulls
    rw [some] at each
    rw [cuts.cut_eq, Option.getD_some, pieces_listed fun text member =>
      (each text member).2, some]
    exact List.filter_eq_self.mpr fun text member => decide_eq_true (each text member).1

theorem splits_describe (writable : refs.Writable) :
    Splits refs.describe refs.org refs.repo refs.revision where
  parts := by
    refine ⟨refs.front, refs.address, ?_, writable.cuts_front, writable.cuts_address⟩
    rcases writable.cut_describe with ⟨-, whole⟩ | ⟨pull, rest, -, cuts⟩
    · rw [whole]
      exact .inl ⟨rfl, writable.front_comma⟩
    · exact .inr ⟨_, cuts⟩
  org_ne := writable.org_ne
  repo_ne := writable.repo_ne

theorem reading_describe (writable : refs.Writable) :
    reading refs.describe refs.org refs.repo refs.revision = refs := by
  rw [reading, writable.cut_revision.1, writable.cut_revision.2, writable.pulls_describe]

theorem parse_describe_iff (writable : refs.Writable) :
    parse refs.describe = .ok refs ↔ refs.baseRef ≠ "" ∨ refs.baseSha ≠ "" := by
  rw [parse_of_splits writable.splits_describe, writable.reading_describe, ← not_and_or,
    ← revision_eq_empty_iff]
  by_cases blank : refs.revision = "" <;> simp [blank]

end Writable

theorem writable_of_parse (parsed : parse text = .ok refs) : refs.Writable := by
  obtain ⟨org, repo, revision, splits, -, rfl⟩ := parse_eq_ok_iff.mp parsed
  obtain ⟨head, address, begins, cuts, parted⟩ := splits.parts
  obtain ⟨address_comma, revision_comma⟩ := cuts.absent begins.fresh
  have commas := parted.absent address_comma
  have signs := parted.absent cuts.fresh
  have named : ',' ∉ (Text.cut ':' revision).1.toList
      ∧ ',' ∉ ((Text.cut ':' revision).2.getD "").toList := Text.absent_cut revision_comma
  exact
    { org_ne := splits.org_ne
      org := ⟨parted.fresh, signs.1, commas.1⟩
      repo_ne := splits.repo_ne
      repo := ⟨signs.2, commas.2⟩
      baseRef := ⟨(Text.before_cut ':' revision).fresh, named.1⟩
      baseSha := named.2
      pulls := fun pull member => by
        obtain ⟨piece, written⟩ := List.mem_filter.mp member
        exact ⟨of_decide_eq_true written, Text.not_mem_of_mem_pieces piece⟩ }

/-- What a text has to be to be read, and what becomes of it.  Every text is read or
refused as a matter of configuration.  It is read if it has the documented form, and also
if it has that form but for a revision that names a commit and no base reference; it
cannot be both.  What is read stands in the text where the form has it, has a base
reference just in the first case, and is read back of its own description unless its
revision says nothing at all. -/
theorem parse_accepts (text : String) :
    ((∃ refs, parse text = .ok refs)
        ∨ parse text = .error (invalid text) ∧ (invalid text).isConfiguration = true)
      ∧ ((∃ refs, parse text = .ok refs) ↔ Documented text ∨ Nameless text)
      ∧ ¬ (Documented text ∧ Nameless text)
      ∧ ∀ refs, parse text = .ok refs →
          (∃ revision, Splits text refs.org refs.repo revision
              ∧ Text.Before ':' revision refs.baseRef)
            ∧ (refs.baseRef ≠ "" ↔ Documented text)
            ∧ (parse refs.describe = .ok refs ↔ refs.baseRef ≠ "" ∨ refs.baseSha ≠ "") := by
  refine ⟨(parse_ok_or_invalid text).imp_right fun refused => ⟨refused, rfl⟩, accepts_iff,
    fun both => not_documented_of_nameless both.2 both.1, fun refs parsed => ⟨?_, ?_, ?_⟩⟩
  · obtain ⟨org, repo, revision, splits, -, rfl⟩ := parse_eq_ok_iff.mp parsed
    exact ⟨revision, splits, Text.before_cut ':' revision⟩
  · have nameless := baseRef_eq_iff parsed
    constructor
    · intro named
      exact (accepts_iff.mp ⟨refs, parsed⟩).resolve_right fun other =>
        named (nameless.mpr other)
    · intro documented blank
      exact not_documented_of_nameless (nameless.mp blank) documented
  · exact (writable_of_parse parsed).parse_describe_iff

/-- A commit of no reference is accepted, although the form that is asked for has one.
Where even the commit is missing, what was accepted is refused once it is described. -/
theorem commit_alone_accepted :
    parse "org/repo@:abc123"
        = .ok { org := "org", repo := "repo", baseRef := "", baseSha := "abc123" }
      ∧ ¬ Documented "org/repo@:abc123"
      ∧ parse "org/repo@:" = .ok { org := "org", repo := "repo", baseRef := "" }
      ∧ ({ org := "org", repo := "repo", baseRef := "" } : Refs).describe = "org/repo@"
      ∧ parse "org/repo@" = .error (invalid "org/repo@") := by
  have read : parse "org/repo@:abc123"
      = .ok { org := "org", repo := "repo", baseRef := "", baseSha := "abc123" } := rfl
  exact ⟨read, not_documented_of_nameless ((baseRef_eq_iff read).mp rfl), rfl, rfl, rfl⟩

structure Legible (refs : Refs) : Prop extends Writable refs where
  baseRef_ne : refs.baseRef ≠ ""

instance (refs : Refs) : Decidable refs.Legible :=
  decidable_of_iff (refs.Writable ∧ refs.baseRef ≠ "")
    ⟨fun h => ⟨h.1, h.2⟩, fun h => ⟨h.1, h.2⟩⟩

theorem Legible.parse_describe (legible : refs.Legible) : parse refs.describe = .ok refs :=
  legible.toWritable.parse_describe_iff.mpr (.inl legible.baseRef_ne)

theorem inputs_source {job : Job} (about : job.refs = some refs) :
    (⟨job, .source⟩ : Task).step.inputs = some [refs.describe] := by
  rw [Task.step, about]
  rfl

/-- A legible revision is read back as it was, so no other one has its description, and
none gives the step that clones it the same input. -/
theorem describe_identifies (legible : refs.Legible) (distinct : other.Legible) :
    parse refs.describe = .ok refs
      ∧ (refs.describe = other.describe ↔ refs = other)
      ∧ ∀ job job' : Job, job.refs = some refs → job'.refs = some other →
          ((⟨job, .source⟩ : Task).step.inputs = (⟨job', .source⟩ : Task).step.inputs
            ↔ refs = other) := by
  have apart : refs.describe = other.describe ↔ refs = other := by
    refine ⟨fun same => ?_, congrArg describe⟩
    have read := legible.parse_describe
    rw [same, distinct.parse_describe] at read
    exact (Except.ok.inj read).symm
  refine ⟨legible.parse_describe, apart, fun job job' about about' => ?_⟩
  rw [inputs_source about, inputs_source about', Option.some_inj, List.singleton_inj, apart]

/-- Separators in the parts that come late do no harm. -/
def tangled : Refs where
  org := "openshift"
  repo := "ci/tools"
  baseRef := "release/4.8@next"
  baseSha := "1f:2e@3d"
  pulls := ["9a:/@", "4b"]

theorem tangled_identified :
    parse "openshift/ci/tools@release/4.8@next:1f:2e@3d,9a:/@,4b" = .ok tangled
      ∧ (⟨{ project := "ci", refs := some tangled }, .source⟩ : Task).step.inputs
        ≠ (⟨{ project := "ci", refs := some { tangled with pulls := ["4b", "9a:/@"] } },
          .source⟩ : Task).step.inputs := by
  have legible : tangled.Legible := by decide +kernel
  have swapped : ({ tangled with pulls := ["4b", "9a:/@"] } : Refs).Legible := by
    decide +kernel
  obtain ⟨read, -, apart⟩ := describe_identifies legible swapped
  refine ⟨read, fun same => ?_⟩
  have equal := (apart _ _ rfl rfl).mp same
  exact absurd (congrArg Refs.pulls equal) (by decide +kernel)

end BuildPipeline.Refs
