import BuildPipeline.Job.Basic
import BuildPipeline.Proofs.Text.Cutting

namespace BuildPipeline.Refs

variable {text org repo revision : String} {refs : Refs}

/-- The commits to merge stand from the first comma on.  In front of them are the
organisation, up to the first slash, the repository, up to the first at sign, and the
revision. -/
structure Splits (text org repo revision : String) : Prop where
  parts : ∃ head address, Text.Before ',' text head ∧ Text.Cuts '@' head address revision
    ∧ Text.Cuts '/' address org repo
  org_ne : org ≠ ""
  repo_ne : repo ≠ ""

/-- The form that is asked for has a base reference, which the first colon of the revision
ends.  A revision that begins with its colon names a commit of no reference. -/
def Documented (text : String) : Prop :=
  ∃ org repo revision baseRef, Splits text org repo revision
    ∧ Text.Before ':' revision baseRef
    ∧ baseRef ≠ ""

def Nameless (text : String) : Prop :=
  ∃ org repo revision, Splits text org repo revision ∧ revision ≠ ""
    ∧ Text.Before ':' revision ""

theorem Splits.unique {org' repo' revision' : String}
    (splits : Splits text org repo revision) (splits' : Splits text org' repo' revision') :
    org = org' ∧ repo = repo' ∧ revision = revision' := by
  obtain ⟨head, address, begins, cuts, parted⟩ := splits.parts
  obtain ⟨head', address', begins', cuts', parted'⟩ := splits'.parts
  obtain rfl : head = head' := begins.cut_eq.symm.trans begins'.cut_eq
  obtain ⟨rfl, rfl⟩ := cuts.unique cuts'
  obtain ⟨rfl, rfl⟩ := parted.unique parted'
  exact ⟨rfl, rfl, rfl⟩

theorem not_documented_of_nameless (nameless : Nameless text) : ¬ Documented text := by
  rintro ⟨org, repo, revision, baseRef, splits, begins, named⟩
  obtain ⟨org', repo', revision', splits', -, begins'⟩ := nameless
  obtain ⟨rfl, rfl, rfl⟩ := splits.unique splits'
  exact named (begins.cut_eq.symm.trans begins'.cut_eq)

def reading (text org repo revision : String) : Refs where
  org := org
  repo := repo
  baseRef := (Text.cut ':' revision).1
  baseSha := (Text.cut ':' revision).2.getD ""
  pulls := (Text.pieces ',' ((Text.cut ',' text).2.getD "")).filter (· ≠ "")

theorem parse_of_splits (splits : Splits text org repo revision) :
    parse text =
      if revision = "" then .error (invalid text)
        else .ok (reading text org repo revision) := by
  obtain ⟨head, address, begins, cuts, parted⟩ := splits.parts
  have first := begins.cut_eq
  rw [parse, reading]
  generalize Text.cut ',' text = answer at first
  obtain ⟨_, merged⟩ := answer
  cases first
  dsimp only
  rw [cuts.cut_eq]
  dsimp only
  rw [parted.cut_eq]
  simp only [splits.org_ne, splits.repo_ne, false_or]

theorem splits_or_refused (text : String) :
    (∃ org repo revision, Splits text org repo revision)
      ∨ parse text = .error (invalid text) := by
  have begins := Text.before_cut ',' text
  rw [parse]
  generalize Text.cut ',' text = answer at begins
  obtain ⟨head, merged⟩ := answer
  dsimp only at begins ⊢
  by_cases signed : '@' ∈ head.toList
  · obtain ⟨address, revision, cuts⟩ := Text.exists_cuts signed
    rw [cuts.cut_eq]
    dsimp only
    by_cases slashed : '/' ∈ address.toList
    · obtain ⟨org, repo, parted⟩ := Text.exists_cuts slashed
      rw [parted.cut_eq]
      dsimp only
      by_cases blank : org = "" ∨ repo = ""
      · right
        rw [if_pos (blank.imp_right .inl)]
      · rw [not_or] at blank
        exact .inl ⟨org, repo, revision,
          ⟨⟨head, address, begins, cuts, parted⟩, blank.1, blank.2⟩⟩
    · right
      rw [Text.cut_of_not_mem slashed]
  · right
    rw [Text.cut_of_not_mem signed]
    cases (Text.cut '/' head).2 <;> rfl

theorem parse_eq_ok_iff :
    parse text = .ok refs ↔ ∃ org repo revision, Splits text org repo revision
      ∧ revision ≠ ""
      ∧ refs = reading text org repo revision := by
  constructor
  · intro parsed
    rcases splits_or_refused text with ⟨org, repo, revision, splits⟩ | refused
    · rw [parse_of_splits splits] at parsed
      split at parsed
      · cases parsed
      · rename_i written
        cases parsed
        exact ⟨org, repo, revision, splits, written, rfl⟩
    · rw [refused] at parsed
      cases parsed
  · rintro ⟨org, repo, revision, splits, written, rfl⟩
    rw [parse_of_splits splits, if_neg written]

theorem parse_ok_or_invalid (text : String) :
    (∃ refs, parse text = .ok refs) ∨ parse text = .error (invalid text) := by
  rcases splits_or_refused text with ⟨org, repo, revision, splits⟩ | refused
  · rw [parse_of_splits splits]
    by_cases blank : revision = ""
    · exact .inr (if_pos blank)
    · exact .inl ⟨_, if_neg blank⟩
  · exact .inr refused

theorem accepts_iff :
    (∃ refs, parse text = .ok refs) ↔ Documented text ∨ Nameless text := by
  constructor
  · rintro ⟨refs, parsed⟩
    obtain ⟨org, repo, revision, splits, written, rfl⟩ := parse_eq_ok_iff.mp parsed
    have begins := Text.before_cut ':' revision
    by_cases blank : (Text.cut ':' revision).1 = ""
    · rw [blank] at begins
      exact .inr ⟨org, repo, revision, splits, written, begins⟩
    · exact .inl ⟨org, repo, revision, _, splits, begins, blank⟩
  · rintro (⟨org, repo, revision, baseRef, splits, begins, named⟩
      | ⟨org, repo, revision, splits, written, -⟩)
    · refine ⟨_, parse_eq_ok_iff.mpr ⟨org, repo, revision, splits, ?_, rfl⟩⟩
      rintro rfl
      exact named begins.cut_eq.symm
    · exact ⟨_, parse_eq_ok_iff.mpr ⟨org, repo, revision, splits, written, rfl⟩⟩

theorem baseRef_eq_iff (parsed : parse text = .ok refs) :
    refs.baseRef = "" ↔ Nameless text := by
  obtain ⟨org, repo, revision, splits, written, rfl⟩ := parse_eq_ok_iff.mp parsed
  constructor
  · intro blank
    have begins := Text.before_cut ':' revision
    rw [show (Text.cut ':' revision).1 = "" from blank] at begins
    exact ⟨org, repo, revision, splits, written, begins⟩
  · rintro ⟨org', repo', revision', splits', -, begins⟩
    obtain ⟨rfl, rfl, rfl⟩ := splits.unique splits'
    exact begins.cut_eq

end BuildPipeline.Refs
