import BuildPipeline.Proofs.Text.Trimming
import BuildPipeline.Release.Naming

namespace BuildPipeline.Naming

variable {name : String} {text : List Char} {c : Char}

def IsWordChar (c : Char) : Prop :=
  ('a' ≤ c ∧ c ≤ 'z') ∨ ('0' ≤ c ∧ c ≤ '9')

instance : Decidable (IsWordChar c) :=
  inferInstanceAs (Decidable (_ ∨ _))

/-- A name that a pod may have, its end apart: not empty, of at most 63 characters, these
of words or dashes, and no dash first. -/
structure FitsUpToEnd (pod : String) : Prop where
  given : pod ≠ ""
  short : pod.length ≤ 63
  plain : ∀ c ∈ pod.toList, IsWordChar c ∨ c = '-'
  opens : pod.toList.head? ≠ some '-'

structure IsUsable (pod : String) : Prop extends FitsUpToEnd pod where
  closes : pod.toList.getLast? ≠ some '-'

/-- A name with a word in it, once it is in lower case. -/
def HasWord (name : String) : Prop :=
  ∃ c ∈ (Text.lower name).toList, IsWordChar c

/-- Where a text goes on with a word behind its sixty-third character, counted from the
first word, and that character itself is in no word. -/
structure Breaks (text front kept rest : List Char) : Prop where
  split : ∃ c, text = front ++ kept ++ c :: rest ∧ ¬ IsWordChar c
  fresh : ∀ c ∈ front, ¬ IsWordChar c
  opens : ∃ c ∈ kept.head?, IsWordChar c
  full : kept.length + 1 = 63
  more : ∃ c ∈ rest, IsWordChar c

def IsBroken (name : String) : Prop :=
  ∃ front kept rest, Breaks (Text.lower name).toList front kept rest

theorem isPodChar_iff : isPodChar c = true ↔ IsWordChar c ∨ c = '-' := by
  simp only [isPodChar, IsWordChar, Bool.or_eq_true, Bool.and_eq_true,
    decide_eq_true_eq, beq_iff_eq]

theorem podChar_of_isWordChar (word : IsWordChar c) : podChar c = c :=
  if_pos (isPodChar_iff.mpr (.inl word))

theorem podChar_eq_dash_iff : podChar c = '-' ↔ ¬ IsWordChar c := by
  constructor
  · intro dash word
    rw [podChar_of_isWordChar word] at dash
    subst dash
    revert word
    decide
  · intro foreign
    by_cases allowed : isPodChar c = true
    · rw [podChar, if_pos allowed]
      exact (isPodChar_iff.mp allowed).resolve_left foreign
    · exact if_neg allowed

theorem isWordChar_of_podChar_ne (other : podChar c ≠ '-') : IsWordChar c :=
  of_not_not fun foreign => other (podChar_eq_dash_iff.mpr foreign)

theorem podChar_ne_dash (word : IsWordChar c) : (podChar c == '-') = false :=
  beq_eq_false_iff_ne.mpr fun dash => podChar_eq_dash_iff.mp dash word

theorem isDash_of_mem_map {foreign : List Char} (fresh : ∀ c ∈ foreign, ¬ IsWordChar c) :
    ∀ c ∈ foreign.map podChar, (c == '-') = true := by
  intro c member
  obtain ⟨original, listed, rfl⟩ := List.mem_map.mp member
  exact beq_iff_eq.mpr (podChar_eq_dash_iff.mpr (fresh original listed))

theorem isWordChar_or_dash_podChar (c : Char) :
    IsWordChar (podChar c) ∨ podChar c = '-' := by
  by_cases word : IsWordChar c
  · rw [podChar_of_isWordChar word]
    exact .inl word
  · exact .inr (podChar_eq_dash_iff.mpr word)

def stem (text : List Char) : List Char :=
  Text.trimIn (· == '-') (text.map podChar)

theorem toList_podName (name : String) :
    (podName name).toList = (stem (Text.lower name).toList).take 63 := by
  rw [podName, String.toList_ofList, podNameIn, Text.lower, String.toList_ofList]
  rfl

theorem stem_trims (text : List Char) :
    Text.Trims (· == '-') (text.map podChar) (stem text) :=
  Text.trimIn_trims _ _

theorem stem_eq_nil_iff : stem text = [] ↔ ∀ c ∈ text, ¬ IsWordChar c := by
  simp only [(stem_trims text).eq_nil_iff, List.forall_mem_map, beq_iff_eq,
    podChar_eq_dash_iff]

theorem plain_of_mem_stem (member : c ∈ stem text) : IsWordChar c ∨ c = '-' := by
  obtain ⟨front, back, split, -, -⟩ := (stem_trims text).split
  have mapped : c ∈ text.map podChar := by
    rw [split]
    exact List.mem_append_left _ (List.mem_append_right _ member)
  obtain ⟨original, -, rfl⟩ := List.mem_map.mp mapped
  exact isWordChar_or_dash_podChar original

theorem head?_stem_ne (text : List Char) : (stem text).head? ≠ some '-' := by
  intro dash
  have kept := (stem_trims text).opens '-' dash
  cases kept

theorem getLast?_stem_ne (text : List Char) : (stem text).getLast? ≠ some '-' := by
  intro dash
  have kept := (stem_trims text).closes '-' dash
  cases kept

theorem getLast?_take_stem_iff :
    ((stem text).take 63).getLast? = some '-' ↔ (stem text)[62]? = some '-' := by
  rw [List.getLast?_take, if_neg (by decide)]
  cases found : (stem text)[62]? with
  | none =>
      rw [Option.none_or]
      exact ⟨fun dash => absurd dash (getLast?_stem_ne text), nofun⟩
  | some c => rw [Option.some_or]

theorem Breaks.stem_eq {front kept rest : List Char}
    (breaks : Breaks text front kept rest) :
    ∃ more, stem text = kept.map podChar ++ '-' :: more := by
  obtain ⟨c, rfl, foreign⟩ := breaks.split
  obtain ⟨later, listed, word⟩ := breaks.more
  obtain ⟨first, begins, firstWord⟩ := breaks.opens
  obtain ⟨others, rfl⟩ := List.head?_eq_some_iff.mp begins
  obtain ⟨back, split, dropped⟩ :=
    Text.exists_trimEndIn_append (· == '-') (rest.map podChar)
  have closes := Text.closes_trimEndIn (· == '-') (rest.map podChar)
  have given : Text.trimEndIn (· == '-') (rest.map podChar) ≠ [] :=
    Text.trimEndIn_ne_nil (List.mem_map_of_mem listed) (podChar_ne_dash word)
  -- What is left of the rest is not empty, so that the dash in front of it is not dropped
  -- either.
  generalize Text.trimEndIn (· == '-') (rest.map podChar) = more at split closes given
  refine ⟨more, Text.Trims.trimIn_eq ⟨⟨front.map podChar, back, ?_,
    isDash_of_mem_map breaks.fresh, dropped⟩, ?_, ?_⟩⟩
  · simp only [List.map_append, List.map_cons, List.append_assoc, List.cons_append,
      podChar_eq_dash_iff.mpr foreign, split]
  · rintro _ ⟨⟩
    exact podChar_ne_dash firstWord
  · obtain ⟨next, further, rfl⟩ := List.exists_cons_of_ne_nil given
    rwa [List.getLast?_append_cons, List.getLast?_cons_cons]

theorem exists_breaks {kept rest : List Char} (whole : stem text = kept ++ '-' :: rest)
    (full : kept.length + 1 = 63) : ∃ front kept rest, Breaks text front kept rest := by
  obtain ⟨front, back, split, dropped, -⟩ := (stem_trims text).split
  have opens := head?_stem_ne text
  have closes := getLast?_stem_ne text
  rw [whole] at split opens closes
  simp only [List.append_assoc, List.cons_append, List.map_eq_append_iff,
    List.map_eq_cons_iff] at split
  obtain ⟨front, _, rfl, rfl, kept, _, rfl, rfl, c, _, rfl, dash, rest, back, rfl,
      rfl, rfl⟩ := split
  rw [List.length_map] at full
  refine ⟨front, kept, rest ++ back, ⟨c, by simp, podChar_eq_dash_iff.mp dash⟩,
    ?_, ?_, full, ?_⟩
  · intro c member
    exact podChar_eq_dash_iff.mp (beq_iff_eq.mp (dropped _ (List.mem_map_of_mem member)))
  · cases kept with
    | nil => cases full
    | cons first others =>
        exact ⟨first, rfl, isWordChar_of_podChar_ne fun dash => opens (congrArg some dash)⟩
  · -- The last character to be cut is no dash: it comes from a word behind the break.
    rw [List.getLast?_append_cons, List.getLast?_cons] at closes
    cases last : (rest.map podChar).getLast? with
    | none =>
        rw [last] at closes
        exact absurd rfl closes
    | some _ =>
        obtain ⟨c, member, rfl⟩ := List.mem_map.mp (List.mem_of_getLast? last)
        rw [last] at closes
        exact ⟨c, List.mem_append_left _ member,
          isWordChar_of_podChar_ne fun dash => closes (congrArg some dash)⟩

/-- The text to be cut has a dash in front of the cut exactly if the name has no character
of a word there and goes on with a word. -/
theorem getElem?_stem_iff :
    (stem text)[62]? = some '-' ↔ ∃ front kept rest, Breaks text front kept rest := by
  constructor
  · intro dash
    obtain ⟨long, found⟩ := List.getElem?_eq_some_iff.mp dash
    have whole : stem text = (stem text).take 62 ++ '-' :: (stem text).drop 63 := by
      rw [← found, ← List.drop_eq_getElem_cons, List.take_append_drop]
    refine exists_breaks whole ?_
    rw [List.length_take]
    omega
  · rintro ⟨front, kept, rest, breaks⟩
    obtain ⟨more, whole⟩ := breaks.stem_eq
    have full : (kept.map podChar).length = 62 := by
      rw [List.length_map, Nat.add_right_cancel (breaks.full : kept.length + 1 = 62 + 1)]
    rw [whole, List.getElem?_append_right full.le, full]
    rfl

theorem fitsUpToEnd_podName_iff (name : String) :
    FitsUpToEnd (podName name) ↔ HasWord name := by
  have letters := toList_podName name
  constructor
  · intro fits
    by_contra wordless
    have empty : stem (Text.lower name).toList = [] :=
      stem_eq_nil_iff.mpr fun c member word => wordless ⟨c, member, word⟩
    rw [empty, List.take_nil] at letters
    exact fits.given (String.toList_injective letters)
  · rintro ⟨c, member, word⟩
    have given : stem (Text.lower name).toList ≠ [] := fun empty =>
      stem_eq_nil_iff.mp empty c member word
    refine ⟨?_, ?_, ?_, ?_⟩
    · intro empty
      rw [empty] at letters
      exact given ((List.take_eq_nil_iff.mp letters.symm).resolve_left (by decide))
    · rw [← String.length_toList, letters, List.length_take]
      exact Nat.min_le_left _ _
    · intro c member
      rw [letters] at member
      exact plain_of_mem_stem (List.mem_of_mem_take member)
    · rw [letters, List.head?_take, if_neg (by decide)]
      exact head?_stem_ne _

theorem podName_closes_iff (name : String) :
    (podName name).toList.getLast? = some '-' ↔ IsBroken name := by
  rw [toList_podName, getLast?_take_stem_iff, getElem?_stem_iff]
  rfl

theorem IsBroken.long (broken : IsBroken name) : 63 < (Text.lower name).toList.length := by
  obtain ⟨front, kept, rest, breaks⟩ := broken
  obtain ⟨c, whole, -⟩ := breaks.split
  obtain ⟨later, listed, -⟩ := breaks.more
  have full := breaks.full
  have further := List.length_pos_of_mem listed
  rw [whole, List.length_append, List.length_append, List.length_cons]
  omega

theorem isUsable_podName_of_short (word : HasWord name)
    (short : (Text.lower name).toList.length ≤ 63) : IsUsable (podName name) :=
  ⟨(fitsUpToEnd_podName_iff name).mpr word,
    fun dash => absurd ((podName_closes_iff name).mp dash).long short.not_gt⟩

example : IsUsable (podName "e2e_AWS") :=
  isUsable_podName_of_short ⟨'e', by decide, by decide⟩ (by decide)

/-- The name of a test's pod has a word in it, is short enough and made of words and
dashes, and begins with a word, exactly if the test's name has one; but its end is right
only if the name is not cut behind a dash. -/
theorem podName_isUsable_iff (name : String) :
    (FitsUpToEnd (podName name) ↔ HasWord name)
      ∧ (IsUsable (podName name) ↔ HasWord name ∧ ¬ IsBroken name) := by
  have fits := fitsUpToEnd_podName_iff name
  have closes := podName_closes_iff name
  refine ⟨fits, ?_, ?_⟩
  · rintro ⟨upToEnd, ends⟩
    exact ⟨fits.mp upToEnd, fun broken => ends (closes.mpr broken)⟩
  · rintro ⟨word, whole⟩
    exact ⟨fits.mpr word, fun dash => whole (closes.mp dash)⟩

def upgradeTest : String :=
  "e2e-aws-upgrade-from-stable-4.7-to-4.8-behind-proxy-and-mirror-serial"

/-- A name is cut after the dashes at its ends are dropped, and so a dash may be at the
end again. -/
theorem upgradeTest_ends_in_dash :
    HasWord upgradeTest
      ∧ podName upgradeTest =
          "e2e-aws-upgrade-from-stable-4-7-to-4-8-behind-proxy-and-mirror-"
      ∧ ¬ IsUsable (podName upgradeTest) := by
  have cut : podName upgradeTest
      = "e2e-aws-upgrade-from-stable-4-7-to-4-8-behind-proxy-and-mirror-" := by decide
  refine ⟨⟨'e', by decide, by decide⟩, cut, fun usable => usable.closes ?_⟩
  rw [cut]
  decide

end BuildPipeline.Naming
