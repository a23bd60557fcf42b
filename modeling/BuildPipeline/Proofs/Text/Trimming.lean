import BuildPipeline.Text.Basic
import Mathlib.Data.List.DropRight

namespace BuildPipeline.Text

variable {drop : Char → Bool} {text core : List Char}

/-- The part of a text that trimming leaves. -/
structure Trims (drop : Char → Bool) (text core : List Char) : Prop where
  split : ∃ front back, text = front ++ core ++ back
    ∧ (∀ c ∈ front, drop c = true) ∧ ∀ c ∈ back, drop c = true
  opens : ∀ c ∈ core.head?, drop c = false
  closes : ∀ c ∈ core.getLast?, drop c = false

theorem dropWhile_of_opens (opens : ∀ c ∈ text.head?, drop c = false) :
    text.dropWhile drop = text := by
  cases text with
  | nil => rfl
  | cons c rest => exact List.dropWhile_cons_of_neg (Bool.eq_false_iff.mp (opens c rfl))

theorem opens_dropWhile (drop : Char → Bool) (text : List Char) :
    ∀ c ∈ (text.dropWhile drop).head?, drop c = false := by
  intro c first
  have stopped := List.head?_dropWhile_not drop text
  rwa [Option.mem_def.mp first] at stopped

theorem trimEndIn_of_closes (closes : ∀ c ∈ text.getLast?, drop c = false) :
    trimEndIn drop text = text := by
  rw [← List.head?_reverse] at closes
  rw [trimEndIn, dropWhile_of_opens closes, List.reverse_reverse]

theorem closes_trimEndIn (drop : Char → Bool) (text : List Char) :
    ∀ c ∈ (trimEndIn drop text).getLast?, drop c = false := by
  rw [trimEndIn, List.getLast?_reverse]
  exact opens_dropWhile drop text.reverse

theorem trimEndIn_append_of_dropped {back : List Char}
    (dropped : ∀ c ∈ back, drop c = true) :
    trimEndIn drop (text ++ back) = trimEndIn drop text := by
  rw [trimEndIn, List.reverse_append, List.dropWhile_append_of_pos]
  · rfl
  · exact fun c member => dropped c (List.mem_reverse.mp member)

theorem exists_trimEndIn_append (drop : Char → Bool) (text : List Char) :
    ∃ back, text = trimEndIn drop text ++ back ∧ ∀ c ∈ back, drop c = true :=
  ⟨text.rtakeWhile drop, List.rdropWhile_append_rtakeWhile.symm, fun _ =>
    List.mem_rtakeWhile_imp⟩

theorem trimEndIn_ne_nil {c : Char} (member : c ∈ text) (kept : drop c = false) :
    trimEndIn drop text ≠ [] := by
  intro empty
  have dropped := List.rdropWhile_eq_nil_iff.mp empty c member
  rw [kept] at dropped
  cases dropped

theorem trimIn_trims (drop : Char → Bool) (text : List Char) :
    Trims drop text (trimIn drop text) := by
  obtain ⟨back, split, dropped⟩ := exists_trimEndIn_append drop (text.dropWhile drop)
  refine ⟨⟨text.takeWhile drop, back, ?_, fun _ => List.mem_takeWhile_imp, dropped⟩, ?_,
    closes_trimEndIn drop _⟩
  · rw [List.append_assoc, trimIn, ← split, List.takeWhile_append_dropWhile]
  · intro c (first : (trimEndIn drop (text.dropWhile drop)).head? = some c)
    refine opens_dropWhile drop text c ?_
    rw [split, List.head?_append, first]
    rfl

theorem Trims.trimIn_eq (trims : Trims drop text core) : trimIn drop text = core := by
  obtain ⟨front, back, rfl, droppedFront, droppedBack⟩ := trims.split
  rw [trimIn, List.append_assoc, List.dropWhile_append_of_pos droppedFront]
  cases core with
  | nil =>
      rw [List.nil_append, List.dropWhile_eq_nil_iff.mpr droppedBack]
      rfl
  | cons c rest =>
      have opens : ∀ first ∈ (c :: rest ++ back).head?, drop first = false := trims.opens
      rw [dropWhile_of_opens opens, trimEndIn_append_of_dropped droppedBack,
        trimEndIn_of_closes trims.closes]

theorem Trims.eq_nil_iff (trims : Trims drop text core) :
    core = [] ↔ ∀ c ∈ text, drop c = true := by
  obtain ⟨front, back, rfl, droppedFront, droppedBack⟩ := trims.split
  constructor
  · rintro rfl c member
    rw [List.append_nil, List.mem_append] at member
    exact member.elim (droppedFront c) (droppedBack c)
  · intro dropped
    cases core with
    | nil => rfl
    | cons c rest =>
        have kept := trims.opens c rfl
        rw [dropped c (by simp)] at kept
        cases kept

end BuildPipeline.Text
