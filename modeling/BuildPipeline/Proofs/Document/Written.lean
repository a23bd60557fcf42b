import BuildPipeline.Error.Failure

namespace BuildPipeline

open Document

namespace Decimal.Layout

theorem positional_ne_nil (digits : List Char) (point : Int) :
    positional digits point ≠ [] := by
  unfold positional
  split
  · simp
  · split <;> simp

theorem scientific_ne_nil (layout : Layout) (digits : List Char) (exponent : Int) :
    layout.scientific digits exponent ≠ [] := by
  simp [scientific]

theorem magnitude_ne_nil (layout : Layout) (number : Scaled) :
    layout.magnitude number ≠ [] := by
  unfold magnitude
  split
  · simp
  · dsimp only
    split
    · exact positional_ne_nil _ _
    · exact scientific_ne_nil _ _ _

theorem write_plain_ne_empty (number : Float) : plain.write number ≠ "" := by
  unfold write
  dsimp only
  split
  · decide
  · exact fun empty => absurd (String.append_eq_empty_iff.mp empty).2 (by decide)
  · intro empty
    have digits := (String.append_eq_empty_iff.mp empty).2
    exact magnitude_ne_nil _ _ (String.ofList_eq_empty_iff.mp digits)

end Decimal.Layout

namespace Document.Value

theorem ellipsis_ne_empty (value : Value) : ellipsis value ≠ "" := by
  unfold ellipsis
  split <;> decide

theorem append_ne_empty (text : String) {mark : String} (marked : mark ≠ "") :
    text ++ mark ≠ "" :=
  fun empty => marked (String.append_eq_empty_iff.mp empty).2

theorem toString_ne_empty (number : Int) : toString number ≠ "" := by
  cases number with
  | ofNat number => exact Nat.repr_ne_empty
  | negSucc number => exact append_ne_empty _ Nat.repr_ne_empty

/-- Inside of a text every value leaves a trace: collections their brackets, texts their
quotes. -/
theorem quotedIn_ne_empty (way : List Nat) (value : Value) : quotedIn way value ≠ "" := by
  unfold quotedIn
  cases value with
  | null => simp
  | bool flag => cases flag <;> simp
  | int number => exact toString_ne_empty number
  | float number => exact Decimal.Layout.write_plain_ne_empty number
  | string content => simp [Text.quoted, Text.Quoted.encode]
  | bytes content => simp [Text.quotedBytes]
  | date year month day => exact append_ne_empty _ (by decide)
  | moment reading => exact append_ne_empty _ (by decide)
  | pair first second => exact append_ne_empty _ (by decide)
  | list items => exact append_ne_empty _ (by decide)
  | set members =>
      dsimp only
      split
      · decide
      · exact append_ne_empty _ (by decide)
  | mapping entries => exact append_ne_empty _ (by decide)
  | shared mark content =>
      dsimp only
      split
      · exact ellipsis_ne_empty content
      · exact quotedIn_ne_empty (mark :: way) content

theorem padded_ne_empty (width number : Nat) : Text.padded width number ≠ "" := by
  intro empty
  have digits := String.ofList_eq_empty_iff.mp empty
  exact Nat.toDigits_ne_nil (List.append_eq_nil_iff.mp digits).2

theorem dateText_ne_empty (year month day : Nat) : Calendar.dateText year month day ≠ "" :=
  append_ne_empty _ (padded_ne_empty 2 day)

theorem text_ne_empty {value : Value} (holds : value.isTrue = true) : value.text ≠ "" := by
  unfold text
  split
  · simpa using holds
  · exact dateText_ne_empty _ _ _
  · rename_i reading
    intro empty
    have front := (String.append_eq_empty_iff.mp empty).1
    have date := (String.append_eq_empty_iff.mp (String.append_eq_empty_iff.mp front).1).1
    exact dateText_ne_empty _ _ _ date
  · exact quotedIn_ne_empty [] value

theorem written_ne_empty {value : Value} (holds : value.isTrue = true) {text : String}
    (written : value.written = .ok text) : text ≠ "" := by
  unfold Value.written at written
  split at written
  · cases written
    exact text_ne_empty holds
  · cases written

/-- A value with `depth` lists around it. -/
def nest (value : Value) : Nat → Value
  | 0 => value
  | depth + 1 => .list [nest value depth]

theorem hindranceIn_nest (content : String) (room : Nat) (way : List Nat) (depth : Nat) :
    hindranceIn room way (nest (.string content) depth) =
      if depth < room then none else some .tooDeep := by
  induction depth generalizing room with
  | zero => cases room <;> rfl
  | succ depth ih =>
      cases room with
      | zero => rfl
      | succ room =>
          rw [nest, hindranceIn, hindranceAmong, hindranceAmong, ih, Option.or_none]
          simp only [Nat.add_lt_add_iff_right]

/-- Each list around a text takes a level from it, until none is left for the text. -/
theorem written_nest (content : String) (depth : Nat) :
    (nest (.string content) depth).written =
      if depth < nestingLimit then .ok (nest (.string content) depth).text
      else .error (.misuse .tooDeep) := by
  rw [Value.written, hindrance?, hindranceIn_nest]
  by_cases shallow : depth < nestingLimit
  · rw [if_pos shallow, if_pos shallow]
  · rw [if_neg shallow, if_neg shallow]
    rfl

end Document.Value

end BuildPipeline
