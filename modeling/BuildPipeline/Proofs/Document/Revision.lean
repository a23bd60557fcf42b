import BuildPipeline.Proofs.Document.Shape

namespace BuildPipeline.Document

namespace Entries

def without (entries : Entries) (key : String) : Entries :=
  entries.filter fun entry => !entry.1.sameKey (.string key)

def revised (entries : Entries) (key : String) (change : Value → Value) : Entries :=
  entries.map fun entry =>
    if entry.1.sameKey (.string key) then (entry.1, change entry.2) else entry

variable {entries : Entries} {key other : String} {change : Value → Value}

theorem get?_without_self :
    Entries.get? (Entries.without entries key) (.string key) = none := by
  rw [get?, without, Option.map_eq_none_iff, List.find?_eq_none]
  intro entry member
  simpa using (List.mem_filter.mp member).2

theorem not_sameKey_of_ne {name : Value} (ne : other ≠ key)
    (same : name.sameKey (.string other) = true) : name.sameKey (.string key) = false := by
  by_contra both
  rw [Bool.not_eq_false, Value.sameKey_string_iff, Value.sameKey_string_iff.mp same] at both
  exact ne (Option.some.inj both)

theorem get?_without_of_ne (ne : other ≠ key) :
    Entries.get? (Entries.without entries key) (.string other) =
      Entries.get? entries (.string other) := by
  rw [get?, get?, without, List.find?_filter]
  congr 2
  funext entry
  cases same : entry.1.sameKey (.string other) with
  | false => simp
  | true => simp [not_sameKey_of_ne ne same]

theorem get?_revised_self :
    Entries.get? (Entries.revised entries key change) (.string key) =
      (Entries.get? entries (.string key)).map change := by
  induction entries with
  | nil => rfl
  | cons entry rest ih =>
      cases same : entry.1.sameKey (.string key) with
      | true => simp [get?, revised, same]
      | false => simpa [get?, revised, same] using ih

theorem get?_revised_of_ne (ne : other ≠ key) :
    Entries.get? (Entries.revised entries key change) (.string other) =
      Entries.get? entries (.string other) := by
  induction entries with
  | nil => rfl
  | cons entry rest ih =>
      cases same : entry.1.sameKey (.string other) with
      | true => simp [get?, revised, same, not_sameKey_of_ne ne same]
      | false =>
          cases here : entry.1.sameKey (.string key) <;>
            simpa [get?, revised, same, here] using ih

end Entries

namespace Value

/-- A record with its entries recast, and a list with one of its items revised.  A
collection keeps its mark. -/
def recast (change : Entries → Entries) : Value → Value
  | .mapping entries => .mapping (change entries)
  | .shared mark (.mapping entries) => .shared mark (.mapping (change entries))
  | value => value

def revisedItem (index : Nat) (change : Value → Value) : Value → Value
  | .list items => .list (items.modify index change)
  | .shared mark (.list items) => .shared mark (.list (items.modify index change))
  | value => value

def without (value : Value) (key : String) : Value :=
  value.recast fun entries => Entries.without entries key

def revised (value : Value) (key : String) (change : Value → Value) : Value :=
  value.recast fun entries => Entries.revised entries key change

variable {value : Value} {key other : String} {change : Value → Value}

theorem isRecord_recast (recasting : Entries → Entries) :
    (value.recast recasting).isRecord = value.isRecord := by
  unfold recast
  split <;> rfl

theorem isRecord_without (value : Value) (key : String) :
    (value.without key).isRecord = value.isRecord :=
  isRecord_recast _

theorem isRecord_revised (value : Value) (key : String) (change : Value → Value) :
    (value.revised key change).isRecord = value.isRecord :=
  isRecord_recast _

theorem entries_recast (record : value.isRecord = true) (recasting : Entries → Entries) :
    (value.recast recasting).entries = recasting value.entries := by
  match value, record with
  | .mapping _, _ => rfl
  | .shared _ (.mapping _), _ => rfl

theorem isRecord_of_under? {found : Value} (present : value.under? key = some found) :
    value.isRecord = true := by
  cases bare : value.bare with
  | mapping _ => simp only [isRecord, bare]
  | _ => simp [under?, entries, bare, Entries.get?] at present

theorem under?_eq_none (other : value.isRecord = false) (key : String) :
    value.under? key = none := by
  by_contra present
  obtain ⟨found, present⟩ := Option.ne_none_iff_exists'.mp present
  rw [isRecord_of_under? present] at other
  cases other

theorem under?_without_self (record : value.isRecord = true) :
    (value.without key).under? key = none := by
  rw [under?, without, entries_recast record]
  exact Entries.get?_without_self

theorem under?_without_of_ne (record : value.isRecord = true) (ne : other ≠ key) :
    (value.without key).under? other = value.under? other := by
  rw [under?, without, entries_recast record]
  exact Entries.get?_without_of_ne ne

theorem under_without (empty : value.under? key = some .null) (other : String) :
    (value.without key).under other = value.under other := by
  have record := isRecord_of_under? empty
  by_cases here : other = key
  · subst here
    rw [under, under, under?_without_self record, empty]
    rfl
  · rw [under, under, under?_without_of_ne record here]

theorem under?_revised_self (value : Value) (key : String) (change : Value → Value) :
    (value.revised key change).under? key = (value.under? key).map change := by
  cases record : value.isRecord with
  | true =>
      rw [under?, revised, entries_recast record]
      exact Entries.get?_revised_self
  | false =>
      rw [under?_eq_none record, under?_eq_none ((isRecord_revised _ _ _).trans record)]
      rfl

theorem under_of_under? {found : Value} (present : value.under? key = some found) :
    value.under key = found := by
  rw [under, present]
  rfl

theorem under_revised_self {found : Value} (present : value.under? key = some found)
    (change : Value → Value) : (value.revised key change).under key = change found := by
  apply under_of_under?
  rw [under?_revised_self, present]
  rfl

theorem under_revised_of_ne (value : Value) (change : Value → Value) (ne : other ≠ key) :
    (value.revised key change).under other = value.under other := by
  cases record : value.isRecord with
  | true =>
      rw [under, under, under?, revised, entries_recast record]
      exact congrArg ofOption (Entries.get?_revised_of_ne ne)
  | false =>
      rw [under, under, under?_eq_none record,
        under?_eq_none ((isRecord_revised _ _ _).trans record)]

end Value

end BuildPipeline.Document
