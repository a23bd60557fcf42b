namespace BuildPipeline

/-! Texts under text keys, each key once, in the order in which the keys first came. -/

namespace Table

def get? (entries : List (String × α)) (key : String) : Option α :=
  (entries.find? fun entry => entry.1 == key).map (·.2)

def put (entries : List (String × α)) (key : String) (value : α) : List (String × α) :=
  if entries.any (fun entry => entry.1 == key) then
    entries.map fun entry => if entry.1 == key then (key, value) else entry
  else entries ++ [(key, value)]

def erase (entries : List (String × α)) (key : String) : List (String × α) :=
  entries.filter fun entry => entry.1 != key

def ofPairs (pairs : List (String × α)) : List (String × α) :=
  pairs.foldl (fun entries pair => put entries pair.1 pair.2) []

def keys (entries : List (String × α)) : List String :=
  entries.map (·.1)

variable {α : Type}

theorem mem_put {entries : List (String × α)} {key other : String} {value found : α} :
    (other, found) ∈ put entries key value
      ↔ (other = key ∧ found = value) ∨ (other ≠ key ∧ (other, found) ∈ entries) := by
  unfold put
  split
  · rename_i known
    obtain ⟨⟨first, old⟩, member, same⟩ := List.any_eq_true.mp known
    have same : first = key := by simpa using same
    subst same
    rw [List.mem_map]
    constructor
    · rintro ⟨⟨name, kept⟩, listed, eq⟩
      by_cases here : name = first
      · simp only [here, BEq.rfl, if_true, Prod.mk.injEq] at eq
        exact Or.inl ⟨eq.1.symm, eq.2.symm⟩
      · simp only [beq_eq_false_iff_ne.mpr here, Bool.false_eq_true, if_false,
          Prod.mk.injEq] at eq
        obtain ⟨rfl, rfl⟩ := eq
        exact Or.inr ⟨here, listed⟩
    · rintro (⟨rfl, rfl⟩ | ⟨ne, listed⟩)
      · exact ⟨(other, old), member, by simp⟩
      · exact ⟨(other, found), listed, by simp [ne]⟩
  · rename_i unknown
    have fresh : ∀ entry ∈ entries, entry.1 ≠ key := fun entry listed same =>
      unknown (List.any_eq_true.mpr ⟨entry, listed, by simpa using same⟩)
    rw [List.mem_append, List.mem_singleton, Prod.mk.injEq]
    constructor
    · rintro (listed | same)
      · exact Or.inr ⟨fresh _ listed, listed⟩
      · exact Or.inl same
    · rintro (same | ⟨_, listed⟩)
      · exact Or.inr same
      · exact Or.inl listed

theorem get?_put (entries : List (String × α)) (key other : String) (value : α) :
    get? (put entries key value) other = if other = key then some value
      else get? entries other := by
  unfold put get?
  by_cases known : entries.any (fun entry => entry.1 == key) = true
  · rw [if_pos known, List.find?_map]
    have same_key : ((fun entry : String × α => entry.1 == other) ∘ fun entry =>
        if entry.1 == key then (key, value) else entry) = fun entry =>
          entry.1 == other := by
      funext entry
      by_cases here : entry.1 = key <;> simp [here]
    rw [same_key]
    by_cases here : other = key
    · subst here
      have stands : (entries.find? fun entry => entry.1 == other).isSome = true := by
        rw [List.find?_isSome]
        exact List.any_eq_true.mp known
      obtain ⟨found, hfound⟩ := Option.isSome_iff_exists.mp stands
      have own : found.1 = other := by simpa using List.find?_some hfound
      simp [hfound, own]
    · cases hfound : entries.find? fun entry => entry.1 == other with
      | none => simp [here]
      | some found =>
          have own : found.1 = other := by simpa using List.find?_some hfound
          simp [own, here]
  · rw [if_neg known, List.find?_append]
    by_cases here : other = key
    · subst here
      have absent : entries.find? (fun entry => entry.1 == other) = none :=
        List.find?_eq_none.mpr fun entry listed same =>
          known (List.any_eq_true.mpr ⟨entry, listed, same⟩)
      simp [absent]
    · simp [here, Ne.symm here]

theorem get?_cons (key other : String) (value : α) (entries : List (String × α)) :
    get? ((key, value) :: entries) other = if other = key then some value
      else get? entries other := by
  unfold get?
  by_cases here : other = key
  · subst here
    rw [if_pos rfl, List.find?_cons_of_pos (by simp)]
    rfl
  · rw [List.find?_cons_of_neg (by simpa using Ne.symm here), if_neg here]

theorem get?_eq_none_of_fresh {entries : List (String × α)} {key : String}
    (fresh : key ∉ keys entries) : get? entries key = none := by
  rw [get?, Option.map_eq_none_iff, List.find?_eq_none]
  intro entry member same
  have same : entry.1 = key := by simpa using same
  exact fresh (same ▸ List.mem_map_of_mem member)

theorem get?_erase (entries : List (String × α)) (key other : String) :
    get? (erase entries key) other = if other = key then none else get? entries other := by
  induction entries with
  | nil => exact (ite_self _).symm
  | cons entry rest ih =>
      obtain ⟨name, value⟩ := entry
      rw [erase, List.filter_cons, get?_cons]
      by_cases erased : name = key
      · subst erased
        rw [if_neg (by simp), ← erase, ih]
        by_cases here : other = name
        · rw [if_pos here, if_pos here]
        · rw [if_neg here, if_neg here, if_neg here]
      · rw [if_pos (by simpa using erased), ← erase, get?_cons, ih]
        by_cases here : other = name
        · rw [if_pos here, if_pos here, if_neg (here ▸ erased)]
        · rw [if_neg here, if_neg here]

theorem keys_put (entries : List (String × α)) (key : String) (value : α) :
    keys (put entries key value) =
      if key ∈ keys entries then keys entries else keys entries ++ [key] := by
  have known_iff : entries.any (fun entry => entry.1 == key) = true
      ↔ key ∈ keys entries := by
    simp [keys]
  unfold put
  by_cases known : key ∈ keys entries
  · rw [if_pos known, if_pos (known_iff.mpr known)]
    simp only [keys, List.map_map]
    apply List.map_congr_left
    intro entry _
    by_cases here : entry.1 = key <;> simp [here]
  · rw [if_neg known, if_neg (fun found => known (known_iff.mp found))]
    simp [keys]

theorem put_of_fresh {entries : List (String × α)} {key : String}
    (fresh : key ∉ keys entries) (value : α) :
    put entries key value = entries ++ [(key, value)] := by
  refine if_neg fun known => fresh ?_
  simpa [keys] using known

end Table

end BuildPipeline
