import BuildPipeline.Table
import Mathlib.Data.List.Induction
import Mathlib.Data.List.Nodup

namespace BuildPipeline.Table

variable {α β : Type}

theorem get?_ofPairs {pairs : List (String × α)} {key : String}
    (listed : key ∈ pairs.map (·.1)) :
    ∃ value, get? (ofPairs pairs) key = some value ∧ (key, value) ∈ pairs := by
  induction pairs using List.reverseRecOn with
  | nil => cases listed
  | append_singleton earlier last ih =>
      obtain ⟨name, value⟩ := last
      rw [ofPairs, List.foldl_append, List.foldl_cons, List.foldl_nil, get?_put]
      split
      · rename_i same
        subst same
        exact ⟨value, rfl, by simp⟩
      · rename_i other
        have listed : key ∈ earlier.map (·.1) := by simpa [other] using listed
        obtain ⟨found, known, member⟩ := ih listed
        exact ⟨found, known, List.mem_append_left _ member⟩

theorem keys_nodup_put {entries : List (String × α)} (nodup : (keys entries).Nodup)
    (key : String) (value : α) : (keys (put entries key value)).Nodup := by
  rw [keys_put]
  split
  · exact nodup
  · rename_i fresh
    exact List.nodup_append.mpr ⟨nodup, List.nodup_singleton key, by
      rintro other listed _ same rfl
      exact fresh (List.mem_singleton.mp same ▸ listed)⟩

theorem keys_nodup_erase {entries : List (String × α)} (nodup : (keys entries).Nodup)
    (key : String) : (keys (erase entries key)).Nodup :=
  nodup.sublist (List.filter_sublist.map _)

theorem ofPairs_of_nodup {pairs : List (String × α)} (nodup : (keys pairs).Nodup) :
    ofPairs pairs = pairs := by
  induction pairs using List.reverseRecOn with
  | nil => rfl
  | append_singleton earlier last ih =>
      have apart := nodup
      rw [keys, List.map_append, List.nodup_append] at apart
      obtain ⟨first, -, fresh⟩ := apart
      rw [ofPairs, List.foldl_append, List.foldl_cons, List.foldl_nil]
      rw [show earlier.foldl (fun entries pair => put entries pair.1 pair.2) [] =
        earlier from ih first]
      exact put_of_fresh (fun listed => fresh _ listed _ (by simp) rfl) last.2

/-- Putting one entry after another under keys of their own leaves each key with the last
of them. -/
theorem mem_foldl_put {key : β → String} {value : β → α} {items : List β}
    {entries : List (String × α)} {other : String} {found : α} :
    (other, found) ∈ items.foldl (fun table item =>
      put table (key item) (value item)) entries
      ↔ (∃ before item after, items = before ++ item :: after ∧ key item = other
          ∧ other ∉ after.map key ∧ found = value item)
        ∨ other ∉ items.map key ∧ (other, found) ∈ entries := by
  induction items generalizing entries with
  | nil => simp
  | cons first rest ih =>
      rw [List.foldl_cons, ih, List.map_cons, List.mem_cons, not_or, mem_put]
      constructor
      · rintro (⟨before, item, after, rfl, same, last, eq⟩ | ⟨later,
          ⟨rfl, rfl⟩ | ⟨ne, listed⟩⟩)
        · exact Or.inl ⟨first :: before, item, after, rfl, same, last, eq⟩
        · exact Or.inl ⟨[], first, rest, rfl, rfl, later, rfl⟩
        · exact Or.inr ⟨⟨ne, later⟩, listed⟩
      · rintro (⟨before, item, after, split, same, last, eq⟩ | ⟨⟨ne, later⟩, listed⟩)
        · cases before with
          | nil =>
              obtain ⟨rfl, rfl⟩ := List.cons.inj split
              exact Or.inr ⟨last, Or.inl ⟨same.symm, eq⟩⟩
          | cons _ before =>
              obtain ⟨rfl, rfl⟩ := List.cons.inj split
              exact Or.inl ⟨before, item, after, rfl, same, last, eq⟩
        · exact Or.inr ⟨later, Or.inr ⟨ne, listed⟩⟩

theorem keys_nodup_foldl_put {entries : List (String × α)} (nodup : (keys entries).Nodup)
    (key : β → String) (value : β → α) (items : List β) :
    (keys (items.foldl (fun table item =>
      put table (key item) (value item)) entries)).Nodup := by
  induction items generalizing entries with
  | nil => exact nodup
  | cons first rest ih => exact ih (keys_nodup_put nodup _ _)

theorem get?_eq_some_iff {entries : List (String × α)} (keyed : (keys entries).Nodup)
    {key : String} {value : α} :
    get? entries key = some value ↔ (key, value) ∈ entries := by
  induction entries with
  | nil => simp [get?]
  | cons entry rest ih =>
      obtain ⟨name, own⟩ := entry
      obtain ⟨fresh, keyed⟩ := List.nodup_cons.mp keyed
      rw [get?_cons, List.mem_cons, Prod.mk.injEq]
      split
      · rename_i here
        subst here
        constructor
        · intro same
          exact Or.inl ⟨rfl, (Option.some.inj same).symm⟩
        · rintro (⟨_, rfl⟩ | listed)
          · rfl
          · exact absurd (List.mem_map_of_mem listed) fresh
      · rename_i other
        simp [ih keyed, other]

theorem get?_perm {entries others : List (String × α)} (keyed : (keys entries).Nodup)
    (same : entries.Perm others) (key : String) : get? entries key = get? others key := by
  have keyed' : (keys others).Nodup := (same.map _).nodup_iff.mp keyed
  ext value
  rw [get?_eq_some_iff keyed, get?_eq_some_iff keyed', same.mem_iff]

theorem perm_of_mem_iff {entries others : List (String × α)} (keyed : (keys entries).Nodup)
    (keyed' : (keys others).Nodup)
    (same : ∀ key value, (key, value) ∈ entries ↔ (key, value) ∈ others) :
    entries.Perm others :=
  (List.perm_ext_iff_of_nodup (List.Nodup.of_map _ keyed) (List.Nodup.of_map _ keyed')).mpr
    fun entry => same entry.1 entry.2

end BuildPipeline.Table
