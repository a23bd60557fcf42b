import Mathlib.Data.List.Basic

namespace BuildPipeline.Answer

variable {ε α β : Type}

theorem ok_bind (value : α) (next : α → Except ε β) :
    (Except.ok value >>= next) = next value := rfl

theorem bind_eq_ok {first : Except ε α} {next : α → Except ε β} {answer : β} :
    (first >>= next) = .ok answer ↔ ∃ value, first = .ok value
      ∧ next value = .ok answer := by
  cases first with
  | error failure =>
      constructor
      · rintro ⟨⟩
      · rintro ⟨_, ⟨⟩, _⟩
  | ok value =>
      constructor
      · exact fun answered => ⟨value, rfl, answered⟩
      · rintro ⟨_, ⟨⟩, answered⟩
        exact answered

/-- Two chains whose answers differ by a change do so when one operation more is put
before both. -/
theorem bind_eq_map {γ : Type} {first : Except ε α} {next : α → Except ε β}
    {other : α → Except ε γ} {change : γ → β}
    (goes : ∀ value, next value = (other value).map change) :
    (first >>= next) = (first >>= other).map change := by
  cases first with
  | error failure => rfl
  | ok value => exact goes value

theorem map_bind_eq_map {γ δ : Type} {first : Except ε δ} {adjust : δ → α}
    {next : α → Except ε β} {other : δ → Except ε γ} {change : γ → β}
    (goes : ∀ value, next (adjust value) = (other value).map change) :
    (first.map adjust >>= next) = (first >>= other).map change := by
  cases first with
  | error failure => rfl
  | ok value => exact goes value

theorem foldlM_eq_map {γ δ : Type} {operate : β → α → Except ε β}
    {other : δ → γ → Except ε δ} {change : β → δ} {adjust : α → γ}
    (goes : ∀ state item, other (change state) (adjust item) =
      (operate state item).map change)
    (items : List α) (state : β) :
    (items.map adjust).foldlM other (change state) =
      (items.foldlM operate state).map change := by
  induction items generalizing state with
  | nil => rfl
  | cons item rest ih =>
      rw [List.map_cons, List.foldlM_cons, List.foldlM_cons, goes]
      cases operate state item with
      | error failure => rfl
      | ok next => exact ih next

theorem eq_of_eq_map {answer : Except ε α} {change : α → α}
    (same : answer = answer.map change) {value : α} (answered : answer = .ok value) :
    value = change value := by
  rw [answered] at same
  exact Except.ok.inj same

theorem mapM_modify {operate : α → Except ε β} {items : List α} {index : Nat} {item : α}
    (listed : items[index]? = some item) {change : α → α} {adjust : β → β}
    (differs : operate item = (operate (change item)).map adjust) :
    items.mapM operate =
      ((items.modify index change).mapM operate).map fun answers =>
        answers.modify index adjust := by
  induction items generalizing index with
  | nil => cases listed
  | cons first rest ih =>
      cases index with
      | zero =>
          cases listed
          rw [List.modify_zero_cons, List.mapM_cons, List.mapM_cons, differs]
          exact map_bind_eq_map fun answer => bind_eq_map fun answers => rfl
      | succ index =>
          rw [List.modify_succ_cons, List.mapM_cons, List.mapM_cons, ih listed]
          exact bind_eq_map fun answer => map_bind_eq_map fun answers => rfl

theorem getElem?_mapM {operate : α → Except ε β} {items : List α} {answers : List β}
    (answered : items.mapM operate = .ok answers) {index : Nat} {item : α}
    (listed : items[index]? = some item) :
    ∃ answer, answers[index]? = some answer ∧ operate item = .ok answer := by
  induction items generalizing index answers with
  | nil => cases listed
  | cons first rest ih =>
      rw [List.mapM_cons, bind_eq_ok] at answered
      obtain ⟨answer, operated, answered⟩ := answered
      obtain ⟨others, later, answered⟩ := bind_eq_ok.mp answered
      cases answered
      cases index with
      | zero =>
          cases listed
          exact ⟨answer, rfl, operated⟩
      | succ index => exact ih later listed

theorem foldlM_keeps {operate : β → α → Except ε β} (holds : β → Prop)
    (keeps : ∀ {state item next}, holds state → operate state item = .ok next → holds next)
    {items : List α} {first last : β} (start : holds first)
    (ran : items.foldlM operate first = .ok last) : holds last := by
  induction items generalizing first with
  | nil =>
      cases ran
      exact start
  | cons item rest ih =>
      rw [List.foldlM_cons, bind_eq_ok] at ran
      obtain ⟨between, operated, later⟩ := ran
      exact ih (keeps start operated) later

theorem mapM_eq_ok {operate : α → Except ε β} {items : List α} {answers : List β}
    (answered : items.mapM operate = .ok answers) {answer : β} (member : answer ∈ answers) :
    ∃ item ∈ items, operate item = .ok answer := by
  induction items generalizing answers with
  | nil =>
      cases answered
      cases member
  | cons item rest ih =>
      rw [List.mapM_cons, bind_eq_ok] at answered
      obtain ⟨first, operated, answered⟩ := answered
      obtain ⟨others, later, answered⟩ := bind_eq_ok.mp answered
      cases answered
      rcases List.mem_cons.mp member with rfl | member
      · exact ⟨item, List.mem_cons_self, operated⟩
      · obtain ⟨other, listed, operated⟩ := ih later member
        exact ⟨other, List.mem_cons_of_mem _ listed, operated⟩

theorem forM_eq_ok {check : α → Except ε Unit} {items : List α}
    (checked : items.forM check = .ok ()) : ∀ item ∈ items, check item = .ok () := by
  induction items with
  | nil => simp
  | cons item rest ih =>
      obtain ⟨_, first, later⟩ := bind_eq_ok.mp checked
      exact List.forall_mem_cons.mpr ⟨first, ih later⟩

/-- What holds of the answer if there is one, and of the failure if there is not. -/
def Yields (holds : α → Prop) (fails : ε → Prop) : Except ε α → Prop
  | .ok answer => holds answer
  | .error failure => fails failure

theorem Yields.bind {between : α → Prop} {holds : β → Prop} {fails : ε → Prop}
    {first : Except ε α} {next : α → Except ε β} (yields : Yields between fails first)
    (later : ∀ answer, first = .ok answer → between answer →
      Yields holds fails (next answer)) :
    Yields holds fails (first >>= next) := by
  cases first with
  | error failure => exact yields
  | ok answer => exact later answer rfl yields

theorem Yields.foldlM {holds : List α → β → Prop} {fails : ε → Prop}
    {operate : β → α → Except ε β} {before items : List α} {first : β}
    (start : holds before first)
    (keeps : ∀ dealt item state, item ∈ items → holds dealt state →
      Yields (holds (dealt ++ [item])) fails (operate state item)) :
    Yields (holds (before ++ items)) fails (items.foldlM operate first) := by
  induction items generalizing before first with
  | nil => exact (List.append_nil before).symm ▸ start
  | cons item rest ih =>
      rw [List.foldlM_cons]
      refine (keeps before item first List.mem_cons_self start).bind
        fun next _ between => ?_
      have later := ih between fun dealt item state member =>
        keeps dealt item state (List.mem_cons_of_mem _ member)
      rwa [List.append_assoc] at later

theorem Yields.mapM {holds : β → Prop} {fails : ε → Prop} {operate : α → Except ε β}
    {items : List α} (each : ∀ item ∈ items, Yields holds fails (operate item)) :
    Yields (fun answers => ∀ answer ∈ answers, holds answer) fails
      (items.mapM operate) := by
  induction items with
  | nil => exact fun answer member => absurd member List.not_mem_nil
  | cons item rest ih =>
      rw [List.mapM_cons]
      obtain ⟨first, others⟩ := List.forall_mem_cons.mp each
      refine first.bind fun answer _ held => ?_
      refine (ih others).bind fun answers _ all => ?_
      exact List.forall_mem_cons.mpr ⟨held, all⟩

/-- An answer about something that may have faults, which are met one after another: it
fails with the first of them, if there is one. -/
def FailsFirst (faults : List ε) : Except ε α → Prop
  | .ok _ => faults = []
  | .error failure => faults.head? = some failure

theorem FailsFirst.bind {earlier later : List ε} {first : Except ε α}
    {next : α → Except ε β} (fails : FailsFirst earlier first)
    (goes : ∀ answer, first = .ok answer → FailsFirst later (next answer)) :
    FailsFirst (earlier ++ later) (first >>= next) := by
  cases first with
  | error failure => exact List.mem_head?_append_of_mem_head? fails
  | ok answer =>
      rw [show earlier = [] from fails, List.nil_append]
      exact goes answer rfl

theorem FailsFirst.map {faults : List ε} {answer : Except ε α}
    (fails : FailsFirst faults answer) (change : α → β) :
    FailsFirst faults (answer.map change) := by
  cases answer with
  | error failure => exact fails
  | ok answer => exact fails

theorem FailsFirst.mapM {faults : α → List ε} {operate : α → Except ε β} {items : List α}
    (each : ∀ item ∈ items, FailsFirst (faults item) (operate item)) :
    FailsFirst (items.flatMap faults) (items.mapM operate) := by
  induction items with
  | nil => exact List.flatMap_nil
  | cons item rest ih =>
      rw [List.mapM_cons, List.flatMap_cons]
      obtain ⟨first, others⟩ := List.forall_mem_cons.mp each
      refine first.bind fun answer _ => ?_
      rw [← List.append_nil (rest.flatMap faults)]
      exact (ih others).bind fun answers _ => rfl

/-- What fails first is known from the faults alone. -/
theorem FailsFirst.eq_error_iff {faults : List ε} {answer : Except ε α}
    (fails : FailsFirst faults answer) (failure : ε) :
    answer = .error failure ↔ faults.head? = some failure := by
  cases answer with
  | error found =>
      rw [show faults.head? = some found from fails, Option.some_inj, Except.error.injEq]
  | ok value =>
      rw [show faults = [] from fails]
      simp

theorem FailsFirst.exists_eq_ok_iff {faults : List ε} {answer : Except ε α}
    (fails : FailsFirst faults answer) : (∃ value, answer = .ok value) ↔ faults = [] := by
  cases answer with
  | error found =>
      have met : faults.head? = some found := fails
      constructor
      · rintro ⟨value, ⟨⟩⟩
      · rintro rfl
        cases met
  | ok value => exact ⟨fun _ => fails, fun _ => ⟨value, rfl⟩⟩

end BuildPipeline.Answer
