import BuildPipeline.Graph.Order
import BuildPipeline.Proofs.Graph.Acyclic
import Mathlib.Data.List.Nodup

namespace BuildPipeline

variable {κ ρ : Type}

namespace StepGraph

theorem eraseDups_eq_self_of_nodup {names : List String} (nodup : names.Nodup) :
    names.eraseDups = names := by
  induction names with
  | nil => rfl
  | cons name rest ih =>
      obtain ⟨fresh, nodup⟩ := List.nodup_cons.mp nodup
      have untouched : rest.filter (fun other => !other == name) = rest := by
        apply List.filter_eq_self.mpr
        intro other member
        simp only [Bool.not_eq_eq_eq_not, Bool.not_true, beq_eq_false_iff_ne, ne_eq]
        rintro rfl
        exact fresh member
      rw [List.eraseDups_cons, untouched, ih nodup]

theorem distinctNames_eq_names {graph : StepGraph κ ρ} (wellFormed : graph.WellFormed) :
    graph.distinctNames = graph.names :=
  eraseDups_eq_self_of_nodup wellFormed.names_nodup

theorem dependencies_nodup {graph : StepGraph κ ρ} (anchored : graph.Anchored)
    (name : String) :
    (graph.dependencies name).Nodup := by
  apply List.Nodup.map_on
  · intro first hfirst second hsecond same
    simp only [List.mem_filter, beq_iff_eq] at hfirst hsecond
    exact Prod.ext same (hfirst.2.trans hsecond.2.symm)
  · exact anchored.edges_nodup.filter _

theorem children_nodup {graph : StepGraph κ ρ} (anchored : graph.Anchored) (name : String) :
    (graph.children name).Nodup := by
  refine (List.mergeSort_perm _ _).nodup_iff.mpr ?_
  apply List.Nodup.map_on
  · intro first hfirst second hsecond same
    simp only [List.mem_filter, beq_iff_eq] at hfirst hsecond
    exact Prod.ext (hfirst.2.trans hsecond.2.symm) same
  · exact anchored.edges_nodup.filter _

theorem mem_children {graph : StepGraph κ ρ} {before after : String} :
    after ∈ graph.children before ↔ before ∈ graph.dependencies after := by
  rw [children, (List.mergeSort_perm _ _).mem_iff, mem_dependents, mem_dependencies]

theorem mem_names_of_mem_children {graph : StepGraph κ ρ} (anchored : graph.Anchored)
    {before after : String} (child : after ∈ graph.children before) : after ∈ graph.names :=
  anchored.after_mem (mem_dependencies.mp (mem_children.mp child))

def remaining (graph : StepGraph κ ρ) (emitted : List String) (name : String) :
    List String :=
  (graph.dependencies name).filter fun dependency => dependency ∉ emitted

theorem remaining_eq_nil_iff {graph : StepGraph κ ρ} {emitted : List String}
    {name : String} :
    graph.remaining emitted name = []
      ↔ ∀ dependency ∈ graph.dependencies name, dependency ∈ emitted := by
  simp [remaining, List.filter_eq_nil_iff]

theorem remaining_snoc {graph : StepGraph κ ρ} (wellFormed : graph.WellFormed)
    (emitted : List String) (next name : String) :
    graph.remaining (emitted ++ [next]) name =
      (graph.remaining emitted name).erase next := by
  have nodup : (graph.remaining emitted name).Nodup :=
    (dependencies_nodup wellFormed.anchored name).filter _
  rw [nodup.erase_eq_filter, remaining, remaining, List.filter_filter]
  apply List.filter_congr
  intro dependency _
  by_cases hnext : dependency = next <;> simp [hnext]

theorem length_remaining_snoc {graph : StepGraph κ ρ} (wellFormed : graph.WellFormed)
    {emitted : List String} {next : String} (fresh : next ∉ emitted) (name : String) :
    (graph.remaining (emitted ++ [next]) name).length
        + (if name ∈ graph.children next then 1 else 0) =
      (graph.remaining emitted name).length := by
  rw [remaining_snoc wellFormed]
  split
  · rename_i child
    have present : next ∈ graph.remaining emitted name := by
      simpa [remaining, fresh] using mem_children.mp child
    rw [List.length_erase_of_mem present]
    have := List.length_pos_of_mem present
    omega
  · rename_i stranger
    have absent : next ∉ graph.remaining emitted name := by
      simpa [remaining, fresh] using mt mem_children.mpr stranger
    rw [List.erase_of_not_mem absent, Nat.add_zero]

end StepGraph

namespace Emission

open StepGraph

@[simp] theorem keys_lower (pending : List (String × Int)) (name : String) :
    (lower pending name).map (·.1) = pending.map (·.1) := by
  simp only [lower, List.map_map]
  apply List.map_congr_left
  intro entry _
  simp only [Function.comp_apply]
  split <;> rfl

theorem count_lower {pending : List (String × Int)} {name : String} (lowered : String)
    (recorded : name ∈ pending.map (·.1)) :
    count (lower pending lowered) name =
      count pending name - if name = lowered then 1 else 0 := by
  induction pending with
  | nil => simp at recorded
  | cons entry rest ih =>
      by_cases here : entry.1 = name
      · by_cases hlowered : name = lowered <;>
          simp [count, lower, here, hlowered]
      · have later : name ∈ rest.map (·.1) := by
          rcases List.mem_cons.mp recorded with same | later
          · exact absurd same.symm here
          · exact later
        have skipped (entries : List (String × Int)) (other : String × Int)
            (ne : other.1 ≠ name) :
            count (other :: entries) name = count entries name := by
          simp [count, ne]
        have headNe : (if entry.1 == lowered then (entry.1, entry.2 - 1) else entry).1 ≠
            name := by
          split <;> exact here
        rw [skipped rest entry here, ← ih later]
        exact skipped _ _ headNe

@[simp] theorem emitted_release (emission : Emission) (child : String) :
    (emission.release child).emitted = emission.emitted := rfl

@[simp] theorem pending_release (emission : Emission) (child : String) :
    (emission.release child).pending = lower emission.pending child := rfl

@[simp] theorem emitted_foldl_release (children : List String) (emission : Emission) :
    (children.foldl release emission).emitted = emission.emitted := by
  induction children generalizing emission with
  | nil => rfl
  | cons child rest ih => rw [List.foldl_cons, ih, emitted_release]

@[simp] theorem keys_foldl_release (children : List String) (emission : Emission) :
    (children.foldl release emission).pending.map (·.1) = emission.pending.map (·.1) := by
  induction children generalizing emission with
  | nil => rfl
  | cons child rest ih => rw [List.foldl_cons, ih, pending_release, keys_lower]

theorem count_foldl_release {children : List String} (nodup : children.Nodup)
    (emission : Emission) {name : String} (recorded : name ∈ emission.pending.map (·.1)) :
    count (children.foldl release emission).pending name =
      count emission.pending name - if name ∈ children then 1 else 0 := by
  induction children generalizing emission with
  | nil => simp
  | cons child rest ih =>
      obtain ⟨fresh, nodup⟩ := List.nodup_cons.mp nodup
      rw [List.foldl_cons, ih nodup _ (by simpa using recorded), pending_release,
        count_lower child recorded]
      by_cases same : name = child
      · subst same
        simp [fresh]
      · simp [same]

theorem queue_foldl_release {children : List String} (nodup : children.Nodup)
    (emission : Emission)
    (recorded : ∀ child ∈ children, child ∈ emission.pending.map (·.1)) :
    (children.foldl release emission).queue =
      emission.queue ++ children.filter fun child => count emission.pending child = 1 := by
  induction children generalizing emission with
  | nil => simp
  | cons child rest ih =>
      obtain ⟨fresh, nodup⟩ := List.nodup_cons.mp nodup
      have unchanged :
          rest.filter (fun other => count (lower emission.pending child) other = 1) =
          rest.filter fun other => count emission.pending other = 1 := by
        apply List.filter_congr
        intro other member
        have ne : other ≠ child := by
          rintro rfl
          exact fresh member
        rw [count_lower child (recorded other (List.mem_cons_of_mem _ member))]
        simp [ne]
      rw [List.foldl_cons, ih nodup _ fun other member => by
        simpa using recorded other (List.mem_cons_of_mem _ member)]
      rw [pending_release, unchanged, List.filter_cons]
      have lowered := count_lower child (recorded child List.mem_cons_self)
      simp only [if_true] at lowered
      by_cases last : count emission.pending child = 1
      · have zero : count (lower emission.pending child) child = 0 := by omega
        simp [release, last, zero]
      · have nonzero : count (lower emission.pending child) child ≠ 0 := by omega
        simp [release, last, nonzero]

/-- What holds between two emissions: the queue holds the names whose dependencies are all
emitted, and the counts are those of the dependencies that remain. -/
structure Sound (graph : StepGraph κ ρ) (emission : Emission) : Prop where
  nodup : (emission.emitted ++ emission.queue).Nodup
  mem_iff : ∀ name, name ∈ emission.emitted ++ emission.queue
    ↔ name ∈ graph.names
      ∧ ∀ dependency ∈ graph.dependencies name, dependency ∈ emission.emitted
  keys : emission.pending.map (·.1) = graph.names
  count_eq : ∀ name ∈ graph.names,
    count emission.pending name = (graph.remaining emission.emitted name).length
  ordered : ∀ before name after, emission.emitted = before ++ name :: after →
    ∀ dependency ∈ graph.dependencies name, dependency ∈ before

theorem count_map (value : String → Int) {names : List String} {name : String}
    (member : name ∈ names) :
    count (names.map fun name => (name, value name)) name = value name := by
  induction names with
  | nil => simp at member
  | cons first rest ih =>
      by_cases here : first = name
      · simp [count, here]
      · have later : name ∈ rest := (List.mem_cons.mp member).resolve_left (Ne.symm here)
        rw [← ih later]
        simp [count, here]

theorem Sound.initial {graph : StepGraph κ ρ} (wellFormed : graph.WellFormed) :
    Sound graph graph.initialEmission := by
  have counts : ∀ name ∈ graph.names,
      count graph.initialEmission.pending name = (graph.dependencies name).length := by
    intro name member
    rw [← distinctNames_eq_names wellFormed] at member
    exact count_map (fun name => Int.ofNat (graph.dependencies name).length) member
  have queue : graph.initialEmission.queue =
      graph.names.filter fun name => (graph.dependencies name).length = 0 := by
    apply List.filter_congr
    intro name member
    change decide (count graph.initialEmission.pending name = 0) = _
    rw [counts name member]
    simp
  refine
    { nodup := ?_
      mem_iff := ?_
      keys := ?_
      count_eq := ?_
      ordered := ?_ }
  · rw [queue]
    exact wellFormed.names_nodup.filter _
  · intro name
    rw [queue]
    simp [initialEmission, List.eq_nil_iff_forall_not_mem]
  · simp [initialEmission, distinctNames_eq_names wellFormed, Function.comp_def]
  · intro name member
    rw [counts name member]
    simp [remaining, initialEmission]
  · intro before name after split
    simp [initialEmission] at split

theorem ordered_snoc {graph : StepGraph κ ρ} {emitted : List String} {next : String}
    (ordered : ∀ before name after, emitted = before ++ name :: after →
      ∀ dependency ∈ graph.dependencies name, dependency ∈ before)
    (free : ∀ dependency ∈ graph.dependencies next, dependency ∈ emitted) :
    ∀ before name after, emitted ++ [next] = before ++ name :: after →
      ∀ dependency ∈ graph.dependencies name, dependency ∈ before := by
  intro before name after split
  rcases List.eq_nil_or_concat after with rfl | ⟨inner, last, rfl⟩
  · obtain ⟨rfl, same⟩ := List.append_inj' split rfl
    obtain rfl : next = name := by simpa using same
    exact free
  · have split : emitted ++ [next] = (before ++ name :: inner) ++ [last] := by
      simpa using split
    exact ordered before name inner (List.append_inj' split rfl).1

/-- One more name frees the names that were free before it and some of its children. -/
theorem free_snoc_iff {graph : StepGraph κ ρ} {emitted : List String} {next name : String} :
    (∀ dependency ∈ graph.dependencies name, dependency ∈ emitted ++ [next])
      ↔ (∀ dependency ∈ graph.dependencies name, dependency ∈ emitted)
        ∨ name ∈ graph.children next
          ∧ ∀ dependency ∈ graph.dependencies name, dependency ∈ emitted ++ [next] := by
  constructor
  · intro free
    by_cases child : name ∈ graph.children next
    · exact Or.inr ⟨child, free⟩
    · refine Or.inl fun dependency member => ?_
      rcases List.mem_append.mp (free dependency member) with early | late
      · exact early
      · rw [List.mem_singleton.mp late] at member
        exact absurd (mem_children.mpr member) child
  · rintro (early | ⟨_, free⟩)
    · exact fun dependency member => List.mem_append_left _ (early dependency member)
    · exact free

theorem Sound.count_eq_one_iff {graph : StepGraph κ ρ} (wellFormed : graph.WellFormed)
    {emission : Emission} (sound : Sound graph emission) {next child : String}
    (fresh : next ∉ emission.emitted) (member : child ∈ graph.children next) :
    count emission.pending child = 1
      ↔ ∀ dependency ∈ graph.dependencies child, dependency ∈
          emission.emitted ++ [next] := by
  have lengths := length_remaining_snoc wellFormed fresh child
  rw [if_pos member] at lengths
  rw [sound.count_eq child (mem_names_of_mem_children wellFormed.anchored member),
    ← remaining_eq_nil_iff, ← List.length_eq_zero_iff]
  omega

theorem advance_cons {next : String} {rest : List String} {emission : Emission}
    (children : String → List String) (hqueue : emission.queue = next :: rest) :
    emission.advance children =
      (children next).foldl release
        { emission with queue := rest, emitted := emission.emitted ++ [next] } := by
  simp [advance, hqueue]

theorem advance_eq {graph : StepGraph κ ρ} (anchored : graph.Anchored) {next : String}
    {rest : List String} {emission : Emission} (hqueue : emission.queue = next :: rest)
    (recorded : ∀ child ∈ graph.children next, child ∈ emission.pending.map (·.1)) :
    (emission.advance graph.children).emitted = emission.emitted ++ [next]
      ∧ (emission.advance graph.children).queue =
          rest ++ (graph.children next).filter fun child =>
            count emission.pending child = 1 := by
  rw [advance_cons _ hqueue]
  exact ⟨emitted_foldl_release _ _, queue_foldl_release
    (children_nodup anchored next) _ recorded⟩

theorem Sound.recorded {graph : StepGraph κ ρ} (anchored : graph.Anchored)
    {emission : Emission} (sound : Sound graph emission) (next : String) :
    ∀ child ∈ graph.children next, child ∈ emission.pending.map (·.1) := by
  intro child member
  rw [sound.keys]
  exact mem_names_of_mem_children anchored member

theorem Sound.fresh {graph : StepGraph κ ρ} {emission : Emission}
    (sound : Sound graph emission) {next : String} {rest : List String}
    (hqueue : emission.queue = next :: rest) :
    next ∉ emission.emitted := by
  have nodup := sound.nodup
  rw [hqueue] at nodup
  exact fun member => List.disjoint_of_nodup_append nodup member List.mem_cons_self

theorem Sound.released {graph : StepGraph κ ρ} (wellFormed : graph.WellFormed)
    {emission : Emission} (sound : Sound graph emission) {next : String}
    {rest : List String} (hqueue : emission.queue = next :: rest) :
    ∃ released, (emission.advance graph.children).emitted = emission.emitted ++ [next]
      ∧ (emission.advance graph.children).queue = rest ++ released
      ∧ released.Sublist (graph.children next)
      ∧ ∀ child, child ∈ released ↔ child ∈ graph.children next
          ∧ ∀ dependency ∈ graph.dependencies child,
              dependency ∈ emission.emitted ++ [next] := by
  obtain ⟨emitted, queued⟩ :=
    advance_eq wellFormed.anchored hqueue (sound.recorded wellFormed.anchored next)
  refine ⟨_, emitted, queued, List.filter_sublist, fun child => ?_⟩
  simp only [List.mem_filter, decide_eq_true_eq]
  exact and_congr_right fun member =>
    sound.count_eq_one_iff wellFormed (sound.fresh hqueue) member

theorem Sound.advance {graph : StepGraph κ ρ} (wellFormed : graph.WellFormed)
    {emission : Emission} (sound : Sound graph emission) :
    Sound graph (emission.advance graph.children) := by
  cases hqueue : emission.queue with
  | nil => simpa [Emission.advance, hqueue] using sound
  | cons next rest =>
      have fresh := sound.fresh hqueue
      obtain ⟨released, emitted, queued, among, mem_released⟩ :=
        sound.released wellFormed hqueue
      have nodup := sound.nodup
      have listed := sound.mem_iff
      rw [hqueue] at nodup listed
      obtain ⟨_, free⟩ := (listed next).mp (by simp)
      -- The emitted steps and the queue, one after the other, grow by those released.
      have regrouped : emission.emitted ++ [next] ++ (rest ++ released) =
          (emission.emitted ++ next :: rest) ++ released := by simp
      refine
        { nodup := ?_
          mem_iff := ?_
          keys := ?_
          count_eq := ?_
          ordered := ?_ }
      · rw [emitted, queued, regrouped]
        refine nodup.append ((children_nodup wellFormed.anchored next).sublist among) ?_
        intro child old new
        have waits := mem_children.mp ((mem_released child).mp new).1
        exact fresh (((listed child).mp old).2 next waits)
      · intro name
        rw [emitted, queued, regrouped, List.mem_append, listed, mem_released]
        constructor
        · rintro (⟨member, early⟩ | released)
          · exact ⟨member, free_snoc_iff.mpr (Or.inl early)⟩
          · exact ⟨mem_names_of_mem_children wellFormed.anchored released.1, released.2⟩
        · rintro ⟨member, free⟩
          exact (free_snoc_iff.mp free).imp_left (And.intro member)
      · rw [advance_cons _ hqueue, keys_foldl_release]
        exact sound.keys
      · intro name member
        have lengths := length_remaining_snoc wellFormed fresh name
        have counts := count_foldl_release (children_nodup wellFormed.anchored next)
          { emission with queue := rest, emitted := emission.emitted ++ [next] }
          (show name ∈ emission.pending.map (·.1) by rw [sound.keys]; exact member)
        rw [emitted, advance_cons _ hqueue, counts, sound.count_eq name member]
        split at lengths <;> rename_i child <;>
          simp only [child, if_true, if_false] <;> omega
      · rw [emitted]
        exact ordered_snoc sound.ordered free

theorem length_emitted_advance {emission : Emission} (children : String → List String)
    (waiting : emission.queue ≠ []) :
    (emission.advance children).emitted.length = emission.emitted.length + 1 := by
  obtain ⟨next, rest, hqueue⟩ := List.exists_cons_of_ne_nil waiting
  rw [advance_cons children hqueue, emitted_foldl_release]
  simp

theorem Sound.length_le {graph : StepGraph κ ρ} {emission : Emission}
    (sound : Sound graph emission) :
    emission.emitted.length + emission.queue.length ≤ graph.names.length := by
  rw [← List.length_append]
  exact (List.subperm_of_subset sound.nodup fun name member =>
    ((sound.mem_iff name).mp member).1).length_le

theorem Sound.run {graph : StepGraph κ ρ} (wellFormed : graph.WellFormed) (fuel : Nat)
    {emission : Emission} (sound : Sound graph emission)
    (enough : graph.names.length ≤ emission.emitted.length + fuel) :
    Sound graph (Emission.run graph.children fuel emission)
      ∧ (Emission.run graph.children fuel emission).queue = [] := by
  induction fuel generalizing emission with
  | zero =>
      have := sound.length_le
      have idle : emission.queue = [] := List.eq_nil_of_length_eq_zero (by omega)
      exact ⟨sound, idle⟩
  | succ fuel ih =>
      rw [Emission.run]
      split
      · rename_i idle
        exact ⟨sound, List.isEmpty_iff.mp idle⟩
      · rename_i busy
        have waiting : emission.queue ≠ [] := by simpa using busy
        have longer := length_emitted_advance graph.children waiting
        exact ih (sound.advance wellFormed) (by omega)

theorem Sound.run_keeps {graph : StepGraph κ ρ} (wellFormed : graph.WellFormed)
    {holds : Emission → Prop}
    (keeps : ∀ {emission}, Sound graph emission → holds emission →
      holds (emission.advance graph.children))
    (fuel : Nat) {emission : Emission} (sound : Sound graph emission)
      (start : holds emission) :
    holds (Emission.run graph.children fuel emission) := by
  induction fuel generalizing emission with
  | zero => exact start
  | succ fuel ih =>
      rw [Emission.run]
      split
      · exact start
      · exact ih (sound.advance wellFormed) (keeps sound start)

end Emission

namespace StepGraph

/-! What the order of a graph is, in terms of its edges alone. -/

/-- The order is what has been emitted when nothing is queued any more, and what every
emission keeps is true of it. -/
theorem order_of_kept {graph : StepGraph κ ρ} (wellFormed : graph.WellFormed)
    (holds : Emission → Prop) (initial : holds graph.initialEmission)
    (keeps : ∀ {emission}, emission.Sound graph → holds emission →
      holds (emission.advance graph.children)) :
    ∃ emission : Emission, emission.Sound graph ∧ holds emission ∧ emission.queue = []
      ∧ emission.emitted = graph.order := by
  have start := Emission.Sound.initial wellFormed
  obtain ⟨sound, idle⟩ := start.run wellFormed (2 * graph.steps.length)
    (by simp [names, initialEmission]; omega)
  exact ⟨_, sound, start.run_keeps wellFormed keeps _ initial, idle, rfl⟩

theorem sound_order {graph : StepGraph κ ρ} (wellFormed : graph.WellFormed) :
    ∃ emission : Emission,
      emission.Sound graph ∧ emission.queue = [] ∧ emission.emitted = graph.order := by
  obtain ⟨emission, sound, _, idle, emitted⟩ :=
    order_of_kept wellFormed (fun _ => True) trivial fun _ _ => trivial
  exact ⟨emission, sound, idle, emitted⟩

theorem order_nodup {graph : StepGraph κ ρ} (wellFormed : graph.WellFormed) :
    graph.order.Nodup := by
  obtain ⟨emission, sound, idle, emitted⟩ := sound_order wellFormed
  simpa [idle, emitted] using sound.nodup

theorem mem_order_iff {graph : StepGraph κ ρ} (wellFormed : graph.WellFormed)
    {name : String} :
    name ∈ graph.order
      ↔ name ∈ graph.names
        ∧ ∀ dependency ∈ graph.dependencies name, dependency ∈ graph.order := by
  obtain ⟨emission, sound, idle, emitted⟩ := sound_order wellFormed
  simpa [idle, emitted] using sound.mem_iff name

theorem dependencies_before {graph : StepGraph κ ρ} (wellFormed : graph.WellFormed)
    {before after : List String} {name : String}
    (split : graph.order = before ++ name :: after) :
    ∀ dependency ∈ graph.dependencies name, dependency ∈ before := by
  obtain ⟨emission, sound, idle, emitted⟩ := sound_order wellFormed
  exact sound.ordered before name after (emitted.trans split)

theorem mem_order_of_acyclic {graph : StepGraph κ ρ} (wellFormed : graph.WellFormed)
    (acyclic : graph.Acyclic) {name : String} (member : name ∈ graph.names) :
    name ∈ graph.order := by
  induction name using acyclic.wellFounded.induction with
  | _ name ih =>
      refine (mem_order_iff wellFormed).mpr ⟨member, fun dependency hdependency => ?_⟩
      have edge := mem_dependencies.mp hdependency
      exact ih dependency edge (wellFormed.before_mem edge)

theorem step_eq_of_name_eq {graph : StepGraph κ ρ} (wellFormed : graph.WellFormed)
    {first second : Step κ ρ} (hfirst : first ∈ graph.steps)
    (hsecond : second ∈ graph.steps) (same : first.name = second.name) : first = second :=
  List.inj_on_of_nodup_map wellFormed.names_nodup hfirst hsecond same

theorem step?_eq_some_iff {graph : StepGraph κ ρ} (wellFormed : graph.WellFormed)
    {name : String} {step : Step κ ρ} :
    graph.step? name = some step ↔ step ∈ graph.steps ∧ step.name = name := by
  constructor
  · intro found
    have named := List.find?_some found
    exact ⟨List.mem_reverse.mp (List.mem_of_find?_eq_some found), by simpa using named⟩
  · rintro ⟨member, rfl⟩
    cases found : graph.step? step.name with
    | none => simpa using List.find?_eq_none.mp found step (List.mem_reverse.mpr member)
    | some other =>
        have named := List.find?_some found
        have listed := List.mem_reverse.mp (List.mem_of_find?_eq_some found)
        rw [step_eq_of_name_eq wellFormed listed member (by simpa using named)]

theorem step?_isSome {graph : StepGraph κ ρ} (wellFormed : graph.WellFormed) {name : String}
    (member : name ∈ graph.names) :
    ∃ step, graph.step? name = some step ∧ step.name = name := by
  obtain ⟨step, hstep, rfl⟩ := List.mem_map.mp member
  exact ⟨step, (step?_eq_some_iff wellFormed).mpr ⟨hstep, rfl⟩, rfl⟩

theorem names_orderedSteps {graph : StepGraph κ ρ} (wellFormed : graph.WellFormed) :
    graph.orderedSteps.map (·.name) = graph.order := by
  rw [orderedSteps, List.map_filterMap]
  calc
    _ = graph.order.filterMap some := by
      apply List.filterMap_congr
      intro name member
      obtain ⟨step, found, named⟩ :=
        step?_isSome wellFormed ((mem_order_iff wellFormed).mp member).1
      rw [found, Option.map_some, named]
    _ = graph.order := List.filterMap_some

theorem orderedSteps_nodup {graph : StepGraph κ ρ} (wellFormed : graph.WellFormed) :
    (graph.orderedSteps.map (·.name)).Nodup := by
  rw [names_orderedSteps wellFormed]
  exact order_nodup wellFormed

theorem mem_orderedSteps_iff {graph : StepGraph κ ρ} (wellFormed : graph.WellFormed)
    {step : Step κ ρ} :
    step ∈ graph.orderedSteps ↔ step ∈ graph.steps ∧ step.name ∈ graph.order := by
  rw [orderedSteps, List.mem_filterMap]
  constructor
  · rintro ⟨name, ordered, found⟩
    obtain ⟨member, rfl⟩ := (step?_eq_some_iff wellFormed).mp found
    exact ⟨member, ordered⟩
  · rintro ⟨member, ordered⟩
    exact ⟨step.name, ordered, (step?_eq_some_iff wellFormed).mpr ⟨member, rfl⟩⟩

theorem mem_orderedSteps_of_acyclic {graph : StepGraph κ ρ} (wellFormed : graph.WellFormed)
    (acyclic : graph.Acyclic) {step : Step κ ρ} (member : step ∈ graph.steps) :
    step ∈ graph.orderedSteps :=
  (mem_orderedSteps_iff wellFormed).mpr
    ⟨member, mem_order_of_acyclic wellFormed acyclic (List.mem_map_of_mem member)⟩

end StepGraph

end BuildPipeline
