import BuildPipeline.Error.Reason
import Mathlib.Data.List.Nodup
import Mathlib.Data.List.Range

namespace BuildPipeline.Error

variable {error : Error} {seen visited : List Nat} {position : Nat}

/-- Failures that look alike are still told apart by their positions.  These are the ones
that the causes lead to. -/
inductive Leads (error : Error) : Nat → Prop
  | outermost : Leads error 0
  | cause {position next : Nat} : Leads error position → error.next? position = some next →
      next < error.failures.length → Leads error next

inductive Walks (error : Error) : List Nat → Option Nat → List Nat → Prop
  | ended {seen : List Nat} : Walks error seen none []
  | again {seen : List Nat} {position : Nat} :
      position ∈ seen → Walks error seen (some position) []
  | outside {seen : List Nat} {position : Nat} : error.failures.length ≤ position →
      Walks error seen (some position) []
  | visit {seen visited : List Nat} {position : Nat} : position ∉ seen →
      position < error.failures.length →
      Walks error (position :: seen) (error.next? position) visited →
      Walks error seen (some position) (position :: visited)

/-- The walk ends, and the chain has each failure that the causes lead to once. -/
def ListsEach (error : Error) : Prop :=
  ∃ visited, error.Walks [] (some 0) visited ∧ visited.Nodup
    ∧ (∀ position, position ∈ visited ↔ error.Leads position)
    ∧ error.chain.map some = visited.map error.at?

theorem length_failures (error : Error) :
    error.failures.length = error.causes.length + 1 := rfl

theorem next?_of_lt (inner : position < error.causes.length) :
    error.next? position = some (position + 1) := if_pos inner

theorem next?_innermost (error : Error) : error.next? error.causes.length = error.back := by
  simp [next?]

theorem walk_of_walks {place : Option Nat} {fuel : Nat}
    (walks : error.Walks seen place visited) (ample : visited.length < fuel) :
    (error.walk fuel seen place).map some = visited.map error.at? := by
  induction walks generalizing fuel with
  | ended =>
      cases fuel with
      | zero => cases ample
      | succ fuel => rfl
  | again known =>
      cases fuel with
      | zero => cases ample
      | succ fuel =>
          rw [walk, if_pos known]
          rfl
  | @outside seen position beyond =>
      cases fuel with
      | zero => cases ample
      | succ fuel =>
          have nothing : error.at? position = none := List.getElem?_eq_none beyond
          rw [walk, nothing, ite_self]
          rfl
  | @visit seen visited position fresh inside _ ih =>
      cases fuel with
      | zero => cases ample
      | succ fuel =>
          have there : error.at? position = some error.failures[position] :=
            List.getElem?_eq_getElem inside
          rw [walk, if_neg fresh, there, List.map_cons, List.map_cons, there]
          exact congrArg _ (ih (Nat.lt_of_succ_lt_succ ample))

theorem walks_back (known : ∀ earlier < error.failures.length, earlier ∈ seen) :
    error.Walks seen error.back [] := by
  cases error.back with
  | none => exact .ended
  | some earlier =>
      rcases Nat.lt_or_ge earlier error.failures.length with inside | beyond
      · exact .again (known earlier inside)
      · exact .outside beyond

theorem mem_cons_iff_lt (seen_iff : ∀ earlier, earlier ∈ seen ↔ earlier < position)
    (earlier : Nat) :
    earlier ∈ position :: seen ↔ earlier < position + 1 := by
  rw [List.mem_cons, seen_iff, Nat.lt_succ_iff_lt_or_eq, or_comm]

/-- Once just the failures outside of a position are seen, the walk goes inwards from
there. -/
theorem walks_inwards {left : Nat} (count : position + left = error.causes.length)
    (seen_iff : ∀ earlier, earlier ∈ seen ↔ earlier < position) :
    error.Walks seen (some position) (List.range' position (left + 1)) := by
  induction left generalizing position seen with
  | zero =>
      have fresh : position ∉ seen :=
        fun known => Nat.lt_irrefl _ ((seen_iff position).mp known)
      have innermost : position = error.causes.length := count
      subst innermost
      refine .visit fresh (Nat.lt_succ_self _) ?_
      rw [next?_innermost]
      exact walks_back fun earlier => (mem_cons_iff_lt seen_iff earlier).mpr
  | succ left ih =>
      have fresh : position ∉ seen :=
        fun known => Nat.lt_irrefl _ ((seen_iff position).mp known)
      rw [List.range'_succ]
      refine .visit fresh (by rw [length_failures]; omega) ?_
      rw [next?_of_lt (by omega)]
      exact ih (by omega) (mem_cons_iff_lt seen_iff)

theorem walks_outermost (error : Error) :
    error.Walks [] (some 0) (List.range error.failures.length) := by
  rw [List.range_eq_range']
  exact walks_inwards (Nat.zero_add _) (by simp)

theorem map_at?_range (error : Error) :
    (List.range error.failures.length).map error.at? = error.failures.map some := by
  refine List.ext_getElem (by simp) fun index inside _ => ?_
  rw [List.getElem_map, List.getElem_map, List.getElem_range]
  exact List.getElem?_eq_getElem _

/-- The chain of an error is all of its failures, wherever its causes lead back. -/
theorem chain_eq_failures (error : Error) : error.chain = error.failures := by
  have walked : error.chain.map some = (List.range error.failures.length).map error.at? :=
    walk_of_walks error.walks_outermost (by simp)
  rw [map_at?_range] at walked
  exact (List.map_inj_right fun _ _ => Option.some.inj).mp walked

theorem leads_iff : error.Leads position ↔ position < error.failures.length := by
  constructor
  · intro leads
    cases leads with
    | outermost => exact Nat.succ_pos _
    | cause _ _ inside => exact inside
  · intro inside
    induction position with
    | zero => exact .outermost
    | succ position ih =>
        have inner : position < error.causes.length := Nat.lt_of_succ_lt_succ inside
        exact .cause (ih (Nat.lt_of_succ_lt inside)) (next?_of_lt inner) inside

theorem listsEach (error : Error) : error.ListsEach := by
  refine ⟨_, error.walks_outermost, List.nodup_range, fun position => ?_, ?_⟩
  · rw [List.mem_range, leads_iff]
  · rw [chain_eq_failures, map_at?_range]

theorem chain_causing (error : Error) (failure : Failure) :
    (error.causing failure).chain = failure :: error.chain := by
  rw [chain_eq_failures, chain_eq_failures]
  rfl

theorem chain_because (error : Error) (reason : String) :
    (error.because reason).chain = .reasoned reason error.described :: error.chain :=
  error.chain_causing _

theorem reasons_because (error : Error) (reason : String) :
    (error.because reason).reasons = reason :: error.reasons := by
  rw [reasons, chain_because]
  rfl

theorem category_causing (error : Error) {failure : Failure}
    (undecided : Category.ofFailure? failure = none) :
    (error.causing failure).category = error.category := by
  rw [category, chain_causing, List.findSome?_cons, undecided]
  rfl

theorem category_because (error : Error) (reason : String) :
    (error.because reason).category = error.category :=
  error.category_causing rfl

theorem reasons_causing (error : Error) {failure : Failure}
    (untagged : failure.reason? = none) :
    (error.causing failure).reasons = error.reasons := by
  rw [reasons, chain_causing, List.filterMap_cons, untagged]
  rfl

theorem reasons_foldl_because (error : Error) (tags : List String) :
    (tags.foldl because error).reasons = tags.reverse ++ error.reasons := by
  induction tags generalizing error with
  | nil => rfl
  | cons tag rest ih =>
      rw [List.foldl_cons, ih, reasons_because, List.reverse_cons, List.append_assoc]
      rfl

theorem category_foldl_because (error : Error) (tags : List String) :
    (tags.foldl because error).category = error.category := by
  induction tags generalizing error with
  | nil => rfl
  | cons tag rest ih => rw [List.foldl_cons, ih, category_because]

theorem reason_of_reasons {outermost : String} {inner : List String}
    (tagged : error.reasons = outermost :: inner) : error.reason = outermost := by
  rw [reason, tagged]

theorem fullReason_of_reasons {outermost : String} {inner : List String}
    (tagged : error.reasons = outermost :: inner) :
    error.fullReason = String.intercalate ":" (outermost :: inner) := by
  rw [fullReason, tagged]

/-- The walk over any error ends and lists each of its failures once; after tags given in
turn the reason is the last of them, the full reason has them from the last to the first
before those of the error, and the category is that of the error. -/
theorem tagged_in_turn (error : Error) (tags : List String) (last : String) :
    error.ListsEach
      ∧ ((tags ++ [last]).foldl because error).ListsEach
      ∧ ((tags ++ [last]).foldl because error).reason = last
      ∧ ((tags ++ [last]).foldl because error).fullReason
          = String.intercalate ":" ((tags ++ [last]).reverse ++ error.reasons)
      ∧ ((tags ++ [last]).foldl because error).category = error.category := by
  have found : ((tags ++ [last]).foldl because error).reasons
      = last :: (tags.reverse ++ error.reasons) := by
    rw [reasons_foldl_because, List.reverse_append]
    rfl
  refine ⟨listsEach error, listsEach _, reason_of_reasons found, ?_,
    category_foldl_because _ _⟩
  rw [fullReason_of_reasons found, List.reverse_append]
  rfl

example :
    ((({ head := .notFound "pod lost" none, back := some 0 } : Error).because "running_pod")
      |>.because "executing_test").fullReason = "executing_test:running_pod" := by
  decide

end BuildPipeline.Error
